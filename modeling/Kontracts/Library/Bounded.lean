import Kontracts.Library.Scale

abbrev BoundedVec (α : Type) (limit : ℕ) := { v : List α // v.length ≤ limit }

structure BoundedBTreeMap (K V : Type) [LinearOrder K] (limit : ℕ) where
  inner : BTreeMap K V
  bounded : inner.len ≤ limit

namespace Scale

/-- The bounded decoder is the plain one and then a length check. -/
def decodeBoundedVec (limit : ℕ) : Decoder (BoundedVec UInt8 limit) := fun input => do
  let (v, input) ← decodeVec input
  if bounded : v.length ≤ limit then pure (⟨v, bounded⟩, input) else none

def decodeBoundedMap {K V : Type} [LinearOrder K] (limit : ℕ) (decodeK : Decoder K) (decodeV : Decoder V) :
    Decoder (BoundedBTreeMap K V limit) := fun input => do
  let (m, input) ← decodeMap decodeK decodeV input
  if bounded : m.len ≤ limit then pure (⟨m, bounded⟩, input) else none

theorem decodeBoundedVec_narrows (limit : ℕ) :
    Narrows (decodeBoundedVec limit) decodeVec (Subtype.val : BoundedVec UInt8 limit → Bytes) := by
  intro input value rest read
  simp only [decodeBoundedVec, Option.bind_eq_bind, Option.bind_eq_some_iff, Prod.exists] at read
  obtain ⟨v, middle, plain, checked⟩ := read
  split at checked
  · simp only [Option.pure_def, Option.some.injEq, Prod.mk.injEq] at checked
    obtain ⟨rfl, rfl⟩ := checked
    exact plain
  · cases checked

theorem decodeBoundedMap_narrows {K V : Type} [LinearOrder K] (limit : ℕ) (decodeK : Decoder K)
    (decodeV : Decoder V) :
    Narrows (decodeBoundedMap limit decodeK decodeV) (decodeMap decodeK decodeV)
      BoundedBTreeMap.inner := by
  intro input value rest read
  simp only [decodeBoundedMap, Option.bind_eq_bind, Option.bind_eq_some_iff, Prod.exists] at read
  obtain ⟨m, middle, plain, checked⟩ := read
  split at checked
  · simp only [Option.pure_def, Option.some.injEq, Prod.mk.injEq] at checked
    obtain ⟨rfl, rfl⟩ := checked
    exact plain
  · cases checked

theorem decodeBoundedVec_reads {limit : ℕ} (small : limit < 2 ^ 32) (v : BoundedVec UInt8 limit) :
    Reads (decodeBoundedVec limit) (encodeVec v.1) v := by
  intro rest
  have plain := decodeVec_reads v.1 (Nat.lt_of_le_of_lt v.2 small) rest
  simp only [decodeBoundedVec, plain, Option.bind_eq_bind, Option.bind_some, dif_pos v.2]
  rfl

theorem decodeBoundedMap_reads {K V : Type} [LinearOrder K] {limit : ℕ} {decodeK : Decoder K} {decodeV : Decoder V}
    {bytes : Bytes} (m : BoundedBTreeMap K V limit) (plain : Reads (decodeMap decodeK decodeV) bytes m.inner) :
    Reads (decodeBoundedMap limit decodeK decodeV) bytes m := by
  intro rest
  simp only [decodeBoundedMap, plain rest, Option.bind_eq_bind, Option.bind_some, dif_pos m.bounded]
  rfl

theorem Narrows.trans {α β γ : Type} {narrow : Decoder α} {middle : Decoder β} {wide : Decoder γ}
    {widen : α → β} {further : β → γ} (first : Narrows narrow middle widen)
    (second : Narrows middle wide further) : Narrows narrow wide (further ∘ widen) :=
  fun input value rest read => second _ _ _ (first input value rest read)

end Scale

namespace BoundedBTreeMap

open Scale

variable {keyLimit valueLimit limit : ℕ}

theorem val_strictMono : StrictMono (Subtype.val : BoundedVec UInt8 keyLimit → Bytes) :=
  fun _ _ less => less

def raw (m : BoundedBTreeMap (BoundedVec UInt8 keyLimit) (BoundedVec UInt8 valueLimit) limit) :
    BTreeMap Bytes Bytes :=
  m.inner.mapKeys Subtype.val val_strictMono Subtype.val

theorem raw_len (m : BoundedBTreeMap (BoundedVec UInt8 keyLimit) (BoundedVec UInt8 valueLimit) limit) :
    m.raw.len ≤ limit := by
  simpa only [raw, BTreeMap.mapKeys, BTreeMap.len, List.length_map] using m.bounded

theorem raw_entries
    (m : BoundedBTreeMap (BoundedVec UInt8 keyLimit) (BoundedVec UInt8 valueLimit) limit)
    {entry : Bytes × Bytes} (member : entry ∈ m.raw.entries) :
    entry.1.length ≤ keyLimit ∧ entry.2.length ≤ valueLimit := by
  obtain ⟨stored, -, rfl⟩ := List.mem_map.mp member
  exact ⟨stored.1.2, stored.2.2⟩

theorem encode_raw (m : BoundedBTreeMap (BoundedVec UInt8 keyLimit) (BoundedVec UInt8 valueLimit) limit) :
    encodeMap (fun key => encodeVec key.1) (fun value => encodeVec value.1) m.inner =
      encodeMap encodeVec encodeVec m.raw := by
  simp only [encodeMap, encodeEntries, raw, BTreeMap.mapKeys, BTreeMap.len, List.length_map,
    List.flatMap_map]

def decode (keyLimit valueLimit limit : ℕ) :
    Decoder (BoundedBTreeMap (BoundedVec UInt8 keyLimit) (BoundedVec UInt8 valueLimit) limit) :=
  decodeBoundedMap limit (decodeBoundedVec keyLimit) (decodeBoundedVec valueLimit)

theorem decode_reads (keysFit : keyLimit < 2 ^ 32) (valuesFit : valueLimit < 2 ^ 32) (fits : limit < 2 ^ 32)
    (m : BoundedBTreeMap (BoundedVec UInt8 keyLimit) (BoundedVec UInt8 valueLimit) limit) :
    Reads (decode keyLimit valueLimit limit) (encodeMap encodeVec encodeVec m.raw) m := by
  rw [← encode_raw]
  refine decodeBoundedMap_reads m (decodeMap_reads m.inner (Nat.lt_of_le_of_lt m.bounded fits) fun entry _ => ?_)
  exact ⟨decodeBoundedVec_reads keysFit entry.1, decodeBoundedVec_reads valuesFit entry.2⟩

def narrowEntry (entry : Bytes × Bytes) (within : entry.1.length ≤ keyLimit ∧ entry.2.length ≤ valueLimit) :
    BoundedVec UInt8 keyLimit × BoundedVec UInt8 valueLimit :=
  (⟨entry.1, within.1⟩, ⟨entry.2, within.2⟩)

theorem exists_raw {m : BTreeMap Bytes Bytes} (count : m.len ≤ limit)
    (entries : ∀ entry ∈ m.entries, entry.1.length ≤ keyLimit ∧ entry.2.length ≤ valueLimit) :
    ∃ bounded : BoundedBTreeMap (BoundedVec UInt8 keyLimit) (BoundedVec UInt8 valueLimit) limit, bounded.raw = m := by
  have sorted : (m.entries.pmap narrowEntry entries).Pairwise (fun a b => a.1 < b.1) :=
    (List.pairwise_pmap entries).mpr (m.sorted.imp fun less _ _ => less)
  have same : (m.entries.pmap narrowEntry entries).map (fun entry => (entry.1.1, entry.2.1)) = m.entries := by
    rw [List.map_pmap]
    exact (List.pmap_eq_map entries).trans (List.map_id' _)
  refine ⟨⟨⟨m.entries.pmap narrowEntry entries, sorted⟩, ?_⟩, ?_⟩
  · simpa only [BTreeMap.len, List.length_pmap] using count
  · obtain ⟨_, _⟩ := m
    simp only [raw, BTreeMap.mapKeys, same]

theorem decode_narrows :
    Narrows (decode keyLimit valueLimit limit) (decodeMap decodeVec decodeVec) raw :=
  (decodeBoundedMap_narrows limit _ _).trans
    (Narrows.map val_strictMono (decodeBoundedVec_narrows keyLimit) (decodeBoundedVec_narrows valueLimit))

end BoundedBTreeMap
