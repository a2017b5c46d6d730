import Kontracts.Pallet.Extrinsics

namespace KontractsModel.Pallet

open Scale

/-- The bytes of the encoded entries, without the compact count in front of them. -/
def byteSize {limits : Limits} (storage : KontractStorage limits) : ℕ :=
  (encodeEntries encodeVec encodeVec storage.raw.entries).length

def mapSize (storage : Executor.KontractStorage) : ℕ := (encodeEntries encodeVec encodeVec storage.entries).length

end KontractsModel.Pallet

namespace KontractsProof.Pallet

open Scale KontractsModel.Executor KontractsModel.Pallet

theorem bind_ok {ε α β : Type} {x : Except ε α} {f : α → Except ε β} {b : β}
    (h : (x >>= f) = .ok b) : ∃ a, x = .ok a ∧ f a = .ok b := by
  cases x with
  | error why => cases h
  | ok a => exact ⟨a, rfl, h⟩

theorem bind_error {ε α β : Type} {x : Except ε α} {f : α → Except ε β} {why : ε} (h : (x >>= f) = .error why) :
    x = .error why ∨ ∃ a, x = .ok a ∧ f a = .error why := by
  cases x with
  | error why' => exact .inl (congrArg _ (Except.error.inj h))
  | ok a => exact .inr ⟨a, rfl, h⟩

theorem ok_bind {ε α β : Type} (a : α) (f : α → Except ε β) : (Except.ok a >>= f) = f a := rfl

theorem error_bind {ε α β : Type} (why : ε) (f : α → Except ε β) : (Except.error why >>= f) = .error why := rfl

theorem mapError_ok {ε ε' α : Type} {x : Except ε α} {f : ε → ε'} {a : α}
    (h : x.mapError f = .ok a) : x = .ok a := by
  cases x with
  | error why => cases h
  | ok a => exact congrArg _ (Except.ok.inj h)

/-- Limits under which every storage is smaller than 2^31 bytes. -/
def SizesFit (limits : Limits) : Prop :=
  limits.maxKontracStorageSize.toNat *
    (limits.maxKontracStorageKeySize.toNat + limits.maxKontracStorageValueSize.toNat + 10) < 2 ^ 31

theorem runtimeLimits_fit : SizesFit runtimeLimits := by
  unfold SizesFit
  decide

theorem encodeEntries_length_le (bound : ℕ) {entries : List (Bytes × Bytes)}
    (each : ∀ entry ∈ entries, entry.1.length + entry.2.length + 10 ≤ bound) :
    (encodeEntries encodeVec encodeVec entries).length ≤ entries.length * bound := by
  induction entries with
  | nil => simp [encodeEntries]
  | cons head tail ih =>
    have rest := ih fun entry member => each entry (List.mem_cons_of_mem _ member)
    have first := each head List.mem_cons_self
    have key := encodeVec_length_le head.1
    have value := encodeVec_length_le head.2
    simp only [encodeEntries, List.flatMap_cons, List.length_append, List.length_cons,
      Nat.add_mul, Nat.one_mul] at rest ⊢
    omega

theorem byteSize_lt {limits : Limits} (fits : SizesFit limits) (storage : KontractStorage limits) :
    byteSize storage < 2 ^ 31 := by
  have each : ∀ entry ∈ storage.raw.entries, entry.1.length + entry.2.length + 10 ≤
      limits.maxKontracStorageKeySize.toNat + limits.maxKontracStorageValueSize.toNat + 10 := by
    intro entry member
    have bounds := storage.raw_entries member
    omega
  have total := encodeEntries_length_le _ each
  have count := Nat.mul_le_mul_right
    (limits.maxKontracStorageKeySize.toNat + limits.maxKontracStorageValueSize.toNat + 10) storage.raw_len
  exact Nat.lt_of_le_of_lt (total.trans count) fits

theorem byteSize_empty (limits : Limits) : byteSize (emptyStorage limits) = 0 := rfl

theorem eq_empty_of_byteSize {limits : Limits} {storage : KontractStorage limits}
    (none : byteSize storage = 0) : storage = emptyStorage limits := by
  obtain ⟨⟨entries, sorted⟩, bounded⟩ := storage
  cases entries with
  | nil => rfl
  | cons head tail =>
    have count := Compact.encode_length_pos head.1.1.length
    simp only [byteSize, BoundedBTreeMap.raw, BTreeMap.mapKeys, List.map_cons, encodeEntries, encodeVec,
      List.flatMap_cons, List.length_append] at none
    omega

section Codec

variable {limits : Limits}

theorem storage_readable (storage : KontractStorage limits) :
    Reads decodeKontractStorage (encodeStorage storage) storage.raw := by
  have count : storage.raw.len < 2 ^ 32 :=
    Nat.lt_of_le_of_lt storage.raw_len (UInt32.toNat_lt _)
  rw [encodeStorage, BoundedBTreeMap.encode_raw]
  refine decodeMap_reads storage.raw count fun entry member => ?_
  have bounds := storage.raw_entries member
  exact ⟨decodeVec_reads _ (Nat.lt_of_le_of_lt bounds.1 (UInt32.toNat_lt _)),
    decodeVec_reads _ (Nat.lt_of_le_of_lt bounds.2 (UInt32.toNat_lt _))⟩

theorem encodeKontractStorage_ok {storage : BTreeMap Bytes Bytes} {raw : Bytes}
    (encoded : encodeKontractStorage storage = .ok raw) :
    raw = encodeMap encodeVec encodeVec storage ∧ storage.len < 2 ^ 32 ∧
      Reads decodeKontractStorage raw storage := by
  unfold encodeKontractStorage at encoded
  split at encoded
  · rename_i small
    cases encoded
    exact ⟨rfl, small.1, decodeMap_reads storage small.1 fun entry member =>
      ⟨decodeVec_reads _ (small.2 entry member).1, decodeVec_reads _ (small.2 entry member).2⟩⟩
  · cases encoded

theorem encodeKontractStorage_injective {left right : BTreeMap Bytes Bytes} {raw : Bytes}
    (first : encodeKontractStorage left = .ok raw) (second : encodeKontractStorage right = .ok raw) : left = right := by
  obtain ⟨-, -, leftReads⟩ := encodeKontractStorage_ok first
  obtain ⟨-, -, rightReads⟩ := encodeKontractStorage_ok second
  exact congrArg Prod.fst (Option.some.inj (leftReads.whole.symm.trans rightReads.whole))

theorem decodeStorage_raw {storage : BTreeMap Bytes Bytes} {raw : Bytes} {decoded : KontractStorage limits}
    (reads : Reads decodeKontractStorage raw storage) (accepted : decodeStorage limits raw = some decoded) :
    decoded.raw = storage := by
  unfold decodeStorage at accepted
  obtain ⟨⟨decoded', rest⟩, bounded, rfl⟩ := Option.map_eq_some_iff.mp accepted
  have plain := BoundedBTreeMap.decode_narrows _ _ _ bounded
  have whole := reads.whole
  unfold decodeKontractStorage at whole
  rw [whole] at plain
  exact (congrArg Prod.fst (Option.some.inj plain)).symm

theorem getStorageSize_encoded (storage : BTreeMap Bytes Bytes) (count : storage.len < 2 ^ 32) :
    getStorageSize (encodeMap encodeVec encodeVec storage) =
      .ok (Int32.ofNat (encodeEntries encodeVec encodeVec storage.entries).length) := by
  have header := Compact.reads storage.len count (encodeEntries encodeVec encodeVec storage.entries)
  simp only [getStorageSize, encodeMap, header]

theorem getStorageSize_storage (storage : KontractStorage limits) :
    getStorageSize (encodeStorage storage) = .ok (Int32.ofNat (byteSize storage)) := by
  rw [encodeStorage, BoundedBTreeMap.encode_raw]
  exact getStorageSize_encoded storage.raw (Nat.lt_of_le_of_lt storage.raw_len (UInt32.toNat_lt _))

end Codec

end KontractsProof.Pallet
