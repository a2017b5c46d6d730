import Kontracts.Library.BTreeMap
import Mathlib.Algebra.Group.Nat.Defs

namespace Scale

abbrev Bytes := List UInt8

abbrev Decoder (α : Type) := Bytes → Option (α × Bytes)

def Reads {α : Type} (decode : Decoder α) (bytes : Bytes) (value : α) : Prop :=
  ∀ rest, decode (bytes ++ rest) = some (value, rest)

theorem Reads.whole {α : Type} {decode : Decoder α} {bytes : Bytes} {value : α}
    (reads : Reads decode bytes value) : decode bytes = some (value, []) := by
  simpa using reads []

def littleEndian : ℕ → ℕ → Bytes
  | 0, _ => []
  | width + 1, n => UInt8.ofNat n :: littleEndian width (n / 256)

def fromLittleEndian (bytes : Bytes) : ℕ := bytes.foldr (fun byte acc => byte.toNat + 256 * acc) 0

@[simp] theorem littleEndian_length (width n : ℕ) : (littleEndian width n).length = width := by
  induction width generalizing n with
  | zero => rfl
  | succ width ih => simp [littleEndian, ih]

theorem fromLittleEndian_littleEndian (width n : ℕ) (bound : n < 256 ^ width) :
    fromLittleEndian (littleEndian width n) = n := by
  induction width generalizing n with
  | zero => simp only [Nat.pow_zero, Nat.lt_one_iff] at bound; simp [littleEndian, fromLittleEndian, bound]
  | succ width ih =>
    have quotient : n / 256 < 256 ^ width := by
      rw [Nat.div_lt_iff_lt_mul (by decide), ← Nat.pow_succ]
      exact bound
    have rest := ih (n / 256) quotient
    simp only [fromLittleEndian] at rest ⊢
    simp only [littleEndian, List.foldr_cons, rest, UInt8.toNat_ofNat']
    omega

def takeBytes (count : ℕ) : Decoder Bytes := fun input =>
  if count ≤ input.length then some (input.take count, input.drop count) else none

def uint (width : ℕ) : Decoder ℕ := fun input =>
  (takeBytes width input).map (fun read => (fromLittleEndian read.1, read.2))

theorem takeBytes_reads (bytes : Bytes) : Reads (takeBytes bytes.length) bytes bytes := by
  intro rest
  simp [takeBytes]

theorem uint_reads (width n : ℕ) (bound : n < 256 ^ width) :
    Reads (uint width) (littleEndian width n) n := by
  intro rest
  have read := takeBytes_reads (littleEndian width n) rest
  rw [littleEndian_length] at read
  simp [uint, read, fromLittleEndian_littleEndian width n bound]

namespace Compact

/-- The four modes of a compact `u32`, told apart by the two low bits of the first byte. -/
def encode (n : ℕ) : Bytes :=
  if n < 2 ^ 6 then littleEndian 1 (n * 4)
  else if n < 2 ^ 14 then littleEndian 2 (n * 4 + 1)
  else if n < 2 ^ 30 then littleEndian 4 (n * 4 + 2)
  else 3 :: littleEndian 4 n

/-- A mode is accepted only for the numbers that no shorter mode holds. -/
def atLeast (low : ℕ) (read : ℕ × Bytes) : Option (ℕ × Bytes) :=
  if low ≤ read.1 then some read else none

def decode : Decoder ℕ
  | [] => none
  | first :: rest =>
    match first.toNat % 4 with
    | 0 => some (first.toNat / 4, rest)
    | 1 => (uint 2 (first :: rest)).bind (fun read => atLeast (2 ^ 6) (read.1 / 4, read.2))
    | 2 => (uint 4 (first :: rest)).bind (fun read => atLeast (2 ^ 14) (read.1 / 4, read.2))
    | _ => if first.toNat / 4 = 0 then (uint 4 rest).bind (atLeast (2 ^ 30)) else none

theorem decode_mode (n width mode low : ℕ) (modeBound : mode = 1 ∧ width = 1 ∨ mode = 2 ∧ width = 3)
    (bound : n * 4 + mode < 256 ^ (width + 1)) (rest : Bytes)
    (lowest : low = if mode = 1 then 2 ^ 6 else 2 ^ 14) (above : low ≤ n) :
    decode (littleEndian (width + 1) (n * 4 + mode) ++ rest) = some (n, rest) := by
  have read := uint_reads (width + 1) (n * 4 + mode) bound rest
  have first : (UInt8.ofNat (n * 4 + mode)).toNat % 4 = mode := by
    rw [UInt8.toNat_ofNat']
    omega
  have quotient : (n * 4 + mode) / 4 = n := by omega
  simp only [littleEndian, List.cons_append] at read ⊢
  unfold decode
  rcases modeBound with ⟨rfl, rfl⟩ | ⟨rfl, rfl⟩
  all_goals
    simp only [first, read, Option.bind_some, quotient, atLeast]
    rw [if_pos (by simpa [lowest] using above)]

theorem reads (n : ℕ) (bound : n < 2 ^ 32) : Reads decode (encode n) n := by
  intro rest
  unfold encode
  split
  · rename_i small
    have byte : (UInt8.ofNat (n * 4)).toNat = n * 4 := by
      rw [UInt8.toNat_ofNat', Nat.mod_eq_of_lt (by omega)]
    have mode : n * 4 % 4 = 0 := by omega
    have quotient : n * 4 / 4 = n := by omega
    simp only [littleEndian, List.cons_append, List.nil_append, decode, byte, mode, quotient]
  · split
    · exact decode_mode n 1 1 (2 ^ 6) (.inl ⟨rfl, rfl⟩) (by omega) rest rfl (by omega)
    · split
      · exact decode_mode n 3 2 (2 ^ 14) (.inr ⟨rfl, rfl⟩) (by omega) rest rfl (by omega)
      · have read := uint_reads 4 n (by omega) rest
        have low : 2 ^ 30 ≤ n := by omega
        simp only [List.cons_append, decode, show (3 : UInt8).toNat % 4 = 3 from rfl,
          show (3 : UInt8).toNat / 4 = 0 from rfl, read, Option.bind_some, atLeast, low, ite_true]

theorem encode_length_small (n : ℕ) (bound : n < 2 ^ 6) : (encode n).length = 1 := by
  rw [encode, if_pos bound, littleEndian_length]

theorem encode_length_large (n : ℕ) (bound : 2 ^ 6 ≤ n) : 2 ≤ (encode n).length := by
  unfold encode
  split
  · omega
  · split
    · simp
    · split <;> simp

theorem encode_length_le (n : ℕ) : (encode n).length ≤ 5 := by
  unfold encode
  split
  · simp
  · split
    · simp
    · split <;> simp

theorem encode_length_pos (n : ℕ) : 0 < (encode n).length := by
  by_cases bound : n < 2 ^ 6
  · rw [encode_length_small n bound]; exact Nat.one_pos
  · have large := encode_length_large n (by omega)
    omega

end Compact

def encodeVec (v : Bytes) : Bytes := Compact.encode v.length ++ v

def decodeVec : Decoder Bytes := fun input => do
  let (length, input) ← Compact.decode input
  takeBytes length input

theorem decodeVec_reads (v : Bytes) (bound : v.length < 2 ^ 32) : Reads decodeVec (encodeVec v) v := by
  intro rest
  have header := Compact.reads v.length bound (v ++ rest)
  simp only [encodeVec, List.append_assoc, decodeVec, header]
  exact takeBytes_reads v rest

theorem encodeVec_length_small (v : Bytes) (bound : v.length < 2 ^ 6) :
    (encodeVec v).length = v.length + 1 := by
  rw [encodeVec, List.length_append, Compact.encode_length_small _ bound, Nat.add_comm]

theorem encodeVec_length_large (v : Bytes) (bound : 2 ^ 6 ≤ v.length) :
    v.length + 2 ≤ (encodeVec v).length := by
  have header := Compact.encode_length_large _ bound
  rw [encodeVec, List.length_append]
  omega

theorem encodeVec_length_le (v : Bytes) : (encodeVec v).length ≤ v.length + 5 := by
  have header := Compact.encode_length_le v.length
  rw [encodeVec, List.length_append]
  omega

def decodePair {K V : Type} (decodeK : Decoder K) (decodeV : Decoder V) : Decoder (K × V) :=
  fun input => do
    let (key, input) ← decodeK input
    let (value, input) ← decodeV input
    pure ((key, value), input)

def decodeMany {α : Type} (decode : Decoder α) : ℕ → Decoder (List α)
  | 0 => fun input => some ([], input)
  | count + 1 => fun input => do
    let (head, input) ← decode input
    let (tail, input) ← decodeMany decode count input
    pure (head :: tail, input)

theorem decodeMany_flatMap {α : Type} {decode : Decoder α} {encode : α → Bytes} (values : List α)
    (readable : ∀ value ∈ values, Reads decode (encode value) value) :
    Reads (decodeMany decode values.length) (values.flatMap encode) values := by
  induction values with
  | nil => intro rest; rfl
  | cons head tail ih =>
    intro rest
    have first := readable head List.mem_cons_self
    have remaining := ih fun value member => readable value (List.mem_cons_of_mem _ member)
    simp only [List.flatMap_cons, List.append_assoc, List.length_cons, decodeMany, Option.bind_eq_bind]
    rw [first]
    simp only [Option.bind_some, Option.pure_def]
    rw [remaining]
    rfl

section Maps

variable {K V : Type}

def encodeEntries (encodeK : K → Bytes) (encodeV : V → Bytes) (entries : List (K × V)) : Bytes :=
  entries.flatMap (fun entry => encodeK entry.1 ++ encodeV entry.2)

theorem decodeMany_reads {decodeK : Decoder K} {decodeV : Decoder V} {encodeK : K → Bytes}
    {encodeV : V → Bytes} (entries : List (K × V))
    (readable : ∀ entry ∈ entries,
      Reads decodeK (encodeK entry.1) entry.1 ∧ Reads decodeV (encodeV entry.2) entry.2) :
    Reads (decodeMany (decodePair decodeK decodeV) entries.length)
      (encodeEntries encodeK encodeV entries) entries := by
  induction entries with
  | nil => intro rest; rfl
  | cons head tail ih =>
    intro rest
    obtain ⟨key, value⟩ := readable head List.mem_cons_self
    have remaining := ih fun entry member => readable entry (List.mem_cons_of_mem _ member)
    simp only [encodeEntries, List.flatMap_cons, List.append_assoc, List.length_cons, decodeMany,
      decodePair]
    rw [key]
    simp only [Option.bind_eq_bind, Option.bind_some]
    rw [value]
    simp only [Option.bind_some, Option.pure_def]
    have tailRead := remaining rest
    simp only [encodeEntries] at tailRead
    simp [tailRead]

variable [LinearOrder K]

/-- `BTreeMap` on the wire: the compact count, then the entries in key order. -/
def encodeMap (encodeK : K → Bytes) (encodeV : V → Bytes) (m : BTreeMap K V) : Bytes :=
  Compact.encode m.len ++ encodeEntries encodeK encodeV m.entries

def decodeMap (decodeK : Decoder K) (decodeV : Decoder V) : Decoder (BTreeMap K V) := fun input => do
  let (count, input) ← Compact.decode input
  let (entries, input) ← decodeMany (decodePair decodeK decodeV) count input
  pure (BTreeMap.ofList entries, input)

theorem decodeMap_reads {decodeK : Decoder K} {decodeV : Decoder V} {encodeK : K → Bytes}
    {encodeV : V → Bytes} (m : BTreeMap K V) (count : m.len < 2 ^ 32)
    (readable : ∀ entry ∈ m.entries,
      Reads decodeK (encodeK entry.1) entry.1 ∧ Reads decodeV (encodeV entry.2) entry.2) :
    Reads (decodeMap decodeK decodeV) (encodeMap encodeK encodeV m) m := by
  intro rest
  have header := Compact.reads m.len count
  have body := decodeMany_reads m.entries readable rest
  simp only [encodeMap, List.append_assoc, decodeMap]
  rw [header]
  simp only [Option.bind_eq_bind, Option.bind_some, BTreeMap.len]
  rw [body]
  simp [BTreeMap.ofList_entries]

end Maps

def Narrows {α β : Type} (narrow : Decoder α) (wide : Decoder β) (widen : α → β) : Prop :=
  ∀ input value rest, narrow input = some (value, rest) → wide input = some (widen value, rest)

theorem Narrows.pair {K K' V V' : Type} {narrowK : Decoder K} {wideK : Decoder K'}
    {narrowV : Decoder V} {wideV : Decoder V'} {widenK : K → K'} {widenV : V → V'}
    (keys : Narrows narrowK wideK widenK) (values : Narrows narrowV wideV widenV) :
    Narrows (decodePair narrowK narrowV) (decodePair wideK wideV) (Prod.map widenK widenV) := by
  rintro input ⟨key, value⟩ rest read
  simp only [decodePair, Option.bind_eq_bind, Option.bind_eq_some_iff, Option.pure_def,
    Option.some.injEq, Prod.mk.injEq, Prod.exists] at read
  obtain ⟨_, middle, first, _, _, second, ⟨rfl, rfl⟩, rfl⟩ := read
  simp [decodePair, keys _ _ _ first, values _ _ _ second]

theorem Narrows.many {α β : Type} {narrow : Decoder α} {wide : Decoder β} {widen : α → β}
    (each : Narrows narrow wide widen) (count : ℕ) :
    Narrows (decodeMany narrow count) (decodeMany wide count) (List.map widen) := by
  induction count with
  | zero =>
    intro input value rest read
    simp only [decodeMany, Option.some.injEq, Prod.mk.injEq] at read
    obtain ⟨rfl, rfl⟩ := read
    rfl
  | succ count ih =>
    intro input value rest read
    simp only [decodeMany, Option.bind_eq_bind, Option.bind_eq_some_iff, Option.pure_def,
      Option.some.injEq, Prod.mk.injEq, Prod.exists] at read
    obtain ⟨_, middle, first, _, _, second, rfl, rfl⟩ := read
    simp [decodeMany, each _ _ _ first, ih _ _ _ second]

theorem Narrows.map {K K' V V' : Type} [LinearOrder K] [LinearOrder K'] {narrowK : Decoder K}
    {wideK : Decoder K'} {narrowV : Decoder V} {wideV : Decoder V'} {widenK : K → K'}
    {widenV : V → V'} (increasing : StrictMono widenK) (keys : Narrows narrowK wideK widenK)
    (values : Narrows narrowV wideV widenV) :
    Narrows (decodeMap narrowK narrowV) (decodeMap wideK wideV)
      (BTreeMap.mapKeys widenK increasing widenV) := by
  intro input value rest read
  simp only [decodeMap, Option.bind_eq_bind, Option.bind_eq_some_iff, Option.pure_def,
    Option.some.injEq, Prod.mk.injEq, Prod.exists] at read
  obtain ⟨count, middle, header, entries, _, body, rfl, rfl⟩ := read
  have wideBody := (keys.pair values).many count _ _ _ body
  simp only [decodeMap, header, Option.bind_eq_bind, Option.bind_some, wideBody]
  rw [BTreeMap.mapKeys_ofList]
  rfl

def Consumes {α : Type} (decode : Decoder α) (least : ℕ) : Prop :=
  ∀ input value rest, decode input = some (value, rest) → rest.length + least ≤ input.length

theorem uint_consumes (width : ℕ) : Consumes (uint width) width := by
  intro input value rest read
  unfold uint takeBytes at read
  split at read
  · simp only [Option.map_some, Option.some.injEq, Prod.mk.injEq] at read
    rw [← read.2, List.length_drop]
    omega
  · cases read

theorem Compact.atLeast_rest {low : ℕ} {read read' : ℕ × Bytes} (accepted : atLeast low read = some read') :
    read'.2 = read.2 := by
  unfold atLeast at accepted
  split at accepted
  · cases accepted
    rfl
  · cases accepted

theorem Compact.decode_consumes : Consumes Compact.decode 1 := by
  intro input value rest read
  cases input with
  | nil => cases read
  | cons first tail =>
    simp only [decode, List.length_cons] at read ⊢
    split at read
    · cases read
      exact Nat.le_refl _
    · obtain ⟨both, word, accepted⟩ := Option.bind_eq_some_iff.mp read
      have whole := uint_consumes 2 _ _ _ word
      rw [show rest = both.2 from atLeast_rest accepted]
      simp only [List.length_cons] at whole
      omega
    · obtain ⟨both, word, accepted⟩ := Option.bind_eq_some_iff.mp read
      have whole := uint_consumes 4 _ _ _ word
      rw [show rest = both.2 from atLeast_rest accepted]
      simp only [List.length_cons] at whole
      omega
    · split at read
      · obtain ⟨both, word, accepted⟩ := Option.bind_eq_some_iff.mp read
        have whole := uint_consumes 4 _ _ _ word
        rw [show rest = both.2 from atLeast_rest accepted]
        omega
      · cases read

theorem Consumes.many {α : Type} {decode : Decoder α} {least : ℕ} (each : Consumes decode least) {count : ℕ}
    {input rest : Bytes} {values : List α} (read : decodeMany decode count input = some (values, rest)) :
    values.length = count ∧ rest.length + count * least ≤ input.length := by
  induction count generalizing input values with
  | zero =>
    simp only [decodeMany, Option.some.injEq, Prod.mk.injEq] at read
    obtain ⟨rfl, rfl⟩ := read
    exact ⟨rfl, by omega⟩
  | succ count ih =>
    simp only [decodeMany, Option.bind_eq_bind, Option.bind_eq_some_iff, Option.pure_def,
      Option.some.injEq, Prod.mk.injEq, Prod.exists] at read
    obtain ⟨_, middle, first, _, _, second, rfl, rfl⟩ := read
    have here := each _ _ _ first
    obtain ⟨length, later⟩ := ih second
    refine ⟨by rw [List.length_cons, length], ?_⟩
    rw [Nat.succ_mul]
    omega

end Scale
