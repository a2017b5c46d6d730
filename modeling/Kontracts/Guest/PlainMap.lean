import Kontracts.Guest.WasmTest
import Mathlib.Data.Finset.Card

namespace KontractsModel.Guest

open Scale KeyValue KontractsModel.Executor

def Operation.mean : (op : Operation) → Sandbox → Except Failure (op.Answer × Sandbox)
  | .write key value, box => box.commit (.set key value)
  | .read key, box =>
    match box.reads with
    | 0 => .error (.error .outOfReads)
    | reads + 1 => .ok ((box.table key).getD [], { box with reads := reads })
  | .delete key, box => box.commit (.remove key)

abbrev meaning : Program.Handler Operation Operation.Answer Sandbox Failure := ⟨Operation.mean, .error .wasmPanic⟩

def Operation.Within (keys : Finset Key) : Operation → Prop
  | .write key value => key ∈ keys ∧ value.length < 2 ^ 6
  | .read key | .delete key => key ∈ keys

def Operation.Brief : (op : Operation) → op.Answer → Prop
  | .read _, value => value.length < 2 ^ 6
  | .write .., _ | .delete _, _ => True

/-- A kontract that uses these keys only and writes short values, as long as it reads short values. -/
abbrev Careful (keys : Finset Key) (kontract : Kontract Unit) : Prop :=
  kontract.CallsWhile (Operation.Within keys) Operation.Brief

end KontractsModel.Guest

namespace KontractsProof.Guest

open Scale KeyValue KontractsModel KontractsModel.Executor KontractsModel.Guest KontractsModel.Guest.WasmTest

section Mirrors

/-- What a host stores for a map: short values under the digests of these keys, and nothing else. -/
structure Mirrors (host : Host) (keys : Finset Key) (table : Table Bytes Value) (map : Table Key Value) : Prop where
  short : ∀ digest value, table digest = some value → value.length < 2 ^ 6
  digests : ∀ digest value, table digest = some value → ∃ key ∈ keys, host.hashed key = digest
  same : ∀ key ∈ keys, table (host.hashed key) = map key

structure Mirrored (host : Host) (keys : Finset Key) (box plain : Sandbox) : Prop where
  mirrors : Mirrors host keys box.table plain.table
  reads : box.reads = plain.reads
  writes : box.writes = plain.writes

variable {host : Host} {keys : Finset Key} {table : Table Bytes Value} {map : Table Key Value}

theorem Mirrors.empty (host : Host) (keys : Finset Key) : Mirrors host keys emptyTable emptyTable where
  short _ _ stored := by cases stored
  digests _ _ stored := by cases stored
  same _ _ := rfl

theorem Mirrors.brief (mirrors : Mirrors host keys table map) (digest : Bytes) :
    ((table digest).getD []).length < 2 ^ 6 := by
  cases stored : table digest with
  | none => exact Nat.zero_lt_succ 63
  | some value => exact mirrors.short digest value stored

theorem Mirrors.apply (mirrors : Mirrors host keys table map) (distinct : Set.InjOn host.hashed keys)
    {write : Write Key Value} (used : write.key ∈ keys)
    (short : ∀ value, write.value = some value → value.length < 2 ^ 6) :
    Mirrors host keys ((write.rename host.hashed).apply table) (write.apply map) where
  short digest value stored := by
    rw [Write.apply_get, Write.rename_value] at stored
    split at stored
    · exact short value stored
    · exact mirrors.short digest value stored
  digests digest value stored := by
    rw [Write.apply_get, Write.rename_key] at stored
    split at stored
    · rename_i here
      exact ⟨write.key, used, here.symm⟩
    · exact mirrors.digests digest value stored
  same key member := by
    rw [Write.apply_get, Write.apply_get, Write.rename_key, Write.rename_value, mirrors.same key member]
    by_cases here : key = write.key
    · rw [here, if_pos rfl, if_pos rfl]
    · have apart : host.hashed key ≠ host.hashed write.key := fun same => here (distinct member used same)
      rw [if_neg here, if_neg apart]

theorem Mirrored.commit {box plain : Sandbox} (mirrored : Mirrored host keys box plain)
    (distinct : Set.InjOn host.hashed keys) (write : Write Key Value) (used : write.key ∈ keys)
    (short : ∀ value, write.value = some value → value.length < 2 ^ 6) :
    Program.Alike (Mirrored host keys) Eq (box.commit (write.rename host.hashed)) (plain.commit write) := by
  unfold Sandbox.commit
  rw [mirrored.writes]
  cases plain.writes with
  | zero => exact .error rfl
  | succ writes => exact .ok ⟨mirrored.mirrors.apply distinct used short, mirrored.reads, rfl⟩

theorem serving_means (distinct : Set.InjOn host.hashed keys) :
    Program.Simulates (serving host) meaning (Operation.Within keys) Operation.Brief (fun _ => Mirrored host keys)
      Eq where
  failure := rfl
  expect := by
    intro _ op box plain answer box' _ mirrored served
    cases op with
    | write | delete => exact True.intro
    | read key =>
      rw [(serve_read_ok served).2]
      exact mirrored.mirrors.brief _
  answer := by
    intro _ op box plain within mirrored
    cases op with
    | write key value =>
      refine mirrored.commit distinct (.set key value) within.1 fun _ same => ?_
      cases same
      exact within.2
    | delete key => exact mirrored.commit distinct (.remove key) within fun _ same => by cases same
    | read key =>
      have held := mirrored.mirrors.same key within
      have brief := mirrored.mirrors.brief (host.hashed key)
      rw [held] at brief
      simp only [Operation.serve, Operation.mean, mirrored.reads, held, received_iff.mpr ⟨rfl, brief⟩]
      cases plain.reads with
      | zero => exact .error rfl
      | succ reads => exact .ok ⟨mirrored.mirrors, rfl, mirrored.writes⟩

/-- On what a host stores for a map, a careful kontract does what it is meant to do on the map. -/
theorem careful_run (distinct : Set.InjOn host.hashed keys) {kontract : Kontract Unit} (careful : Careful keys kontract)
    (mirrors : Mirrors host keys table map) (reads writes : ℕ) :
    Program.Alike (Mirrored host keys) Eq (kontract.run (serving host) ⟨table, reads, writes⟩)
      (kontract.run meaning ⟨map, reads, writes⟩) := by
  have start : Mirrored host keys ⟨table, reads, writes⟩ ⟨map, reads, writes⟩ := ⟨mirrors, rfl, rfl⟩
  have alike := (serving_means distinct).run careful start (Nat.le_refl _)
  generalize kontract.run (serving host) _ = outcome at alike ⊢
  generalize kontract.run meaning _ = meant at alike ⊢
  cases alike with
  | error same => exact .error same
  | ok still =>
    obtain ⟨-, mirrored⟩ := still
    exact .ok mirrored

theorem meaning_error {kontract : Kontract Unit} {box : Sandbox} {why : Failure}
    (failed : kontract.run meaning box = .error why) :
    why ∈ [.error .outOfReads, .error .outOfWrites, .error .wasmPanic] := by
  refine Program.run_error (· ∈ [.error .outOfReads, .error .outOfWrites, .error .wasmPanic]) ?_
    (by decide) failed
  intro op box why failed
  cases op with
  | write | delete =>
    simp only [Operation.mean, Sandbox.commit] at failed
    split at failed <;> cases failed
    decide
  | read key =>
    simp only [Operation.mean] at failed
    split at failed <;> cases failed
    decide

end Mirrors

section Samples

theorem encodeVecU32_length (v : List UInt32) :
    (encodeVecU32 v).length = (Compact.encode v.length).length + 4 * v.length := by
  have words : (v.flatMap encodeU32).length = 4 * v.length := by
    induction v with
    | nil => rfl
    | cons head tail ih =>
      rw [List.flatMap_cons, List.length_append, ih, List.length_cons, encodeU32, littleEndian_length]
      omega
  rw [encodeVecU32, List.length_append, words]

theorem decodeU32_consumes : Consumes decodeU32 4 := by
  intro input value rest read
  obtain ⟨⟨n, rest'⟩, word, same⟩ := Option.map_eq_some_iff.mp read
  cases same
  exact uint_consumes 4 input n rest' word

theorem decoded_brief {answer : Value} {v : List UInt32} (brief : answer.length < 2 ^ 6)
    (decoded : decodeSlice decodeVecU32 answer = some v) : (encodeVecU32 v).length < 2 ^ 6 := by
  obtain ⟨⟨v', rest⟩, read, same⟩ := Option.map_eq_some_iff.mp decoded
  obtain rfl : v' = v := same
  simp only [decodeVecU32, Option.bind_eq_bind, Option.bind_eq_some_iff, Prod.exists] at read
  obtain ⟨count, middle, header, body⟩ := read
  have first := Compact.decode_consumes _ _ _ header
  obtain ⟨length, later⟩ := decodeU32_consumes.many body
  rw [encodeVecU32_length, Compact.encode_length_small _ (by omega)]
  omega

abbrev sampleKeys : Finset Key := {encodeVecU32 [1, 2, 3], encodeVecU32 [4, 5, 6]}

theorem samples_careful {sample : Kontract Unit × List (Write Key Value)} (known : sample ∈ samples) :
    Careful sampleKeys sample.1 := by
  have key : encodeVecU32 [1, 2, 3] ∈ sampleKeys := by decide
  have key2 : encodeVecU32 [4, 5, 6] ∈ sampleKeys := by decide
  have value : (encodeVecU32 [4, 5, 6]).length < 2 ^ 6 := by decide
  simp only [samples, List.mem_cons, List.not_mem_nil, or_false] at known
  rcases known with rfl | rfl | rfl | rfl | rfl | rfl
  · exact ⟨⟨key, value⟩, fun _ _ => True.intro⟩
  · exact ⟨key, fun _ _ => True.intro⟩
  · refine ⟨key, fun answer brief => ?_⟩
    change (Kontract.expect (decodeSlice decodeVecU32 answer) >>= fun value =>
      if [4, 5, 6] = value then .done () else .fail).CallsWhile _ _
    cases decodeSlice decodeVecU32 answer with
    | none => exact True.intro
    | some value =>
      change (if [4, 5, 6] = value then .done () else .fail : Kontract Unit).CallsWhile _ _
      split <;> exact True.intro
  · exact True.intro
  · exact True.intro
  · refine ⟨⟨key, value⟩, fun _ _ => ⟨key, fun answer brief => ?_⟩⟩
    change (Kontract.expect (decodeSlice decodeVecU32 answer) >>= fun readValue =>
      Kontract.write (encodeVecU32 [4, 5, 6]) (encodeVecU32 readValue)).CallsWhile _ _
    cases decoded : decodeSlice decodeVecU32 answer with
    | none => exact True.intro
    | some readValue => exact ⟨⟨key2, decoded_brief brief decoded⟩, fun _ _ => True.intro⟩

theorem collantz_careful (overflowChecks : Bool) : Careful {encodeU32 1} (collantzConjecture overflowChecks) := by
  have key : encodeU32 1 ∈ ({encodeU32 1} : Finset Key) := Finset.mem_singleton_self _
  have calls : (collantzConjecture overflowChecks).Calls (Operation.Within {encodeU32 1}) := by
    refine collantz_calls overflowChecks key fun res => ⟨key, ?_⟩
    rw [encodeU32, littleEndian_length]
    decide
  exact .of_calls calls _

end Samples

end KontractsProof.Guest
