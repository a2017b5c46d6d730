import Kontracts.Guest.Interpreter

namespace KontractsModel.Guest

open Scale KeyValue KontractsModel.Executor

def encodeU32 (n : UInt32) : Bytes := littleEndian 4 n.toNat

def decodeU32 : Decoder UInt32 := fun input => (uint 4 input).map (fun read => (UInt32.ofNat read.1, read.2))

def encodeVecU32 (v : List UInt32) : Bytes := Compact.encode v.length ++ v.flatMap encodeU32

def decodeVecU32 : Decoder (List UInt32) := fun input => do
  let (length, input) ← Compact.decode input
  decodeMany decodeU32 length input

/-- `Decode::decode` of a whole slice, which may go on behind the value. -/
def decodeSlice {A : Type} (decode : Decoder A) (bytes : Bytes) : Option A := (decode bytes).map Prod.fst

def exactU32 (overflowChecks : Bool) (exact : ℕ) : Kontract UInt32 :=
  if exact < 2 ^ 32 ∨ overflowChecks = false then .done (UInt32.ofNat exact) else .fail

namespace WasmTest

def collantzConjecture (overflowChecks : Bool) : Kontract Unit := do
  let key : UInt32 := 1
  let val := (decodeSlice decodeU32 (← Kontract.read (encodeU32 key))).getD 5
  let res ← (if val % 2 = 0 then .done (val / 2)
    else do
      let tripled ← exactU32 overflowChecks (val.toNat * 3)
      exactU32 overflowChecks (tripled.toNat + 1))
  Kontract.write (encodeU32 key) (encodeU32 res)

def delete : Kontract Unit := do
  let key : List UInt32 := [1, 2, 3]
  Kontract.delete (encodeVecU32 key)

def emptyExecution : Kontract Unit := .done ()

def panic : Kontract Unit := .fail

def read : Kontract Unit := do
  let key : List UInt32 := [1, 2, 3]
  let value ← Kontract.expect (decodeSlice decodeVecU32 (← Kontract.read (encodeVecU32 key)))
  let expectedValue : List UInt32 := [4, 5, 6]
  if expectedValue = value then .done () else .fail

def write8B : Kontract Unit := do
  let key : List UInt32 := [1, 2, 3]
  let value : List UInt32 := [4, 5, 6]
  Kontract.write (encodeVecU32 key) (encodeVecU32 value)

def writeAndRead16B : Kontract Unit := do
  let key : List UInt32 := [1, 2, 3]
  let value : List UInt32 := [4, 5, 6]
  Kontract.write (encodeVecU32 key) (encodeVecU32 value)
  let readValue ← Kontract.expect (decodeSlice decodeVecU32 (← Kontract.read (encodeVecU32 key)))
  let key2 : List UInt32 := [4, 5, 6]
  Kontract.write (encodeVecU32 key2) (encodeVecU32 readValue)

def nextCollantz (val : ℕ) : ℕ := if val % 2 = 0 then val / 2 else val * 3 + 1

/-- The `collantz_numbers` of the test, from the 5 they start with. -/
def collantzNumber (count : ℕ) : ℕ := nextCollantz^[count] 5

def collantzTable (digest : Bytes) : ℕ → Table Bytes Value
  | 0 => emptyTable
  | count + 1 => (Write.set digest (encodeU32 (UInt32.ofNat (collantzNumber (count + 1))))).apply emptyTable

def samples : List (Kontract Unit × List (Write Key Value)) :=
  let first := encodeVecU32 [1, 2, 3]
  let second := encodeVecU32 [4, 5, 6]
  [(write8B, [.set first second]), (delete, [.remove first]), (read, []), (panic, []), (emptyExecution, []),
    (writeAndRead16B, [.set first second, .set second second])]

end WasmTest

end KontractsModel.Guest

namespace KontractsProof.Guest

open Scale KeyValue KontractsModel KontractsModel.Executor KontractsModel.Guest KontractsModel.Guest.WasmTest

section Codec

theorem decodeU32_reads (n : UInt32) : Reads decodeU32 (encodeU32 n) n := by
  intro rest
  have read := uint_reads 4 n.toNat n.toNat_lt rest
  simp only [decodeU32, encodeU32, read, Option.map_some, UInt32.ofNat_toNat]

theorem decodeVecU32_reads (v : List UInt32) (bound : v.length < 2 ^ 32) :
    Reads decodeVecU32 (encodeVecU32 v) v := by
  intro rest
  have header := Compact.reads v.length bound (v.flatMap encodeU32 ++ rest)
  have body := decodeMany_flatMap v (fun n _ => decodeU32_reads n) rest
  simp only [encodeVecU32, List.append_assoc, decodeVecU32, header]
  exact body

end Codec

section Collantz

theorem nextCollantz_small {val : ℕ} (small : val ∈ [5, 16, 8, 4, 2, 1]) : nextCollantz val ∈ [5, 16, 8, 4, 2, 1] := by
  revert val
  decide

theorem collantzNumber_succ (count : ℕ) : collantzNumber (count + 1) = nextCollantz (collantzNumber count) :=
  Function.iterate_succ_apply' nextCollantz count 5

/-- From 5 the numbers fall into the cycle of 4, 2 and 1, so nothing ever overflows. -/
theorem collantzNumber_small (count : ℕ) : collantzNumber count ∈ [5, 16, 8, 4, 2, 1] := by
  induction count with
  | zero => exact List.mem_cons_self
  | succ count ih =>
    rw [collantzNumber_succ]
    exact nextCollantz_small ih

theorem collantz_result (overflowChecks : Bool) {val : ℕ} (small : val ∈ [5, 16, 8, 4, 2, 1]) :
    (if UInt32.ofNat val % 2 = 0 then .done (UInt32.ofNat val / 2)
      else do
        let tripled ← exactU32 overflowChecks ((UInt32.ofNat val).toNat * 3)
        exactU32 overflowChecks (tripled.toNat + 1)) =
      (.done (UInt32.ofNat (nextCollantz val)) : Kontract UInt32) := by
  simp only [List.mem_cons, List.not_mem_nil, or_false] at small
  rcases small with rfl | rfl | rfl | rfl | rfl | rfl <;> rfl

theorem collantz_held (digest : Bytes) (count : ℕ) :
    ((collantzTable digest count digest).getD []).length < 64 ∧
      (decodeSlice decodeU32 ((collantzTable digest count digest).getD [])).getD 5 =
        UInt32.ofNat (collantzNumber count) := by
  cases count with
  | zero => exact ⟨Nat.zero_lt_succ 63, rfl⟩
  | succ count =>
    rw [collantzTable, Write.apply_get]
    simp only [Write.key, Write.value, if_true, Option.getD_some]
    refine ⟨?_, ?_⟩
    · rw [encodeU32, littleEndian_length]
      decide
    · rw [decodeSlice, (decodeU32_reads _).whole]
      rfl

theorem collantz_overwritten (digest value : Bytes) (count : ℕ) :
    (Write.set digest value).apply (collantzTable digest count) = (Write.set digest value).apply emptyTable := by
  cases count with
  | zero => rfl
  | succ count => exact Function.update_idem _ _ _

theorem collantz_run (host : Host) (overflowChecks : Bool) (count reads writes : ℕ) :
    (collantzConjecture overflowChecks).run (serving host)
        ⟨collantzTable (host.hashed (encodeU32 1)) count, reads, writes⟩ =
      match reads, writes with
      | 0, _ => .error (.error .outOfReads)
      | _ + 1, 0 => .error (.error .outOfWrites)
      | reads + 1, writes + 1 => .ok ((), ⟨collantzTable (host.hashed (encodeU32 1)) (count + 1), reads, writes⟩) := by
  obtain ⟨short, held⟩ := collantz_held (host.hashed (encodeU32 1)) count
  cases reads with
  | zero => rfl
  | succ reads =>
    have next := collantz_result overflowChecks (collantzNumber_small count)
    simp only [collantzConjecture, Kontract.read, Kontract.write, Program.call_bind, Program.done_bind, Program.run,
      Operation.serve, received_iff.mpr ⟨rfl, short⟩, held, next, Sandbox.commit]
    cases writes with
    | zero => rfl
    | succ writes =>
      simp only [collantz_overwritten]
      rw [collantzTable, collantzNumber_succ]

theorem collantz_calls {allowed : Operation → Prop} (overflowChecks : Bool) (read : allowed (.read (encodeU32 1)))
    (write : ∀ res, allowed (.write (encodeU32 1) (encodeU32 res))) :
    (collantzConjecture overflowChecks).Calls allowed := by
  have exact : ∀ n, (exactU32 overflowChecks n).Calls allowed := fun n => by
    unfold exactU32
    split <;> exact True.intro
  have fetched : (Kontract.read (encodeU32 1)).Calls allowed := ⟨read, fun _ => True.intro⟩
  have stored : ∀ res, (Kontract.write (encodeU32 1) (encodeU32 res)).Calls allowed :=
    fun res => ⟨write res, fun _ => True.intro⟩
  refine Program.Calls.bind fetched fun value => Program.Calls.bind ?_ stored
  split
  · exact True.intro
  · exact Program.Calls.bind (exact _) fun _ => exact _

end Collantz

section Samples

theorem decodeSlice_encoded {A : Type} {decode : Decoder A} {bytes : Bytes} {a : A} (reads : Reads decode bytes a) :
    decodeSlice decode bytes = some a := by
  rw [decodeSlice, reads.whole]
  rfl

theorem writeAndRead16B_ensures (host : Host) (table : Table Bytes Value) :
    Program.Ensures (serving host) (fun box => box.table = table) writeAndRead16B
      (fun _ box => box.table = replay table
        [.set (host.hashed (encodeVecU32 [1, 2, 3])) (encodeVecU32 [4, 5, 6]),
          .set (host.hashed (encodeVecU32 [4, 5, 6])) (encodeVecU32 [4, 5, 6])]) := by
  refine Program.Ensures.bind _ (write_ensures host _ _ table) fun _ => ?_
  refine Program.Ensures.bind _ (read_ensures host _ _) fun value => ?_
  refine Program.Ensures.bind _ (expect_ensures host _ _) fun readValue => ?_
  rintro box _ box' ⟨⟨held, rfl⟩, decoded⟩ ran
  have stored : (Write.set (host.hashed (encodeVecU32 [1, 2, 3])) (encodeVecU32 [4, 5, 6])).apply table
      (host.hashed (encodeVecU32 [1, 2, 3])) = some (encodeVecU32 [4, 5, 6]) :=
    (Write.apply_get table _ _).trans (if_pos rfl)
  rw [stored] at decoded
  have same : readValue = [4, 5, 6] :=
    Option.some.inj (decoded.symm.trans (decodeSlice_encoded (decodeVecU32_reads _ (by decide))))
  subst same
  exact write_ensures host _ _ _ box () box' held ran

theorem read_sample_ensures (host : Host) (table : Table Bytes Value) :
    Program.Ensures (serving host) (fun box => box.table = table) WasmTest.read (fun _ box => box.table = table) := by
  refine Program.Ensures.bind _ (read_ensures host _ _) fun value => ?_
  refine Program.Ensures.bind _ (expect_ensures host _ _) fun readValue => ?_
  rintro box _ box' ⟨⟨held, -⟩, -⟩ ran
  change (if [4, 5, 6] = readValue then .done () else .fail : Kontract Unit).run (serving host) box = _ at ran
  split at ran
  · cases ran
    exact held
  · cases ran

/-- A run of a sample that returns has made its writes, and those only. -/
theorem samples_write (host : Host) {sample : Kontract Unit × List (Write Key Value)} (known : sample ∈ samples)
    (table : Table Bytes Value) :
    Program.Ensures (serving host) (fun box => box.table = table) sample.1
      (fun _ box => box.table = replay table (sample.2.map (Write.rename host.hashed))) := by
  rintro ⟨_, reads, writes⟩ _ box rfl ran
  simp only [samples, List.mem_cons, List.not_mem_nil, or_false] at known
  rcases known with rfl | rfl | rfl | rfl | rfl | rfl
  · exact write_ensures host _ _ _ _ _ _ rfl ran
  · exact delete_ensures host _ _ _ _ _ rfl ran
  · exact read_sample_ensures host _ _ _ _ rfl ran
  · cases ran
  · cases ran
    rfl
  · exact writeAndRead16B_ensures host _ _ _ _ rfl ran

end Samples

end KontractsProof.Guest
