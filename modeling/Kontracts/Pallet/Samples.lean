import Kontracts.Guest.WasmTest
import Kontracts.Pallet.Deployed

namespace KontractsModel.Pallet

open Scale KontractsModel.Executor KontractsModel.Guest

def write8BCode : List UInt8 :=
  binary [0x41, 0x00, 0x41, 0x0c, 0x3a, 0x00, 0x00, 0x41, 0x01, 0x41, 0x01, 0x3a, 0x00, 0x00,
    0x41, 0x05, 0x41, 0x02, 0x3a, 0x00, 0x00, 0x41, 0x09, 0x41, 0x03, 0x3a, 0x00, 0x00,
    0x41, 0x80, 0x02, 0x41, 0x0c, 0x3a, 0x00, 0x00, 0x41, 0x81, 0x02, 0x41, 0x04, 0x3a, 0x00, 0x00,
    0x41, 0x85, 0x02, 0x41, 0x05, 0x3a, 0x00, 0x00, 0x41, 0x89, 0x02, 0x41, 0x06, 0x3a, 0x00, 0x00,
    0x41, 0x00, 0x41, 0x0d, 0x41, 0x80, 0x02, 0x41, 0x0d, 0x10, 0x00]

def write8BNode : Node := Interpreter.node [(write8BCode, WasmTest.write8B)]

theorem write8BCode_fits : write8BCode.length ≤ localConfig.limits.maxCodeSize.toNat := by decide +kernel

def write8BRun : List (Extrinsic localConfig.limits Bytes Signer) :=
  [uploading ⟨write8BCode, write8BCode_fits⟩, executing .alice write8BCode 47, executing .bob write8BCode 0]

/-- `collantz_conjecture.rs` in wasm, for the memory layout of the interpreter. -/
def collantzCode : List UInt8 :=
  binary [0x41, 0x00, 0x41, 0x01, 0x36, 0x02, 0x00,
    0x41, 0x00, 0x41, 0x04, 0x41, 0x80, 0x02, 0x41, 0xe4, 0x00, 0x10, 0x01,
    0x41, 0x80, 0x04, 0x41, 0x80, 0x02, 0x2d, 0x00, 0x00, 0x41, 0x10, 0x4f, 0x04, 0x7f,
    0x41, 0x81, 0x02, 0x28, 0x00, 0x00, 0x05, 0x41, 0x05, 0x0b, 0x36, 0x02, 0x00,
    0x41, 0x80, 0x02, 0x41, 0x80, 0x04, 0x28, 0x02, 0x00, 0x41, 0x01, 0x71, 0x04, 0x7f,
    0x41, 0x80, 0x04, 0x28, 0x02, 0x00, 0x41, 0x03, 0x6c, 0x41, 0x01, 0x6a, 0x05,
    0x41, 0x80, 0x04, 0x28, 0x02, 0x00, 0x41, 0x01, 0x76, 0x0b, 0x36, 0x02, 0x00,
    0x41, 0x00, 0x41, 0x04, 0x41, 0x80, 0x02, 0x41, 0x04, 0x10, 0x00]

def collantzNode : Node := Interpreter.node [(collantzCode, WasmTest.collantzConjecture false)]

theorem collantzCode_fits : collantzCode.length ≤ localConfig.limits.maxCodeSize.toNat := by decide +kernel

def collantzRun : List (Extrinsic localConfig.limits Bytes Signer) :=
  [uploading ⟨collantzCode, collantzCode_fits⟩, executing .alice collantzCode 38, executing .bob collantzCode 0]

end KontractsModel.Pallet

namespace KontractsProof.Pallet

open Scale KeyValue KontractsModel KontractsModel.Executor KontractsModel.Guest KontractsModel.Guest.WasmTest
  KontractsModel.Pallet KontractsProof.Guest

section Samples

variable {Id Account : Type} [DecidableEq Id] [DecidableEq Account] {node : Node} {cfg : Config Id} {codeId : Id}
  {s₀ : State cfg.limits Id Account}

/-- However often a sample kontract is executed, and whatever else the chain runs, its storage is either
    untouched or what its writes make of it once. -/
theorem samples_history {sample : Kontract Unit × List (Write Key Value)} (known : sample ∈ samples)
    (deploys : Deploys node cfg codeId sample.1) (hashed : Hashed cfg s₀)
    (xs : List (Extrinsic cfg.limits Id Account)) :
    ((Runs.exec (step node cfg) s₀ xs).storages codeId).raw.get =
      if Runs.tally (step node cfg) (commits node cfg codeId) s₀ xs = 0 then (s₀.storages codeId).raw.get
      else replay (s₀.storages codeId).raw.get (sample.2.map (Write.rename node.hashed)) := by
  have keeps : ∀ n, Program.Ensures (serving node.toHost)
      (fun box => box.table = if n = 0 then (s₀.storages codeId).raw.get
        else replay (s₀.storages codeId).raw.get (sample.2.map (Write.rename node.hashed)))
      sample.1 (fun _ box => box.table =
        replay (s₀.storages codeId).raw.get (sample.2.map (Write.rename node.hashed))) := by
    intro n box _ box' held ran
    rw [samples_write node.toHost known box.table box () box' rfl ran, held]
    split
    · rfl
    · exact replay_idempotent _ _
  have reached := kontract_iterates (fun n table => table = if n = 0 then (s₀.storages codeId).raw.get
    else replay (s₀.storages codeId).raw.get (sample.2.map (Write.rename node.hashed))) deploys keeps hashed
    (n := 0) rfl xs
  rwa [Nat.zero_add] at reached

theorem write8B_compiled : Deploys write8BNode localConfig write8BCode write8B := by
  rintro ⟨code, fits⟩ same
  obtain rfl : code = write8BCode := same
  exact interpreter_compiled (by simp) ⟨⟨by decide, by decide⟩, fun _ => True.intro⟩

theorem write8B_history :
    ((Runs.exec (step write8BNode localConfig) (genesis 47) write8BRun).storages write8BCode).raw.get =
      (Write.set (write8BNode.hashed (encodeVecU32 [1, 2, 3])) (encodeVecU32 [4, 5, 6])).apply emptyTable := by
  have known : (write8B, [Write.set (encodeVecU32 [1, 2, 3]) (encodeVecU32 [4, 5, 6])]) ∈ samples :=
    List.mem_cons_self
  have twice : Runs.tally (step write8BNode localConfig) (commits write8BNode localConfig write8BCode) (genesis 47)
      write8BRun = 2 := by
    decide +kernel
  have held := samples_history known write8B_compiled (genesis_hashed 47) write8BRun
  rw [twice] at held
  exact held

end Samples

section Sizes

theorem entries_single {storage : Executor.KontractStorage} {digest value : Bytes}
    (only : storage.get = (Write.set digest value).apply emptyTable) : storage.entries = [(digest, value)] := by
  have same : storage = BTreeMap.empty.insert digest value := by
    refine BTreeMap.ext_get fun key => ?_
    rw [only, Write.apply_get, BTreeMap.get_insert]
    by_cases here : key = digest
    · exact (if_pos here).trans (if_pos here).symm
    · exact (if_neg here).trans (if_neg here).symm
  rw [same]
  rfl

theorem entries_none {storage : Executor.KontractStorage} (none : storage.get = emptyTable) : storage.entries = [] := by
  have same : storage = BTreeMap.empty := BTreeMap.ext_get fun key => congrFun none key
  rw [same]
  rfl

def collantzSize (count : ℕ) : ℕ := if count = 0 then 0 else 38

theorem collantz_size {storage : Executor.KontractStorage} {digest : Bytes} (length : digest.length = 32) {count : ℕ}
    (held : storage.get = collantzTable digest count) : mapSize storage = collantzSize count := by
  cases count with
  | zero =>
    simp only [mapSize, entries_none held]
    rfl
  | succ count =>
    simp only [mapSize, entries_single held, encodeEntries, List.flatMap_cons, List.flatMap_nil, List.append_nil,
      List.length_append, collantzSize, Nat.succ_ne_zero, if_false]
    rw [encodeVec_length_small _ (by omega), encodeVec_length_small _ (by rw [encodeU32, littleEndian_length]; omega),
      length, encodeU32, littleEndian_length]

end Sizes

section Settlements

variable {Id : Type} {cfg : Config Id}

end Settlements

section Runs

variable {Id Account : Type} [DecidableEq Id] [DecidableEq Account] {node : Node} {cfg : Config Id} {codeId : Id}
  {overflowChecks : Bool} {s₀ : State cfg.limits Id Account}

theorem collantz_keeps (host : Host) (overflowChecks : Bool) (count : ℕ) :
    Program.Ensures (serving host) (fun box => box.table = collantzTable (host.hashed (encodeU32 1)) count)
      (collantzConjecture overflowChecks)
      (fun _ box => box.table = collantzTable (host.hashed (encodeU32 1)) (count + 1)) := by
  rintro ⟨table, reads, writes⟩ _ box held ran
  simp only at held
  rw [held, collantz_run] at ran
  cases reads with
  | zero => cases ran
  | succ reads =>
    cases writes with
    | zero => cases ran
    | succ writes =>
      cases ran
      rfl

theorem collantz_reached (deploys : Deploys node cfg codeId (collantzConjecture overflowChecks))
    (hashed : Hashed cfg s₀) (empty : s₀.storages codeId = emptyStorage cfg.limits)
    (xs : List (Extrinsic cfg.limits Id Account)) :
    ((Runs.exec (step node cfg) s₀ xs).storages codeId).raw.get =
      collantzTable (node.hashed (encodeU32 1)) (Runs.tally (step node cfg) (commits node cfg codeId) s₀ xs) := by
  have start : (s₀.storages codeId).raw.get = collantzTable (node.hashed (encodeU32 1)) 0 := by
    rw [empty]
    rfl
  have reached := kontract_iterates (fun count table => table = collantzTable _ count) deploys
    (collantz_keeps node.toHost overflowChecks) hashed start xs
  rwa [Nat.zero_add] at reached

/-- However calls are interleaved and whoever makes them, the storage of the Collatz kontract is the number
    of its committed executions, in 38 bytes. -/
theorem collantz_history (deploys : Deploys node cfg codeId (collantzConjecture overflowChecks))
    (hashed : Hashed cfg s₀) (empty : s₀.storages codeId = emptyStorage cfg.limits)
    (xs : List (Extrinsic cfg.limits Id Account)) :
    let count := Runs.tally (step node cfg) (commits node cfg codeId) s₀ xs
    let storage := (Runs.exec (step node cfg) s₀ xs).storages codeId
    byteSize storage = (if count = 0 then 0 else 38) ∧ ∀ key, storage.raw.get key =
      if count ≠ 0 ∧ key = node.hashed (encodeU32 1) then some (encodeU32 (UInt32.ofNat (nextCollantz^[count] 5)))
      else none := by
  intro count storage
  have reached : storage.raw.get = collantzTable (node.hashed (encodeU32 1)) count :=
    collantz_reached deploys hashed empty xs
  refine ⟨collantz_size (node.blake2 _).2 reached, fun key => ?_⟩
  rw [reached]
  cases count with
  | zero => rfl
  | succ count =>
    rw [collantzTable, Write.apply_get]
    simp only [Write.key, Write.value, collantzNumber, ne_eq, Nat.succ_ne_zero, not_false_eq_true, true_and]
    rfl

end Runs

section Chain

theorem local_room {count length : ℕ} (few : count ≤ localConfig.limits.maxKontracStorageSize.toNat)
    (short : length ≤ localConfig.limits.maxKontracStorageValueSize.toNat) :
    HasRoom localConfig.limits count length :=
  ⟨few, by decide, short⟩

theorem collantz_short (overflowChecks : Bool) : (collantzConjecture overflowChecks).Calls Operation.Short := by
  have word : ∀ n, (encodeU32 n).length = 4 := fun n => littleEndian_length 4 n.toNat
  refine collantz_calls overflowChecks ?_ fun res => ⟨?_, ?_⟩
  · change (encodeU32 1).length ≤ 256
    rw [word]
    decide
  · rw [word]
    decide
  · rw [word]
    decide

theorem collantz_compiled : Deploys collantzNode localConfig collantzCode (collantzConjecture false) := by
  rintro ⟨code, fits⟩ same
  obtain rfl : code = collantzCode := same
  exact interpreter_compiled (by simp) (collantz_short false)

theorem collantz_counted :
    Runs.tally (step collantzNode localConfig) (commits collantzNode localConfig collantzCode) (genesis 38)
      collantzRun = 2 := by
  decide +kernel

theorem collantz_held_twice :
    let storage := (Runs.exec (step collantzNode localConfig) (genesis 38) collantzRun).storages collantzCode
    byteSize storage = 38 ∧ storage.raw.get (collantzNode.hashed (encodeU32 1)) = some (encodeU32 8) := by
  have held := collantz_history collantz_compiled (genesis_hashed 38) rfl collantzRun
  rw [collantz_counted] at held
  exact ⟨held.1, held.2 _⟩

end Chain

end KontractsProof.Pallet
