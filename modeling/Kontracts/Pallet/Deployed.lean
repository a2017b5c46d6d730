import Kontracts.Guest.Interpreter
import Kontracts.Pallet.EventLog
import Kontracts.Pallet.ExactSizes
import Kontracts.Pallet.Outcomes

namespace KontractsModel.Pallet

open Scale KeyValue KontractsModel.Executor KontractsModel.Guest

section Deployments

variable {Id Account : Type} (node : Node) (cfg : Config Id) (codeId : Id)

def Deploys (kontract : Kontract Unit) : Prop :=
  ∀ code : Code cfg.limits, cfg.hashingAlgorith code.1 = codeId → Compiled node code.1 kontract

def Hashed (s : State cfg.limits Id Account) : Prop :=
  ∀ codeId code, s.codes codeId = some code → cfg.hashingAlgorith code.1 = codeId

variable [DecidableEq Id] [DecidableEq Account]

/-- The limits that an extrinsic declares, if it is a committed execution of the kontract. -/
def budgets (s : State cfg.limits Id Account) (x : Extrinsic cfg.limits Id Account) : List (ℕ × ℕ) :=
  match x.call, (dispatch node cfg s x).1 with
  | .executeCode executedId _ _ reads writes, .ok (.codeExecuted _ _) =>
    if executedId = codeId then [(reads.toNat, writes.toNat)] else []
  | _, _ => []

def commits (s : State cfg.limits Id Account) (x : Extrinsic cfg.limits Id Account) : ℕ :=
  (budgets node cfg codeId s x).length

end Deployments

def again (host : Host) (kontract : Kontract Unit) (table : Table Bytes Value) (budget : ℕ × ℕ) :
    Option (Table Bytes Value) :=
  match kontract.run (serving host) ⟨table, budget.1, budget.2⟩ with
  | .ok (_, box) => some box.table
  | .error _ => none

def failed (error : ExecutionErrors) : Abort := .dispatch (.module (.executionCode error))

section Writing

def writing : Kontract Unit := Kontract.write [] []

def writingCode : List UInt8 := binary [0x41, 0x00, 0x41, 0x00, 0x41, 0x80, 0x02, 0x41, 0x00, 0x10, 0x00]

def writingNode : Node := Interpreter.node [(writingCode, writing)]

theorem writingCode_fits : writingCode.length ≤ localConfig.limits.maxCodeSize.toNat := by decide

def writingRun : List (Extrinsic localConfig.limits Bytes Signer) :=
  [uploading ⟨writingCode, writingCode_fits⟩, executing .alice writingCode 34]

end Writing

end KontractsModel.Pallet

namespace KontractsProof.Pallet

open Scale KeyValue KontractsModel KontractsModel.Executor KontractsModel.Guest KontractsModel.Pallet

section Sizes

theorem entry_size_le {storage : Executor.KontractStorage} {entry : Bytes × Bytes} (member : entry ∈ storage.entries) :
    (encodeVec entry.1).length + (encodeVec entry.2).length ≤ mapSize storage := by
  rw [mapSize_eq]
  exact List.le_sum_of_mem (List.mem_map_of_mem member)

theorem len_le_size (storage : Executor.KontractStorage) : storage.len ≤ mapSize storage := by
  rw [mapSize_eq, BTreeMap.len, entriesSize]
  have each : ∀ size ∈ storage.entries.map
      (fun entry => (encodeVec entry.1).length + (encodeVec entry.2).length), 1 ≤ size := by
    intro size member
    obtain ⟨entry, -, rfl⟩ := List.mem_map.mp member
    have count := Compact.encode_length_pos entry.1.length
    simp only [encodeVec, List.length_append]
    omega
  have total := List.card_nsmul_le_sum _ 1 each
  simpa using total

theorem encodable_of_small {storage : Executor.KontractStorage} (small : mapSize storage < 2 ^ 31) :
    ∃ raw, encodeKontractStorage storage = .ok raw := by
  have count := len_le_size storage
  have lengths : ∀ entry ∈ storage.entries, entry.1.length < 2 ^ 32 ∧ entry.2.length < 2 ^ 32 := by
    intro entry member
    have whole := entry_size_le member
    simp only [encodeVec, List.length_append] at whole
    omega
  exact ⟨_, if_pos ⟨by omega, lengths⟩⟩

end Sizes

section Executions

variable {Id : Type} {node : Node} {cfg : Config Id} {kontract : Kontract Unit} {binary : Code cfg.limits}
  {storage storage' : KontractStorage cfg.limits} {account account' : AccountData} {expected : Int32}
  {fuel reads writes : UInt32}

inductive Ends (node : Node) (cfg : Config Id) (code : Option (Code cfg.limits)) (storage : KontractStorage cfg.limits)
    (account : AccountData) (expected : Int32) (fuel reads writes : UInt32) : Except Failure (Unit × Sandbox) → Prop
  | error (error : ExecutionErrors)
      (stopped : execution node cfg code storage account expected fuel reads writes = .error (failed error)) :
      Ends node cfg code storage account expected fuel reads writes (.error (.error error))
  | hostPanic (panic : Panic)
      (stopped : execution node cfg code storage account expected fuel reads writes =
        .error (.panic panic)) :
      Ends node cfg code storage account expected fuel reads writes (.error .hostPanic)
  | left (final : Executor.KontractStorage) (box : Sandbox) (left : final.get = box.table)
      (leaves : mapSize final < 2 ^ 31 → Leaves node cfg code storage fuel reads writes final) :
      Ends node cfg code storage account expected fuel reads writes (.ok ((), box))

theorem stored_final {final : Executor.KontractStorage}
    (executed : execution node cfg (some binary) storage account expected fuel reads writes =
      .ok (.committed storage' account'))
    (ran : Executor.executeCode node binary.1 (encodeStorage storage) fuel reads writes =
      (encodeKontractStorage final).mapError .panic) : storage'.raw = final := by
  obtain ⟨_, _, _, same, ran', stored, -, -⟩ := execution_stored executed
  cases same
  have encoded := mapError_ok (ran.symm.trans ran')
  exact congrArg Prod.fst (Option.some.inj (stored.whole.symm.trans (encodeKontractStorage_ok encoded).2.2.whole))

theorem committed_kontract (compiled : Compiled node binary.1 kontract)
    (executed : execution node cfg (some binary) storage account expected fuel reads writes =
      .ok (.committed storage' account')) :
    ∃ box, kontract.run (serving node.toHost) ⟨storage.raw.get, reads.toNat, writes.toNat⟩ = .ok ((), box) ∧
      storage'.raw.get = box.table := by
  obtain ⟨_, raw, x, same, ran, -⟩ := execution_stored executed
  cases same
  obtain ⟨needed, executes⟩ := Guest.kontract_executes compiled (storage_readable storage).whole reads writes
  obtain ⟨short, enough⟩ := executes fuel
  by_cases funded : needed ≤ fuel.toNat
  · obtain ⟨final, box, kept, left, encoded⟩ := Guest.returns_ok (enough funded) ran
    have stored := stored_final executed (ran.trans (by rw [encoded]; rfl))
    exact ⟨box, kept, stored ▸ left⟩
  · cases ran.symm.trans (short (by omega))

theorem kontract_execution (compiled : Compiled node binary.1 kontract) {code : Option (Code cfg.limits)}
    (present : code = some binary) (storage : KontractStorage cfg.limits) (reads writes : UInt32) :
    ∃ needed, ∀ (account : AccountData) (fuel : UInt32) (expected : Int32),
      (fuel.toNat < needed → execution node cfg code storage account expected fuel reads writes =
        .error (failed .outOfFuel)) ∧
      (needed ≤ fuel.toNat →
        Ends node cfg code storage account expected fuel reads writes
          (kontract.run (serving node.toHost) ⟨storage.raw.get, reads.toNat, writes.toNat⟩)) := by
  subst present
  obtain ⟨needed, executes⟩ := Guest.kontract_executes compiled (storage_readable storage).whole reads writes
  refine ⟨needed, fun account fuel expected => ⟨fun short => execution_stopped ((executes fuel).1 short), ?_⟩⟩
  intro enough
  have returns := (executes fuel).2 enough
  generalize kontract.run (serving node.toHost) ⟨storage.raw.get, reads.toNat, writes.toNat⟩ = outcome at returns ⊢
  generalize ran : Executor.executeCode node binary.1 (encodeStorage storage) fuel reads writes = result at returns
  cases returns with
  | error error => exact .error error (execution_stopped ran)
  | hostPanic panic => exact .hostPanic panic (execution_stopped ran)
  | ok final box left =>
    refine .left final box left fun small => ?_
    obtain ⟨raw, encoded⟩ := encodable_of_small small
    exact ⟨binary, raw, rfl, by rw [ran, encoded]; rfl, encoded⟩

end Executions

section Steps

variable {Id Account : Type} [DecidableEq Id] [DecidableEq Account] {node : Node} {cfg : Config Id} {codeId : Id}
  {kontract : Kontract Unit} {s s₀ : State cfg.limits Id Account}

theorem executes_stopped {block : ℕ} {who : Account} {expected : Int32} {fuel reads writes : UInt32} {abort : Abort}
    (stopped : execution node cfg (s.codes codeId) (s.storages codeId) (s.accounts who) expected fuel reads writes =
      .error abort) :
    dispatch node cfg s (executes cfg block who codeId fuel reads writes expected) = (.error abort, s) := by
  simp only [dispatch, Extrinsic.run, executes, Pallet.executeCode, ensureSigned, ok_bind, stopped, error_bind]

theorem hashed_step (hashed : Hashed cfg s) (x : Extrinsic cfg.limits Id Account) : Hashed cfg (step node cfg s x) := by
  intro id code stored
  rcases stored_step stored with before | ⟨-, installed⟩
  · exact hashed id code before
  · exact installed

theorem budgets_step (node : Node) (s : State cfg.limits Id Account) (x : Extrinsic cfg.limits Id Account)
    (codeId : Id) :
    budgets node cfg codeId s x = [] ∧ (step node cfg s x).storages codeId = s.storages codeId ∨
      ∃ who expected fuel reads writes account, budgets node cfg codeId s x = [(reads.toNat, writes.toNat)] ∧
        execution node cfg (s.codes codeId) (s.storages codeId) (s.accounts who) expected fuel reads writes =
          .ok (.committed ((step node cfg s x).storages codeId) account) := by
  have taken := dispatched node s x
  unfold budgets
  generalize (dispatch node cfg s x).1 = result at taken ⊢
  generalize step node cfg s x = s' at taken ⊢
  cases taken with
  | aborted =>
    obtain ⟨block, origin, call⟩ := x
    cases call <;> exact .inl ⟨rfl, rfl⟩
  | uploaded | exceeded | deleted | upgraded => left; simp
  | @committed block who executedId expected fuel reads writes storage account executed =>
    by_cases same : executedId = codeId
    · subst same
      refine .inr ⟨who, expected, fuel, reads, writes, account, if_pos rfl, ?_⟩
      simp only [executed, State.depositEvent_storages, State.setStorage, Function.update_self]
    · exact .inl ⟨if_neg same, by simp [State.setStorage, Function.update_of_ne (Ne.symm same)]⟩

theorem kontract_step (deploys : Deploys node cfg codeId kontract) (hashed : Hashed cfg s)
    (x : Extrinsic cfg.limits Id Account) :
    budgets node cfg codeId s x = [] ∧ (step node cfg s x).storages codeId = s.storages codeId ∨
      ∃ reads writes box, budgets node cfg codeId s x = [(reads, writes)] ∧
        kontract.run (serving node.toHost) ⟨(s.storages codeId).raw.get, reads, writes⟩ = .ok ((), box) ∧
        ((step node cfg s x).storages codeId).raw.get = box.table := by
  rcases budgets_step node s x codeId with same | ⟨_, _, _, reads, writes, _, budget, executed⟩
  · exact .inl same
  · obtain ⟨binary, _, _, _, _, present, -⟩ := execution_ok executed
    rw [present] at executed
    obtain ⟨box, ran, left⟩ := committed_kontract (deploys binary (hashed codeId binary present)) executed
    exact .inr ⟨_, _, box, budget, ran, left⟩

/-- The storage of a kontract is its table after running its source once for each committed execution, in
    their order and with the limits that they declared, whatever else the chain runs in between. -/
theorem storage_replays_kontract (deploys : Deploys node cfg codeId kontract) (hashed : Hashed cfg s₀)
    (xs : List (Extrinsic cfg.limits Id Account)) :
    (Runs.collect (step node cfg) (budgets node cfg codeId) s₀ xs).foldlM (again node.toHost kontract)
        (s₀.storages codeId).raw.get =
      some ((Runs.exec (step node cfg) s₀ xs).storages codeId).raw.get := by
  have start : Hashed cfg s₀ ∧ ([] : List (ℕ × ℕ)).foldlM (again node.toHost kontract) (s₀.storages codeId).raw.get =
      some (s₀.storages codeId).raw.get := ⟨hashed, rfl⟩
  refine (Runs.exec_history (fun past (s : State cfg.limits Id Account) => Hashed cfg s ∧
    past.foldlM (again node.toHost kontract) (s₀.storages codeId).raw.get = some (s.storages codeId).raw.get)
    ?_ (Runs.always_of_forall fun _ _ _ => True.intro) start).2
  rintro past s x - ⟨hashed, replayed⟩
  refine ⟨hashed_step hashed x, ?_⟩
  rw [List.foldlM_append, replayed, Option.bind_eq_bind, Option.bind_some]
  rcases kontract_step deploys hashed x with ⟨none, same⟩ | ⟨reads, writes, box, budget, ran, left⟩
  · rw [none, same]
    rfl
  · rw [budget, left]
    simp only [List.foldlM_cons, again, ran, Option.bind_eq_bind, Option.bind_some]
    rfl

theorem kontract_iterates (inv : ℕ → Table Bytes Value → Prop) (deploys : Deploys node cfg codeId kontract)
    (keeps : ∀ n, Program.Ensures (serving node.toHost) (fun box => inv n box.table) kontract
      (fun _ box => inv (n + 1) box.table))
    (hashed : Hashed cfg s₀) {n : ℕ} (start : inv n (s₀.storages codeId).raw.get)
    (xs : List (Extrinsic cfg.limits Id Account)) :
    inv (n + Runs.tally (step node cfg) (commits node cfg codeId) s₀ xs)
      ((Runs.exec (step node cfg) s₀ xs).storages codeId).raw.get := by
  refine (Runs.exec_tally (fun n (s : State cfg.limits Id Account) =>
    Hashed cfg s ∧ inv n (s.storages codeId).raw.get) ?_ xs ⟨hashed, start⟩).2
  rintro n s x ⟨hashed, holds⟩
  refine ⟨hashed_step hashed x, ?_⟩
  unfold commits
  rcases kontract_step deploys hashed x with ⟨none, same⟩ | ⟨reads, writes, box, budget, ran, left⟩
  · rw [none, same]
    exact holds
  · rw [budget, left]
    exact keeps n _ () box holds ran

theorem genesis_hashed (free : ℕ) : Hashed localConfig (genesis free) := fun _ _ stored => by cases stored

theorem writing_deployed : Deploys writingNode localConfig writingCode writing := by
  rintro ⟨code, fits⟩ same
  obtain rfl : code = writingCode := same
  exact Guest.interpreter_compiled (by simp) ⟨⟨Nat.zero_le _, Nat.zero_le _⟩, fun _ => True.intro⟩

theorem writing_replayed :
    (Runs.collect (step writingNode localConfig) (budgets writingNode localConfig writingCode) (genesis 34)
        writingRun).foldlM (again writingNode.toHost writing) emptyTable =
      some ((Runs.exec (step writingNode localConfig) (genesis 34) writingRun).storages writingCode).raw.get :=
  storage_replays_kontract writing_deployed (genesis_hashed 34) writingRun

/-- What a kontract stores under digests that it never changes stays, over every run of the chain. -/
theorem unchanged_kept (deploys : Deploys node cfg codeId kontract) (hashed : Hashed cfg s₀) {digest : Bytes}
    (never : kontract.Calls (fun op => ∀ key, op.changed = some key → node.hashed key ≠ digest))
    (xs : List (Extrinsic cfg.limits Id Account)) :
    ((Runs.exec (step node cfg) s₀ xs).storages codeId).raw.get digest = (s₀.storages codeId).raw.get digest := by
  refine kontract_iterates (fun _ table => table digest = (s₀.storages codeId).raw.get digest) deploys (fun _ => ?_)
    hashed (n := 0) rfl xs
  exact Program.Ensures.invariant never fun op box answer box' other holds served =>
    (Guest.serve_frame other served).trans holds

theorem writing_unchanged :
    ((Runs.exec (step writingNode localConfig) (genesis 34) writingRun).storages writingCode).raw.get
      (writingNode.hashed [1]) = none := by
  refine unchanged_kept writing_deployed (genesis_hashed 34) ⟨fun key changed => ?_, fun _ => True.intro⟩ writingRun
  cases changed
  decide

end Steps

end KontractsProof.Pallet
