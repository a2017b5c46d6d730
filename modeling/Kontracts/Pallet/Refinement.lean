import Kontracts.Executor.RawKeys
import Kontracts.Pallet.Deposits

namespace KontractsModel.Pallet

open Scale KeyValue KontractsModel.Executor

section Histories

variable {Id Account : Type} [DecidableEq Id] [DecidableEq Account] (node : Node) (cfg : Config Id)

def executionTrace (s : State cfg.limits Id Account) (x : Extrinsic cfg.limits Id Account) : List HostEvent :=
  match x.origin, x.call with
  | .signed _, .executeCode codeId _ fuel expectedRead expectedWrite =>
    match s.codes codeId with
    | some code => hostTrace node code.1 (encodeStorage (s.storages codeId)) fuel expectedRead expectedWrite
    | none => []
  | _, _ => []

def committedWrites (codeId : Id) (s : State cfg.limits Id Account) (x : Extrinsic cfg.limits Id Account) :
    List (Write Key Value) :=
  match (dispatch node cfg s x).1 with
  | .ok (.codeExecuted executedId _) =>
    if executedId = codeId then writesOf (executionTrace node cfg s x) else []
  | _ => []

end Histories

end KontractsModel.Pallet

namespace KontractsProof.Pallet

open Scale KeyValue KontractsModel KontractsModel.Executor KontractsModel.Pallet

section Executions

variable {Id : Type} {node : Node} {cfg : Config Id}

theorem prepared_decoded {limits : Limits} {storage : KontractStorage limits} {code : Bytes}
    {module : Module node.wasmtime.Guest} {decoded : Executor.KontractStorage}
    (ready : Executor.Prepared node code (encodeStorage storage) module decoded) : decoded = storage.raw := by
  obtain ⟨rest, read⟩ := ready.decoded
  have whole := (storage_readable storage).whole
  rw [read] at whole
  exact congrArg Prod.fst (Option.some.inj whole)

theorem committed_tracks {code : Option (Code cfg.limits)} {storage storage' : KontractStorage cfg.limits}
    {account account' : AccountData} {expected : Int32} {fuel reads writes : UInt32}
    {inv : ℕ → List HostEvent → Caller → Prop} (tracked : Executor.Tracked node.toHost inv)
    (initial : ∀ memory, inv 0 [] ⟨Executor.freshStore reads writes storage.raw, memory⟩)
    (executed : execution node cfg code storage account expected fuel reads writes =
      .ok (.committed storage' account')) :
    ∃ binary burned caller, code = some binary ∧
      inv burned (hostTrace node binary.1 (encodeStorage storage) fuel reads writes) caller ∧
      caller.data.storage = storage'.raw := by
  obtain ⟨binary, raw, _, present, ran, read, -, -⟩ := execution_stored executed
  obtain ⟨burned, caller, holds, encoded⟩ := Executor.executeCode_tracks tracked
    (fun module decoded ready => by rw [prepared_decoded ready]; exact initial module.memory) ran
  have same := read.whole.symm.trans (encodeKontractStorage_ok encoded).2.2.whole
  exact ⟨binary, burned, caller, present, holds, (congrArg Prod.fst (Option.some.inj same)).symm⟩

end Executions

section Steps

variable {Id Account : Type} [DecidableEq Id] [DecidableEq Account] {node : Node} {cfg : Config Id}
  {keys : Set Key} {s : State cfg.limits Id Account} {table : Table Key Value}

theorem step_represents (injective : Set.InjOn node.hashed keys) (codeId : Id)
    (x : Extrinsic cfg.limits Id Account) (used : ∀ event ∈ executionTrace node cfg s x, event.key ∈ keys)
    (represents : Represents node.hashed keys (s.storages codeId).raw table) :
    Represents node.hashed keys ((step node cfg s x).storages codeId).raw
      (replay table (committedWrites node cfg codeId s x)) := by
  have taken := dispatched node s x
  unfold committedWrites
  generalize (dispatch node cfg s x).1 = result at taken ⊢
  generalize step node cfg s x = s' at taken ⊢
  cases taken with
  | aborted => exact represents
  | uploaded | exceeded | deleted | upgraded => simpa using represents
  | @committed block who executedId expected fuel reads writes storage account executed =>
    -- only a commit of this very kontract writes to its table
    by_cases same : executedId = codeId
    · subst same
      obtain ⟨binary, raw, _, present, ran, reads, -, -⟩ := execution_stored executed
      simp only [executionTrace, present] at used
      have initial : ∀ module decoded, Executor.Prepared node binary.1 (encodeStorage (s.storages executedId)) module
          decoded → Represents node.hashed keys decoded table := fun module decoded ready => by
        rwa [prepared_decoded ready]
      obtain ⟨final, encoded, written⟩ := Executor.executeCode_represents injective ran used initial
      have stored : storage.raw = final :=
        congrArg Prod.fst (Option.some.inj (reads.whole.symm.trans (encodeKontractStorage_ok encoded).2.2.whole))
      simp only [State.depositEvent_storages, State.setStorage, Function.update_self, if_true, executionTrace,
        present, stored]
      exact written
    · simpa [State.setStorage, Function.update_of_ne (Ne.symm same), same] using represents

end Steps

section Runs

variable {Id Account : Type} [DecidableEq Id] [DecidableEq Account] {node : Node} {cfg : Config Id}
  {keys : Set Key} {s₀ : State cfg.limits Id Account} {xs : List (Extrinsic cfg.limits Id Account)}

theorem run_represents (injective : Set.InjOn node.hashed keys)
    (empty : ∀ codeId, s₀.storages codeId = emptyStorage cfg.limits)
    (used : Runs.Always (step node cfg) (fun s x => ∀ event ∈ executionTrace node cfg s x, event.key ∈ keys) s₀ xs)
    (codeId : Id) :
    Represents node.hashed keys ((Runs.exec (step node cfg) s₀ xs).storages codeId).raw
      (replay emptyTable (Runs.collect (step node cfg) (committedWrites node cfg codeId) s₀ xs)) := by
  have start : Represents node.hashed keys (s₀.storages codeId).raw (replay emptyTable []) := by
    rw [empty]
    exact Represents.empty _ _
  exact Runs.exec_history
    (fun past (s : State cfg.limits Id Account) =>
      Represents node.hashed keys (s.storages codeId).raw (replay emptyTable past))
    (fun past s x now represents => by
      rw [replay_append]
      exact step_represents injective codeId x now represents) used start

/-- Every storage is the table that its committed executions wrote, over raw keys, and every read of
    an execution sees that table with the execution's own writes so far. -/
theorem storages_refine_tables (injective : Set.InjOn node.hashed keys)
    (empty : ∀ codeId, s₀.storages codeId = emptyStorage cfg.limits)
    (used : Runs.Always (step node cfg) (fun s x => ∀ event ∈ executionTrace node cfg s x, event.key ∈ keys) s₀ xs)
    (codeId : Id) :
    (∀ digest value, ((Runs.exec (step node cfg) s₀ xs).storages codeId).raw.get digest = some value ↔
        ∃ key, node.hashed key = digest ∧
          replay emptyTable (Runs.collect (step node cfg) (committedWrites node cfg codeId) s₀ xs) key = some value) ∧
      ∀ front x back, xs = front ++ x :: back →
        ∀ who expected fuel expectedRead expectedWrite code module decoded phase burned events s memory key found
            caller',
          x.origin = .signed who → x.call = .executeCode codeId expected fuel expectedRead expectedWrite →
          (Runs.exec (step node cfg) s₀ front).codes codeId = some code →
          Executor.Prepared node code.1 (encodeStorage ((Runs.exec (step node cfg) s₀ front).storages codeId)) module
            decoded →
          Passes node.toHost module fuel.toNat
            ⟨Executor.freshStore expectedRead expectedWrite decoded, module.memory⟩ phase burned events s →
          key ∈ keys → kontractsGet node.toHost key (s.caller.setMemory memory) = .ok found caller' →
          found = replay emptyTable (Runs.collect (step node cfg) (committedWrites node cfg codeId) s₀ front ++
            writesOf events) key := by
  refine ⟨(run_represents injective empty used codeId).exact, ?_⟩
  rintro front ⟨block, _, _⟩ back rfl who expected fuel expectedRead expectedWrite code module decoded phase burned
    events s memory key found caller' rfl rfl present ready passes member got
  have before := run_represents injective empty used.front codeId
  rw [← prepared_decoded ready] at before
  have here := used.split
  simp only [executionTrace, present] at here
  have now := Executor.passes_represents injective ready here before passes
  rw [Executor.kontractsGet_eq] at got
  split at got
  · cases got
    rw [replay_append, ← now.get key member]
    rfl
  · cases got

end Runs

section Stored

def storedRun : List (Extrinsic localConfig.limits Bytes Signer) :=
  [uploading ⟨storingCode, storingCode_fits⟩, executing .alice storingCode 34]

theorem stored_keys :
    Runs.Always (step localNode localConfig)
      (fun s x => ∀ event ∈ executionTrace localNode localConfig s x, event.key ∈ ({[]} : Set Key)) (genesis 34)
      storedRun := by
  have each : Runs.Always (step localNode localConfig)
      (fun s x => ∀ event ∈ executionTrace localNode localConfig s x, event.key = []) (genesis 34) storedRun := by
    decide
  exact each.mono fun _ _ same event member => Set.mem_singleton_iff.mpr (same event member)

theorem stored_refines_table :
    ((Runs.exec (step localNode localConfig) (genesis 34) storedRun).storages storingCode).raw.get
        (localNode.hashed []) = some [] ↔
      ∃ key, localNode.hashed key = localNode.hashed [] ∧
        replay emptyTable (Runs.collect (step localNode localConfig)
          (committedWrites localNode localConfig storingCode) (genesis 34) storedRun) key = some [] :=
  (storages_refine_tables (Set.injOn_singleton _ _) (fun _ => rfl) stored_keys storingCode).1 (localNode.hashed []) []

end Stored

end KontractsProof.Pallet
