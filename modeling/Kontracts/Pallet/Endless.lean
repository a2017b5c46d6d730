import Kontracts.Pallet.Deployed

namespace KontractsModel.Executor

def GuestStep.GoesOn {Guest : Type} (kind : Guest → Prop) : GuestStep Guest → Prop
  | .compute next _ | .call _ next _ => kind next
  | .done .. | .trap .. => False

/-- The `main` of a module never returns and never traps by itself. -/
def Endless {Guest : Type} (module : Module Guest) : Prop :=
  ∃ kind : Guest → Prop, (∀ enter guest, module.main = some enter → kind (enter guest)) ∧
    ∀ guest memory, kind guest → (module.step guest memory).GoesOn kind

def Spins {Guest : Type} (module : Module Guest) : Prop :=
  module.links ∧ module.start = none ∧ ∃ (enter : Guest → Guest) (kind : Guest → Prop), module.main = some enter ∧
    kind (enter module.initial) ∧ ∀ guest memory, kind guest →
      ∃ next memory', module.step guest memory = .compute next memory' ∧ kind next

def loopCode : List UInt8 := binary [0x03, 0x40, 0x0c, 0x00, 0x0b]

def loopModule : Module Unit where
  links := true
  memory := some page
  initial := ()
  start := none
  main := some id
  step := .compute

def loopNode : Node where
  overflowChecks := true
  blake2 := paddedDigest
  wasmtime :=
    { Guest := Unit, engineNew := true, addFuel := true, funcWrap := fun _ => true
      moduleNew := fun code => if code = loopCode then some loopModule else none }

end KontractsModel.Executor

namespace KontractsModel.Pallet

open Scale KontractsModel.Executor

def DeploysEndless {Id : Type} (node : Node) (cfg : Config Id) (codeId : Id) : Prop :=
  ∀ code : Code cfg.limits, cfg.hashingAlgorith code.1 = codeId →
    ∀ module, node.wasmtime.moduleNew code.1 = some module → Endless module

end KontractsModel.Pallet

namespace KontractsProof.Executor

open Scale KontractsModel.Executor

section Guests

variable {Guest : Type} {host : Host} {module : Module Guest} {kind : Guest → Prop}

theorem goesOn_next (goesOn : ∀ guest memory, kind guest → (module.step guest memory).GoesOn kind)
    {s next : Running Guest} {label : Option HostEvent} (taken : module.next host s = .burn (.ok (label, next)))
    (here : kind s.guest) : kind next.guest := by
  have still := goesOn s.guest s.caller.memory here
  obtain ⟨memory, ⟨stepped, -, -⟩ | ⟨call, event, stepped, -, -⟩⟩ := next_continues taken
  · rwa [stepped] at still
  · rwa [stepped] at still

theorem goesOn_passes (goesOn : ∀ guest memory, kind guest → (module.step guest memory).GoesOn kind)
    (entered : ∀ enter guest, module.main = some enter → kind (enter guest)) {fuel burned : ℕ} {caller : Caller}
    {events : List HostEvent} {s : Running Guest} (passes : Passes host module fuel caller .main burned events s) :
    kind s.guest := by
  cases passes with
  | main instantiated defined reached =>
    have preserved : ∀ (s : Running Guest) label next, module.next host s = .burn (.ok (label, next)) →
        kind s.guest → kind next.guest := fun _ _ _ taken here => goesOn_next goesOn taken here
    exact reached.preserves preserved (entered _ _ defined)

theorem endless_error {node : Node} {code : Bytes} {module : Module node.wasmtime.Guest}
    (compiled : node.wasmtime.moduleNew code = some module) (endless : Endless module) (storage : RawKontractStorage)
    (fuel maxRead maxWrite : UInt32) : ∃ exit, executeCode node code storage fuel maxRead maxWrite = .error exit := by
  obtain ⟨kind, entered, goesOn⟩ := endless
  cases ran : executeCode node code storage fuel maxRead maxWrite with
  | error exit => exact ⟨exit, rfl⟩
  | ok raw =>
    obtain ⟨module', decoded, ready, main⟩ := traced_ok (Prod.ext rfl ran)
    obtain rfl : module' = module := Option.some.inj (ready.compiled.symm.trans compiled)
    obtain ⟨burned, s, guest, caller', passes, here, -⟩ := runModule_ok main
    obtain ⟨memory, stopped, -⟩ := next_returns here
    have going := goesOn s.guest s.caller.memory (goesOn_passes goesOn entered passes)
    rw [stopped] at going
    exact going.elim

end Guests

section Loops

theorem spins_out_of_fuel {node : Node} {code : Bytes} {storage : RawKontractStorage}
    {module : Module node.wasmtime.Guest} {decoded : KontractStorage}
    (ready : Prepared node code storage module decoded) (spins : Spins module) (fuel maxRead maxWrite : UInt32) :
    executeCode node code storage fuel maxRead maxWrite = .error (.error .outOfFuel) := by
  obtain ⟨links, absent, enter, kind, defined, entered, computes⟩ := spins
  have moves : ∀ s : Running node.wasmtime.Guest, kind s.guest → ∃ label next,
      module.next node.toHost s = .burn (.ok (label, next)) ∧ kind next.guest := by
    intro s here
    obtain ⟨next, memory, stepped, still⟩ := computes s.guest s.caller.memory here
    exact ⟨none, ⟨next, s.caller.setMemory memory⟩, by simp only [Module.next, stepped], still⟩
  have spent : ∀ caller, (Metered.run (module.next node.toHost) fuel.toNat ⟨enter module.initial, caller⟩).2 =
      .exhausted := fun caller => Metered.exhausts_of_moves moves entered fuel.toNat
  simp only [executeCode, traced_eq ready, runModule, instantiate, links, absent, defined, not_true_eq_false, if_false,
    spent]
  rfl

theorem loop_endless : Endless loopModule := ⟨fun _ => True, fun _ _ _ => True.intro, fun _ _ _ => True.intro⟩

theorem loop_spins : Spins loopModule :=
  ⟨rfl, rfl, id, fun _ => True, rfl, True.intro, fun _ memory _ => ⟨(), memory, rfl, True.intro⟩⟩

theorem loop_compiled : loopNode.wasmtime.moduleNew loopCode = some loopModule := by simp [loopNode]

end Loops

end KontractsProof.Executor

namespace KontractsProof.Pallet

open Scale KontractsModel KontractsModel.Executor KontractsModel.Pallet

theorem endless_execution {Id : Type} {node : Node} {cfg : Config Id} {code : Option (Code cfg.limits)}
    (endless : ∀ binary, code = some binary → ∀ module, node.wasmtime.moduleNew binary.1 = some module → Endless module)
    (storage : KontractStorage cfg.limits) (account : AccountData) (expected : Int32) (fuel reads writes : UInt32) :
    ∃ abort, execution node cfg code storage account expected fuel reads writes = .error abort := by
  cases ended : execution node cfg code storage account expected fuel reads writes with
  | error abort => exact ⟨abort, rfl⟩
  | ok verdict =>
    obtain ⟨binary, raw, _, _, _, present, ran, -⟩ := execution_ok ended
    obtain ⟨module, decoded, ready, -⟩ := Executor.traced_ok (Prod.ext rfl ran)
    obtain ⟨exit, failed⟩ := Executor.endless_error ready.compiled (endless binary present module ready.compiled)
      (encodeStorage storage) fuel reads writes
    cases ran.symm.trans failed

section Runs

variable {Id Account : Type} [DecidableEq Id] [DecidableEq Account] {node : Node} {cfg : Config Id} {codeId : Id}
  {s s₀ : State cfg.limits Id Account}

theorem endless_step (endless : DeploysEndless node cfg codeId) (hashed : Hashed cfg s)
    {x : Extrinsic cfg.limits Id Account} (executes : x.call.executedId = some codeId) :
    ∃ abort, dispatch node cfg s x = (.error abort, s) := by
  have taken := dispatched node s x
  unfold step at taken
  generalize outcome : dispatch node cfg s x = both at taken ⊢
  obtain ⟨result, s'⟩ := both
  have fails : ∀ account expected fuel reads writes, ∃ abort,
      execution node cfg (s.codes codeId) (s.storages codeId) account expected fuel reads writes = .error abort :=
    endless_execution (fun binary present => endless binary (hashed codeId binary present)) (s.storages codeId)
  cases taken with
  | aborted failed => exact ⟨_, rfl⟩
  | uploaded | deleted | upgraded => cases executes
  | @exceeded block who executedId expected fuel reads writes account executed =>
    obtain rfl : executedId = codeId := Option.some.inj executes
    obtain ⟨abort, failed⟩ := fails (s.accounts who) expected fuel reads writes
    cases executed.symm.trans failed
  | @committed block who executedId expected fuel reads writes storage account executed =>
    obtain rfl : executedId = codeId := Option.some.inj executes
    obtain ⟨abort, failed⟩ := fails (s.accounts who) expected fuel reads writes
    cases executed.symm.trans failed

/-- Guest code that never stops by itself does no harm: whatever limits its executions get, each of them fails
    and changes nothing, over every run of the chain, and its storage stays what it was. -/
theorem endless_contained (endless : DeploysEndless node cfg codeId) (hashed : Hashed cfg s₀)
    (xs : List (Extrinsic cfg.limits Id Account)) :
    Runs.Always (step node cfg) (fun s x => x.call.executedId = some codeId →
        ∃ abort, dispatch node cfg s x = (.error abort, s)) s₀ xs ∧
      (Runs.exec (step node cfg) s₀ xs).storages codeId = s₀.storages codeId := by
  induction xs generalizing s₀ with
  | nil => exact ⟨True.intro, rfl⟩
  | cons x rest ih =>
    obtain ⟨later, kept⟩ := ih (hashed_step hashed x)
    refine ⟨⟨fun executes => endless_step endless hashed executes, later⟩, ?_⟩
    rw [Runs.exec_cons, kept]
    by_cases executes : x.call.executedId = some codeId
    · obtain ⟨abort, unchanged⟩ := endless_step endless hashed executes
      rw [step, unchanged]
    · exact storages_unchanged executes

theorem loopCode_fits : loopCode.length ≤ localConfig.limits.maxCodeSize.toNat := by decide

theorem loop_deployed : DeploysEndless loopNode localConfig loopCode := by
  rintro ⟨code, fits⟩ same module compiled
  obtain rfl : code = loopCode := same
  obtain rfl : loopModule = module := Option.some.inj (Executor.loop_compiled.symm.trans compiled)
  exact Executor.loop_endless

def loopRun : List (Extrinsic localConfig.limits Bytes Signer) :=
  [uploading ⟨loopCode, loopCode_fits⟩, executing .alice loopCode 0, executing .bob loopCode 100]

theorem loop_contained :
    Runs.Always (step loopNode localConfig) (fun s x => x.call.executedId = some loopCode →
        ∃ abort, dispatch loopNode localConfig s x = (.error abort, s)) (genesis 10) loopRun ∧
      (Runs.exec (step loopNode localConfig) (genesis 10) loopRun).storages loopCode = emptyStorage runtimeLimits :=
  endless_contained loop_deployed (genesis_hashed 10) loopRun

/-- An infinite loop is reported as out of fuel and changes nothing, whatever fuel it is given. -/
theorem spinning_out_of_fuel {binary : Code cfg.limits} {module : Module node.wasmtime.Guest}
    {decoded : Executor.KontractStorage} (present : s.codes codeId = some binary)
    (ready : Executor.Prepared node binary.1 (encodeStorage (s.storages codeId)) module decoded) (spins : Spins module)
    (block : ℕ) (who : Account) (expected : Int32) (fuel reads writes : UInt32) :
    dispatch node cfg s (executes cfg block who codeId fuel reads writes expected) =
      (.error (failed .outOfFuel), s) := by
  have stopped : execution node cfg (some binary) (s.storages codeId) (s.accounts who) expected fuel reads writes =
      .error (.ofExit (.error .outOfFuel)) :=
    execution_stopped (Executor.spins_out_of_fuel ready spins fuel reads writes)
  refine executes_stopped ?_
  rw [present]
  exact stopped

def loopState : State localConfig.limits Bytes Signer := Runs.exec (step loopNode localConfig) (genesis 10) loopRun

theorem loop_dispatched :
    dispatch loopNode localConfig loopState
        (executes localConfig 1 .alice loopCode (UInt32.ofNat (2 ^ 32 - 1)) 10 10 0) =
      (.error (failed .outOfFuel), loopState) := by
  have empty : encodeStorage (loopState.storages loopCode) = [0] := by decide
  have ready : Executor.Prepared loopNode loopCode (encodeStorage (loopState.storages loopCode)) loopModule
      BTreeMap.empty := by
    rw [empty]
    exact ⟨rfl, Executor.loop_compiled, ⟨[], rfl⟩, rfl, fun _ _ => rfl⟩
  have present : loopState.codes loopCode = some ⟨loopCode, loopCode_fits⟩ := by decide
  exact spinning_out_of_fuel present ready Executor.loop_spins 1 .alice 0 (UInt32.ofNat (2 ^ 32 - 1)) 10 10

end Runs

end KontractsProof.Pallet
