import Kontracts.Executor.Limits

namespace KontractsModel.Executor

abbrev Host.built (host : Host) (overflowChecks : Bool) : Host := { host with overflowChecks := overflowChecks }

abbrev Node.built (node : Node) (overflowChecks : Bool) : Node :=
  { node with toHost := node.toHost.built overflowChecks }

end KontractsModel.Executor

namespace KontractsProof.Executor

open Scale KontractsModel.Executor

section Calls

theorem updateWithCheck_built (first second : Bool) (val max : UInt32) (rOrW : Bool)
    (fits : val.toNat + 1 < 2 ^ 32) : updateWithCheck first val max rOrW = updateWithCheck second val max rOrW := by
  rw [updateWithCheck_fits first val max rOrW fits, updateWithCheck_fits second val max rOrW fits]

theorem event_built (host : Host) (overflowChecks : Bool) (caller : Caller) (call : HostCall) :
    call.event (host.built overflowChecks) caller = call.event host caller := by
  cases call <;> rfl

theorem perform_built (host : Host) (overflowChecks : Bool) (caller : Caller) (call : HostCall)
    (fits : (caller.data.count call.rOrW).toNat + 1 < 2 ^ 32) :
    call.perform (host.built overflowChecks) caller = call.perform host caller := by
  cases call with
  | set keyPtr keySize valuePtr valueSize =>
    have same := updateWithCheck_built overflowChecks host.overflowChecks caller.data.currNWrite caller.data.maxNWrite
      true fits
    simp only [perform_set, kontractsSet_eq]
    rw [same]
  | get keyPtr keySize valuePtr valueMaxSize =>
    have same := updateWithCheck_built overflowChecks host.overflowChecks caller.data.currNRead caller.data.maxNRead
      false fits
    simp only [perform_get]
    rw [same]
  | remove keyPtr keySize =>
    have same := updateWithCheck_built overflowChecks host.overflowChecks caller.data.currNWrite caller.data.maxNWrite
      true fits
    simp only [perform_remove, kontractsRemove_eq]
    rw [same]

end Calls

section Guests

variable {Guest : Type} {host : Host} {module : Module Guest} {s : Running Guest}

theorem next_built (overflowChecks : Bool) (fits : ∀ rOrW, (s.caller.data.count rOrW).toNat + 1 < 2 ^ 32) :
    module.next (host.built overflowChecks) s = module.next host s := by
  cases stepped : module.step s.guest s.caller.memory with
  | done guest memory | trap text | compute guest memory => simp only [Module.next, stepped]
  | call call guest memory =>
    have same := perform_built host overflowChecks (s.caller.setMemory memory) call (fits call.rOrW)
    rw [next_call _ module stepped, next_call _ module stepped, event_built, same]

theorem next_ending (overflowChecks : Bool) (s : Running Guest) :
    (module.next (host.built overflowChecks) s).ending = (module.next host s).ending := by
  have burning : ∀ host : Host, ∀ call guest memory, module.step s.guest s.caller.memory = .call call guest memory →
      (module.next host s).ending = none := by
    intro host call guest memory stepped
    rw [next_call host module stepped]
    split <;> rfl
  cases stepped : module.step s.guest s.caller.memory with
  | done guest memory | trap text | compute guest memory => simp only [Module.next, stepped]
  | call call guest memory => rw [burning _ call guest memory stepped, burning _ call guest memory stepped]

end Guests

section Executions

variable {node : Node} {module : Module node.wasmtime.Guest} {fuel maxRead maxWrite : UInt32}
  {decoded : KontractStorage}

theorem passes_next_built (overflowChecks : Bool) {phase : Phase} {burned : ℕ} {events : List HostEvent}
    {s : Running node.wasmtime.Guest}
    (passes : Passes node.toHost module fuel.toNat ⟨freshStore maxRead maxWrite decoded, module.memory⟩ phase burned
      events s) (funded : burned < fuel.toNat) :
    module.next (node.toHost.built overflowChecks) s = module.next node.toHost s :=
  next_built overflowChecks ((passes_counted passes).fits (Nat.lt_of_le_of_lt funded (UInt32.toNat_lt fuel)))

theorem instantiate_built (node : Node) (module : Module node.wasmtime.Guest) (overflowChecks : Bool)
    (fuel maxRead maxWrite : UInt32) (decoded : KontractStorage) :
    instantiate (node.toHost.built overflowChecks) module fuel.toNat
        ⟨freshStore maxRead maxWrite decoded, module.memory⟩ =
      instantiate node.toHost module fuel.toNat ⟨freshStore maxRead maxWrite decoded, module.memory⟩ := by
  by_cases links : module.links
  · cases defined : module.start with
    | none => simp only [instantiate, defined]
    | some enter =>
      rw [instantiate_start _ _ _ links defined, instantiate_start _ _ _ links defined,
        Metered.run_agree (next_ending overflowChecks) fun n labels last reached funded =>
          passes_next_built overflowChecks (.start links defined reached (Nat.le_of_lt funded)) funded]
  · simp only [instantiate, if_pos links]

theorem runModule_built (node : Node) (module : Module node.wasmtime.Guest) (overflowChecks : Bool)
    (fuel maxRead maxWrite : UInt32) (decoded : KontractStorage) :
    runModule (node.toHost.built overflowChecks) module fuel.toNat
        ⟨freshStore maxRead maxWrite decoded, module.memory⟩ =
      runModule node.toHost module fuel.toNat ⟨freshStore maxRead maxWrite decoded, module.memory⟩ := by
  unfold runModule
  rw [instantiate_built]
  cases instantiated : instantiate node.toHost module fuel.toNat
      ⟨freshStore maxRead maxWrite decoded, module.memory⟩ with
  | mk before outcome =>
    cases outcome with
    | error exit => rfl
    | ok both =>
      obtain ⟨instance', left⟩ := both
      cases defined : module.main with
      | none => rfl
      | some enter =>
        have within := instantiate_left_le instantiated
        dsimp only
        rw [Metered.run_agree (next_ending overflowChecks) fun n labels last reached funded =>
          passes_next_built overflowChecks (.main instantiated defined reached (Nat.le_of_lt funded)) (by omega)]

/-- An execution is the same in every build: its counters cannot overflow before its fuel is gone. -/
theorem traced_built (node : Node) (overflowChecks : Bool) (code : Bytes) (storage : RawKontractStorage)
    (fuel maxRead maxWrite : UInt32) :
    traced (node.built overflowChecks) code storage fuel maxRead maxWrite =
      traced node code storage fuel maxRead maxWrite := by
  have prepared : prepare (node.built overflowChecks) code storage maxRead maxWrite =
      prepare node code storage maxRead maxWrite := by
    unfold prepare
    cases node.wasmtime.moduleNew code <;> rfl
  unfold traced
  rw [prepared]
  cases ready : prepare node code storage maxRead maxWrite with
  | error error => rfl
  | ok both =>
    obtain ⟨module, store⟩ := both
    obtain ⟨decoded, -, rfl⟩ := prepare_iff.mp ready
    exact runModule_built node module overflowChecks fuel maxRead maxWrite decoded

theorem executeCode_built (node : Node) (overflowChecks : Bool) (code : Bytes) (storage : RawKontractStorage)
    (fuel maxRead maxWrite : UInt32) :
    executeCode (node.built overflowChecks) code storage fuel maxRead maxWrite =
      executeCode node code storage fuel maxRead maxWrite :=
  congrArg Prod.snd (traced_built node overflowChecks code storage fuel maxRead maxWrite)

end Executions

end KontractsProof.Executor
