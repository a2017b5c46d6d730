import Kontracts.Executor.Eased
import Kontracts.Executor.Fuel

namespace KontractsModel.Executor

def executeWithin (node : Node) (code : Scale.Bytes) (storage : RawKontractStorage) (fuel : UInt32) (rOrW : Bool)
    (other limit : UInt32) : Except Exit RawKontractStorage :=
  executeCode node code storage fuel (if rOrW then other else limit) (if rOrW then limit else other)

end KontractsModel.Executor

namespace KontractsProof.Executor

open Scale KontractsModel.Executor

section Guests

variable {Guest : Type} {host : Host} {module : Module Guest} {rOrW : Bool}

def StartRefused (host : Host) (module : Module Guest) (fuel : ℕ) (rOrW : Bool) (caller : Caller) : Prop :=
  module.links ∧ ∃ enter, module.start = some enter ∧
    RefusedEnd rOrW (Metered.run (module.next host) fuel ⟨enter module.initial, caller⟩).2

def MainRefused (host : Host) (module : Module Guest) (fuel : ℕ) (rOrW : Bool) (caller : Caller) : Prop :=
  ∃ s left enter, (instantiate host module fuel caller).2 = .ok (s, left) ∧ module.main = some enter ∧
    RefusedEnd rOrW (Metered.run (module.next host) left ⟨enter s.guest, s.caller⟩).2

variable {fuel : ℕ} {caller caller' : Caller}

theorem start_refused (refused : StartRefused host module fuel rOrW caller) :
    (runModule host module fuel caller).2 = .error (.error .impossibleCreateInstance) := by
  obtain ⟨links, enter, defined, caller', left, ended⟩ := refused
  rw [started_eq host caller links defined, ended]
  rfl

theorem runModule_eq (host : Host) (module : Module Guest) (fuel : ℕ) (caller : Caller) :
    (runModule host module fuel caller).2 =
      match (instantiate host module fuel caller).2 with
      | .error exit => .error exit
      | .ok (s, left) => afterStart host module s left := by
  unfold runModule afterStart
  generalize instantiate host module fuel caller = outcome
  obtain ⟨events, outcome⟩ := outcome
  cases outcome with
  | error exit => rfl
  | ok both => cases module.main <;> rfl

theorem main_refused (refused : MainRefused host module fuel rOrW caller) :
    (runModule host module fuel caller).2 = .error (.error (limitReached rOrW)) := by
  obtain ⟨s, left, enter, instantiated, defined, caller', rest, ended⟩ := refused
  rw [runModule_eq, instantiated]
  simp only [afterStart, defined, ended, finishMain]
  cases rOrW <;> rfl

theorem instantiate_eased (eased : Eased rOrW caller caller') (allowed : ¬ StartRefused host module fuel rOrW caller) :
    ¬ StartRefused host module fuel rOrW caller' ∧
      AlikeStarts rOrW (instantiate host module fuel caller).2 (instantiate host module fuel caller').2 := by
  by_cases links : module.links
  · cases defined : module.start with
    | none =>
      constructor
      · intro refused
        obtain ⟨_, _, different, _⟩ := refused
        rw [defined] at different
        cases different
      · simp only [instantiate, links, defined, not_true_eq_false, if_false]
        have related : EasedRunning rOrW ⟨module.initial, caller⟩ ⟨module.initial, caller'⟩ := ⟨rfl, eased⟩
        exact .ok related fuel
    | some enter =>
      have related : EasedRunning rOrW ⟨enter module.initial, caller⟩ ⟨enter module.initial, caller'⟩ := ⟨rfl, eased⟩
      rcases run_eased host related fuel with refused | alike
      · exact absurd ⟨links, enter, defined, refused⟩ allowed
      · constructor
        · intro refused
          obtain ⟨_, enter', defined', refused⟩ := refused
          obtain rfl : enter = enter' := Option.some.inj (defined.symm.trans defined')
          exact allowed ⟨links, enter, defined, alike.refused_iff.mp refused⟩
        · rw [instantiate_start host fuel caller links defined, instantiate_start host fuel caller' links defined]
          exact alike.finishStart
  · refine ⟨fun refused => links refused.1, ?_⟩
    rw [instantiate, instantiate, if_pos links, if_pos links]
    exact .error _

theorem runModule_eased (eased : Eased rOrW caller caller') (started : ¬ StartRefused host module fuel rOrW caller)
    (allowed : ¬ MainRefused host module fuel rOrW caller) :
    ¬ MainRefused host module fuel rOrW caller' ∧
      (runModule host module fuel caller').2 = (runModule host module fuel caller).2 := by
  obtain ⟨-, alike⟩ := instantiate_eased eased started
  rw [runModule_eq, runModule_eq]
  unfold MainRefused at allowed ⊢
  generalize (instantiate host module fuel caller).2 = outcome at alike allowed
  generalize (instantiate host module fuel caller').2 = outcome' at alike
  cases alike with
  | error exit => exact ⟨fun ⟨_, _, _, different, _⟩ => (by cases different), rfl⟩
  | @ok s s' related left =>
    cases defined : module.main with
    | none =>
      refine ⟨fun ⟨_, _, _, _, different, _⟩ => (by cases different), ?_⟩
      simp only [afterStart, defined]
    | some enter =>
      have entered : EasedRunning rOrW ⟨enter s.guest, s.caller⟩ ⟨enter s'.guest, s'.caller⟩ :=
        ⟨congrArg enter related.guest, related.caller⟩
      rcases run_eased host entered left with refused | alike
      · exact absurd ⟨s, left, enter, rfl, defined, refused⟩ allowed
      · refine ⟨?_, ?_⟩
        · rintro ⟨_, _, enter', same, defined', refused⟩
          cases same
          obtain rfl : enter = enter' := Option.some.inj defined'
          exact allowed ⟨s, left, enter, rfl, defined, alike.refused_iff.mp refused⟩
        · simp only [afterStart, defined, alike.finishMain_eq]

theorem exceeded_inj {kind kind' : Bool} (same : exceeded kind = exceeded kind') : kind = kind' := by
  cases kind <;> cases kind' <;> simp_all [exceeded]

theorem run_trapped {s : Running Guest} {trap : Trap} {left : ℕ}
    (ended : (Metered.run (module.next host) fuel s).2 = .stopped (.halted (.trap trap) caller) left) :
    (∃ text, trap = .instruction text) ∨
      ∃ burned events last call guest memory, Metered.Reaches (module.next host) burned s events last ∧ burned < fuel ∧
        module.step last.guest last.caller.memory = .call call guest memory ∧
        call.perform host (last.caller.setMemory memory) = .error (.trap trap) caller := by
  obtain ⟨burned, last, reached, ending⟩ := Metered.run_reaches (module.next host) fuel s
  rw [ended] at ending
  generalize same : Metered.End.stopped (Stop.halted (Halt.trap trap) caller) left = final at ending
  cases ending with
  | exhausted => cases same
  | stop here =>
    cases same
    cases stepped : module.step last.guest last.caller.memory with
    | done guest memory | compute guest memory => simp [Module.next, stepped] at here
    | call call guest memory =>
      rw [next_call host module stepped] at here
      split at here <;> cases here
    | trap text =>
      simp only [Module.next, stepped, Metered.Step.stop.injEq, Stop.halted.injEq, Halt.trap.injEq] at here
      exact .inl ⟨text, here.1.symm⟩
  | fault here enough =>
    cases same
    obtain ⟨call, guest, memory, why, caller', stepped, failed, halted⟩ := next_fault here
    cases halted
    exact .inr ⟨burned, _, last, call, guest, memory, reached, enough, stepped, failed⟩

theorem finishMain_limit {s : Running Guest}
    (finished : finishMain (Metered.run (module.next host) fuel s).2 = .error (.error (limitReached rOrW))) :
    RefusedEnd rOrW (Metered.run (module.next host) fuel s).2 := by
  cases ended : (Metered.run (module.next host) fuel s).2 with
  | exhausted =>
    rw [ended] at finished
    cases rOrW <;> cases finished
  | stopped result left =>
    rw [ended] at finished
    cases result with
    | returned guest caller =>
      simp only [finishMain] at finished
      cases encoded : encodeKontractStorage caller.data.storage <;> simp [encoded, Except.mapError] at finished
    | halted why caller =>
      cases why with
      | panic panic => cases finished
      | trap trap =>
        simp only [finishMain, Except.error.injEq, Exit.error.injEq] at finished
        have reasons : (∃ text, trap = .instruction text) ∨ (∃ kind, Halt.trap trap = exceeded kind) ∨
            Halt.trap trap = impossibleReading ∨ Halt.trap trap = impossibleWrite := by
          rcases run_trapped ended with instruction | ⟨_, _, _, _, _, _, -, -, -, failed⟩
          · exact .inl instruction
          · exact .inr (call_trap_reasons failed)
        rcases reasons with ⟨text, rfl⟩ | ⟨kind, same⟩ | same | same
        · rw [classify_instruction] at finished
          cases rOrW <;> cases finished
        · have reported : limitReached kind = limitReached rOrW := by
            rw [← finished]
            cases same
            cases kind <;> rfl
          obtain rfl : kind = rOrW := by cases kind <;> cases rOrW <;> simp_all [limitReached]
          exact ⟨caller, left, by rw [same]⟩
        · cases same
          cases rOrW <;> simp [classify, Trap.displayReason, limitReached] at finished
        · cases same
          cases rOrW <;> simp [classify, Trap.displayReason, limitReached] at finished

theorem allowed_result (allowed : ¬ MainRefused host module fuel rOrW caller) :
    (runModule host module fuel caller).2 ≠ .error (.error (limitReached rOrW)) := by
  intro finished
  rw [runModule_eq] at finished
  cases instantiated : (instantiate host module fuel caller).2 with
  | error exit =>
    rw [instantiated] at finished
    cases finished
    have early := instantiate_error instantiated
    cases rOrW <;> cases early
  | ok both =>
    obtain ⟨s, left⟩ := both
    rw [instantiated] at finished
    simp only [afterStart] at finished
    cases defined : module.main with
    | none =>
      rw [defined] at finished
      cases rOrW <;> cases finished
    | some enter =>
      rw [defined] at finished
      exact allowed ⟨s, left, enter, instantiated, defined, finishMain_limit finished⟩

end Guests

section Executions

variable {node : Node} {module : Module node.wasmtime.Guest} {decoded : KontractStorage} {fuel : UInt32} {rOrW : Bool}

theorem Counted.refused_full {host : Host} {limit : Bool → UInt32} {burned : ℕ} {events : List HostEvent}
    {caller caller' : Caller} {call : HostCall} (counted : Counted limit burned events caller)
    (small : burned + 1 < 2 ^ 32) (failed : call.perform host caller = .error (exceeded rOrW) caller') :
    completedCalls rOrW events = (limit rOrW).toNat := by
  rcases counted.trapped small failed with ⟨readable, used⟩ | same | same
  · obtain ⟨_, refused⟩ := (counted.refused_iff small readable).mpr used
    rw [exceeded_inj (EStateM.Result.error.inj (failed.symm.trans refused)).1]
    exact used
  · cases rOrW <;> simp [impossibleReading] at same
  · cases rOrW <;> simp [impossibleWrite] at same

def limited (rOrW : Bool) (other limit : UInt32) (decoded : KontractStorage) : KontractStore :=
  freshStore (if rOrW then other else limit) (if rOrW then limit else other) decoded

theorem limited_eased (rOrW : Bool) (other : UInt32) {limit limit' : UInt32} (larger : limit ≤ limit')
    (decoded : KontractStorage) (memory : Option Memory) :
    Eased rOrW ⟨limited rOrW other limit decoded, memory⟩ ⟨limited rOrW other limit' decoded, memory⟩ where
  memory := rfl
  storage := rfl
  counts := by
    funext kind
    cases kind <;> rfl
  others := by cases rOrW <;> rfl
  more := by cases rOrW <;> exact larger

/-- There is not enough fuel for as many calls as the largest maximum allows. -/
theorem full_limit {phase : Phase} {burned : ℕ} {events : List HostEvent} {s : Running node.wasmtime.Guest}
    {other : UInt32} {call : HostCall} {memory : Option Memory} {caller' : Caller}
    (passes : Passes node.toHost module fuel.toNat ⟨limited rOrW other (-1) decoded, module.memory⟩ phase burned
      events s)
    (funded : burned < fuel.toNat) :
    call.perform node.toHost (s.caller.setMemory memory) ≠ .error (exceeded rOrW) caller' := by
  intro failed
  have counted := (passes_counted passes).setMemory memory
  have bound := UInt32.toNat_lt fuel
  have full := counted.refused_full (by omega) failed
  have limit : ((freshStore (if rOrW then other else (-1)) (if rOrW then (-1) else other) decoded).limit rOrW).toNat =
      2 ^ 32 - 1 := by cases rOrW <;> rfl
  rw [limit] at full
  have calls : completedCalls rOrW events ≤ events.length := List.countP_le_length
  have spent := counted.spent
  omega

theorem full_start_allowed (module : Module node.wasmtime.Guest) (fuel : UInt32) (rOrW : Bool) (other : UInt32)
    (decoded : KontractStorage) :
    ¬ StartRefused node.toHost module fuel.toNat rOrW ⟨limited rOrW other (-1) decoded, module.memory⟩ := by
  rintro ⟨links, enter, defined, caller', left, ended⟩
  rcases run_trapped ended with ⟨text, different⟩ |
    ⟨burned, events, last, call, guest, memory, reached, funded, -, failed⟩
  · cases different
  · exact full_limit (.start links defined reached funded.le) funded failed

theorem full_main_allowed (module : Module node.wasmtime.Guest) (fuel : UInt32) (rOrW : Bool) (other : UInt32)
    (decoded : KontractStorage) :
    ¬ MainRefused node.toHost module fuel.toNat rOrW ⟨limited rOrW other (-1) decoded, module.memory⟩ := by
  rintro ⟨s, left, enter, instantiated, defined, caller', rest, ended⟩
  obtain ⟨before, started⟩ : ∃ before, instantiate node.toHost module fuel.toNat
      ⟨limited rOrW other (-1) decoded, module.memory⟩ = (before, .ok (s, left)) := ⟨_, Prod.ext rfl instantiated⟩
  have spent := instantiate_left_le started
  rcases run_trapped ended with ⟨text, different⟩ |
    ⟨burned, events, last, call, guest, memory, reached, funded, -, failed⟩
  · cases different
  · exact full_limit (.main started defined reached funded.le) (by omega) failed

theorem least_limit (holds : UInt32 → Prop) (kept : ∀ limit limit', limit ≤ limit' → holds limit → holds limit')
    (largest : holds (-1)) : ∃ least : UInt32, ∀ limit, holds limit ↔ least ≤ limit := by
  classical
  have some : ∃ n : ℕ, ∃ limit : UInt32, limit.toNat = n ∧ holds limit := ⟨_, -1, rfl, largest⟩
  obtain ⟨least, same, met⟩ := Nat.find_spec some
  refine ⟨least, fun limit => ⟨fun here => ?_, fun above => kept least limit above met⟩⟩
  rw [UInt32.le_iff_toNat_le, same]
  exact Nat.find_min' some ⟨limit, rfl, here⟩

theorem module_limit_gates (module : Module node.wasmtime.Guest) (fuel : UInt32) (rOrW : Bool) (other : UInt32)
    (decoded : KontractStorage) :
    ∃ (started total : UInt32) (result : Except Exit RawKontractStorage), started ≤ total ∧
      result ≠ .error (.error (limitReached rOrW)) ∧ ∀ limit : UInt32,
        (runModule node.toHost module fuel.toNat ⟨limited rOrW other limit decoded, module.memory⟩).2 =
          if limit < started then .error (.error .impossibleCreateInstance)
          else if limit < total then .error (.error (limitReached rOrW)) else result := by
  let at' : UInt32 → Caller := fun limit => ⟨limited rOrW other limit decoded, module.memory⟩
  have eased : ∀ limit limit', limit ≤ limit' → Eased rOrW (at' limit) (at' limit') := fun _ _ larger =>
    limited_eased rOrW other larger decoded module.memory
  obtain ⟨started, starts⟩ := least_limit
    (fun limit => ¬ StartRefused node.toHost module fuel.toNat rOrW (at' limit))
    (fun _ _ larger allowed => (instantiate_eased (eased _ _ larger) allowed).1)
    (full_start_allowed module fuel rOrW other decoded)
  obtain ⟨total, finishes⟩ := least_limit
    (fun limit => ¬ StartRefused node.toHost module fuel.toNat rOrW (at' limit) ∧
      ¬ MainRefused node.toHost module fuel.toNat rOrW (at' limit))
    (fun _ _ larger allowed => ⟨(instantiate_eased (eased _ _ larger) allowed.1).1,
      (runModule_eased (eased _ _ larger) allowed.1 allowed.2).1⟩)
    ⟨full_start_allowed module fuel rOrW other decoded, full_main_allowed module fuel rOrW other decoded⟩
  have allowed := (finishes total).mpr (UInt32.le_refl total)
  refine ⟨started, total, (runModule node.toHost module fuel.toNat (at' total)).2, (starts total).mp allowed.1,
    allowed_result allowed.2, fun limit => ?_⟩
  split
  · rename_i below
    have refused := mt (starts limit).mp (UInt32.not_le.mpr below)
    exact start_refused (not_not.mp refused)
  · rename_i above
    have starting := (starts limit).mpr (UInt32.not_lt.mp above)
    split
    · rename_i below
      have refused := mt (finishes limit).mp (UInt32.not_le.mpr below)
      exact main_refused (not_not.mp fun started => refused ⟨starting, started⟩)
    · rename_i enough
      exact (runModule_eased (eased _ _ (UInt32.not_lt.mp enough)) allowed.1 allowed.2).2

theorem prepare_maxima (node : Node) (code : Bytes) (storage : RawKontractStorage) (reads writes : UInt32) :
    (∃ error, ∀ reads writes, prepare node code storage reads writes = .error error) ∨
      ∃ module decoded, Prepared node code storage module decoded := by
  cases prepared : prepare node code storage reads writes with
  | ok ready =>
    obtain ⟨module, store⟩ := ready
    obtain ⟨decoded, ready, -⟩ := prepare_iff.mp prepared
    exact .inr ⟨module, decoded, ready⟩
  | error error =>
    refine .inl ⟨error, fun reads writes => ?_⟩
    unfold prepare at prepared ⊢
    simp only [Bind.bind, Except.bind, pure, Except.pure, throw, throwThe, MonadExceptOf.throw] at prepared ⊢
    split at prepared
    · rename_i engine
      rw [if_pos engine]
      exact prepared
    · rename_i engine
      rw [if_neg engine]
      split at prepared
      · split at prepared
        · split_ifs at prepared ⊢ <;> exact prepared
        · exact prepared
      · exact prepared

/-- A maximum only gates: below one value the start function is refused a call, from there to another one `main`
    is, and from then on the result is always the same and not for want of calls of this kind. -/
theorem limit_only_gates (node : Node) (code : Bytes) (storage : RawKontractStorage) (fuel : UInt32) (rOrW : Bool)
    (other : UInt32) :
    ∃ (started total : UInt32) (result : Except Exit RawKontractStorage), started ≤ total ∧
      result ≠ .error (.error (limitReached rOrW)) ∧
      ∀ limit : UInt32, executeWithin node code storage fuel rOrW other limit =
        if limit < started then .error (.error .impossibleCreateInstance)
        else if limit < total then .error (.error (limitReached rOrW)) else result := by
  rcases prepare_maxima node code storage 0 0 with ⟨error, same⟩ | ⟨module, decoded, ready⟩
  · have result : ∀ limit, executeWithin node code storage fuel rOrW other limit = .error (.error error) := by
      intro limit
      simp only [executeWithin, executeCode, traced, same]
    refine ⟨0, 0, .error (.error error), UInt32.le_refl 0, ?_, fun limit => ?_⟩
    · simp only [ne_eq, Except.error.injEq, Exit.error.injEq]
      rintro rfl
      cases rOrW <;> simpa [limitReached] using prepare_fails (same 0 0)
    · rw [if_neg (UInt32.not_lt.mpr (UInt32.zero_le)), if_neg (UInt32.not_lt.mpr (UInt32.zero_le)), result]
  · obtain ⟨started, total, result, ordered, other', gates⟩ := module_limit_gates module fuel rOrW other decoded
    refine ⟨started, total, result, ordered, other', fun limit => ?_⟩
    rw [← gates limit, executeWithin, executeCode, traced_eq ready]
    rfl

end Executions

end KontractsProof.Executor
