import Kontracts.Executor.Exhaustion

namespace KontractsProof.Executor

open Scale KontractsModel.Executor

/-- The same caller, with a maximum for one kind of calls that is as large or larger. -/
structure Eased (rOrW : Bool) (caller caller' : Caller) : Prop where
  memory : caller'.memory = caller.memory
  storage : caller'.data.storage = caller.data.storage
  counts : caller'.data.count = caller.data.count
  others : caller'.data.limit (!rOrW) = caller.data.limit (!rOrW)
  more : caller.data.limit rOrW ≤ caller'.data.limit rOrW

inductive AlikeCalls (rOrW : Bool) : EStateM.Result Halt Caller Unit → EStateM.Result Halt Caller Unit → Prop
  | ok {caller caller' : Caller} (eased : Eased rOrW caller caller') :
      AlikeCalls rOrW (.ok () caller) (.ok () caller')
  | error (why : Halt) (caller caller' : Caller) : AlikeCalls rOrW (.error why caller) (.error why caller')

section Calls

variable {host : Host} {rOrW : Bool} {caller caller' : Caller}

theorem updateWithCheck_eased {overflowChecks : Bool} {val max max' : UInt32} (kind : Bool) (larger : max ≤ max') :
    updateWithCheck overflowChecks val max kind = .error (exceeded kind) ∨
      updateWithCheck overflowChecks val max' kind = updateWithCheck overflowChecks val max kind := by
  unfold updateWithCheck
  cases added : addU32 overflowChecks val 1 with
  | error panic => exact .inr rfl
  | ok next =>
    simp only [Except.mapError, Bind.bind, Except.bind]
    by_cases below : next ≤ max
    · exact .inr (by rw [if_pos below, if_pos (UInt32.le_trans below larger)])
    · left
      rw [if_neg below]
      cases kind <;> rfl

theorem Eased.checked (eased : Eased rOrW caller caller') (overflowChecks kind : Bool) :
    updateWithCheck overflowChecks (caller.data.count kind) (caller.data.limit kind) kind = .error (exceeded rOrW) ∨
      updateWithCheck overflowChecks (caller'.data.count kind) (caller'.data.limit kind) kind =
        updateWithCheck overflowChecks (caller.data.count kind) (caller.data.limit kind) kind := by
  rw [eased.counts]
  by_cases same : kind = rOrW
  · subst same
    exact updateWithCheck_eased kind eased.more
  · have other : kind = !rOrW := by cases kind <;> cases rOrW <;> simp_all
    rw [other, eased.others]
    exact .inr rfl

theorem Eased.argument_eq (eased : Eased rOrW caller caller') (ptr size : UInt32) :
    caller'.argument ptr size = caller.argument ptr size := by
  unfold Caller.argument
  rw [eased.memory]

theorem Eased.event_eq (eased : Eased rOrW caller caller') (call : HostCall) :
    call.event host caller' = call.event host caller := by
  cases call <;> simp only [HostCall.event, eased.argument_eq, eased.storage]

theorem Eased.setMemory (eased : Eased rOrW caller caller') (memory : Option Memory) :
    Eased rOrW (caller.setMemory memory) (caller'.setMemory memory) :=
  ⟨rfl, eased.storage, eased.counts, eased.others, eased.more⟩

theorem Eased.writeVec (eased : Eased rOrW caller caller') (vec : Value) (ptr size : UInt32) :
    AlikeCalls rOrW (writeVec vec ptr size caller) (writeVec vec ptr size caller') := by
  cases memory : caller.memory with
  | none =>
    rw [writeVec_none caller vec ptr size memory, writeVec_none caller' vec ptr size (eased.memory.trans memory)]
    exact .error _ _ _
  | some mem =>
    have memory' := eased.memory.trans memory
    by_cases short : size.toNat < vec.length
    · rw [writeVec_short caller vec ptr size mem memory short, writeVec_short caller' vec ptr size mem memory' short]
      exact .error _ _ _
    · have room := Nat.not_lt.mp short
      rw [writeVec_room caller vec ptr size mem memory room, writeVec_room caller' vec ptr size mem memory' room]
      split
      · split
        · exact .ok (eased.setMemory _)
        · exact .error _ _ _
      · exact .error _ _ _

theorem Eased.setReads (eased : Eased rOrW caller caller') (count : UInt32) :
    Eased rOrW (caller.setData (caller.data.setReads count)) (caller'.setData (caller'.data.setReads count)) where
  memory := eased.memory
  storage := eased.storage
  counts := by
    funext kind
    cases kind
    · rfl
    · exact congrFun eased.counts true
  others := by
    have others := eased.others
    cases rOrW <;> exact others
  more := by
    have more := eased.more
    cases rOrW <;> exact more

theorem Eased.setWrites (eased : Eased rOrW caller caller') (count : UInt32) {storage storage' : KontractStorage}
    (same : storage' = storage) :
    Eased rOrW (caller.setData ((caller.data.setWrites count).setStorage storage))
      (caller'.setData ((caller'.data.setWrites count).setStorage storage')) where
  memory := eased.memory
  storage := same
  counts := by
    funext kind
    cases kind
    · exact congrFun eased.counts false
    · rfl
  others := by
    have others := eased.others
    cases rOrW <;> exact others
  more := by
    have more := eased.more
    cases rOrW <;> exact more

theorem Eased.stored (eased : Eased rOrW caller caller') (overflowChecks : Bool) {storage storage' : KontractStorage}
    (same : storage' = storage) {result result' : EStateM.Result Halt Caller Unit}
    (counted : result =
      match updateWithCheck overflowChecks caller.data.currNWrite caller.data.maxNWrite true with
      | .ok count => .ok () (caller.setData ((caller.data.setWrites count).setStorage storage))
      | .error why => .error why caller)
    (counted' : result' =
      match updateWithCheck overflowChecks caller'.data.currNWrite caller'.data.maxNWrite true with
      | .ok count => .ok () (caller'.setData ((caller'.data.setWrites count).setStorage storage'))
      | .error why => .error why caller') :
    result = .error (exceeded rOrW) caller ∨ AlikeCalls rOrW result result' := by
  have checked := eased.checked overflowChecks true
  simp only [KontractStore.count, KontractStore.limit] at checked
  rcases checked with refused | alike
  · left
    rw [counted, refused]
  · right
    rw [counted, counted', alike]
    split
    · exact .ok (eased.setWrites _ same)
    · exact .error _ _ _

/-- A call that is not refused for its maximum does the same under a larger one. -/
theorem Eased.perform (eased : Eased rOrW caller caller') (call : HostCall) :
    call.perform host caller = .error (exceeded rOrW) caller ∨
      AlikeCalls rOrW (call.perform host caller) (call.perform host caller') := by
  cases call with
  | set keyPtr keySize valuePtr valueSize =>
    simp only [perform_set, eased.argument_eq]
    split
    · exact eased.stored host.overflowChecks (by rw [eased.storage]) (kontractsSet_eq ..) (kontractsSet_eq ..)
    · exact .inr (.error _ _ _)
  | get keyPtr keySize valuePtr valueMaxSize =>
    simp only [perform_get, eased.argument_eq]
    split
    · have checked := eased.checked host.overflowChecks false
      simp only [KontractStore.count, KontractStore.limit] at checked
      rcases checked with refused | same
      · exact .inl (by rw [refused])
      · rw [same, eased.storage]
        right
        split
        · exact (eased.setReads _).writeVec _ _ _
        · exact .error _ _ _
    · exact .inr (.error _ _ _)
  | remove keyPtr keySize =>
    simp only [perform_remove, eased.argument_eq]
    split
    · exact eased.stored host.overflowChecks (by rw [eased.storage]) (kontractsRemove_eq ..) (kontractsRemove_eq ..)
    · exact .inr (.error _ _ _)

end Calls

section Guests

variable {Guest : Type} {host : Host} {module : Module Guest} {rOrW : Bool}

structure EasedRunning (rOrW : Bool) (s s' : Running Guest) : Prop where
  guest : s'.guest = s.guest
  caller : Eased rOrW s.caller s'.caller

inductive AlikeStops (rOrW : Bool) : Stop Guest → Stop Guest → Prop
  | returned (guest : Guest) {caller caller' : Caller} (eased : Eased rOrW caller caller') :
      AlikeStops rOrW (.returned guest caller) (.returned guest caller')
  | halted (why : Halt) (caller caller' : Caller) : AlikeStops rOrW (.halted why caller) (.halted why caller')

def Allowed (rOrW : Bool) : Stop Guest → Prop
  | .returned _ _ => True
  | .halted why _ => why ≠ exceeded rOrW

theorem EasedRunning.step_eq {s s' : Running Guest} (related : EasedRunning rOrW s s') :
    module.step s'.guest s'.caller.memory = module.step s.guest s.caller.memory := by
  rw [related.guest, related.caller.memory]

theorem eased_lockstep (host : Host) (module : Module Guest) (rOrW : Bool) :
    Metered.Lockstep (module.next host) (module.next host) (EasedRunning rOrW) (AlikeStops rOrW) (Allowed rOrW) where
  stop s t result related taken fine := by
    cases stepped : module.step s.guest s.caller.memory with
    | compute guest memory => simp [Module.next, stepped] at taken
    | call call guest memory =>
      rw [next_call host module stepped] at taken
      split at taken <;> cases taken
    | done guest memory =>
      simp only [Module.next, stepped, Metered.Step.stop.injEq] at taken
      subst taken
      rw [← related.step_eq] at stepped
      exact ⟨_, by simp only [Module.next, stepped], .returned guest (related.caller.setMemory memory)⟩
    | trap text =>
      simp only [Module.next, stepped, Metered.Step.stop.injEq] at taken
      subst taken
      rw [← related.step_eq] at stepped
      exact ⟨_, by simp only [Module.next, stepped], .halted _ _ t.caller⟩
  move s t label next related taken := by
    obtain ⟨memory, ⟨stepped, rfl, same⟩ | ⟨call, event, stepped, rfl, completed⟩⟩ := next_continues taken
    · rw [← related.step_eq] at stepped
      refine ⟨⟨next.guest, t.caller.setMemory memory⟩, by simp only [Module.next, stepped], rfl, ?_⟩
      rw [same]
      exact related.caller.setMemory memory
    · rw [← related.step_eq] at stepped
      have eased := related.caller.setMemory memory
      have performed := completed.perform_eq
      rcases eased.perform call with refused | alike
      · cases performed.symm.trans refused
      · have fault := next_call host module stepped
        rw [performed] at alike
        generalize call.perform host (t.caller.setMemory memory) = outcome at alike fault
        cases alike with
        | @ok _ caller' later =>
          refine ⟨⟨next.guest, caller'⟩, ?_, rfl, later⟩
          simp only [fault, eased.event_eq, completed.event_eq]
  fault s t result related taken fine := by
    obtain ⟨call, guest, memory, why, caller', stepped, failed, rfl⟩ := next_fault taken
    rw [← related.step_eq] at stepped
    rcases (related.caller.setMemory memory).perform call with refused | alike
    · cases failed.symm.trans refused
      exact absurd rfl fine
    · have fault := next_call host module stepped
      rw [failed] at alike
      generalize call.perform host (t.caller.setMemory memory) = outcome at alike fault
      cases alike with
      | error => exact ⟨_, fault, .halted why _ _⟩

theorem eased_pays (s t : Running Guest) (after : Except (Stop Guest) (Option HostEvent × Running Guest))
    (related : EasedRunning rOrW s t) (paid : module.next host s = .burn after) :
    ∃ after', module.next host t = .burn after' := by
  cases stepped : module.step s.guest s.caller.memory with
  | done guest memory | trap text => simp [Module.next, stepped] at paid
  | compute guest memory =>
    rw [← related.step_eq] at stepped
    exact ⟨.ok (none, ⟨guest, t.caller.setMemory memory⟩), by simp only [Module.next, stepped]⟩
  | call call guest memory =>
    rw [← related.step_eq] at stepped
    rw [next_call host module stepped]
    split
    · exact ⟨_, rfl⟩
    · exact ⟨_, rfl⟩

inductive AlikeEnds (rOrW : Bool) : Metered.End (Stop Guest) → Metered.End (Stop Guest) → Prop
  | stopped {result result' : Stop Guest} (alike : AlikeStops rOrW result result') (left : ℕ) :
      AlikeEnds rOrW (.stopped result left) (.stopped result' left)
  | exhausted : AlikeEnds rOrW .exhausted .exhausted

def RefusedEnd (rOrW : Bool) (ending : Metered.End (Stop Guest)) : Prop :=
  ∃ caller left, ending = .stopped (.halted (exceeded rOrW) caller) left

theorem run_eased (host : Host) {s t : Running Guest} (related : EasedRunning rOrW s t) (fuel : ℕ) :
    RefusedEnd rOrW (Metered.run (module.next host) fuel s).2 ∨
      AlikeEnds rOrW (Metered.run (module.next host) fuel s).2 (Metered.run (module.next host) fuel t).2 := by
  have pair := eased_lockstep host module rOrW
  cases ended : (Metered.run (module.next host) fuel s).2 with
  | exhausted =>
    rw [pair.run_exhausted eased_pays related ended]
    exact .inr .exhausted
  | stopped result left =>
    have whole : Allowed rOrW result →
        AlikeEnds rOrW (.stopped result left) (Metered.run (module.next host) fuel t).2 := by
      intro fine
      obtain ⟨result', ran, alike⟩ := pair.run related fine (Prod.ext rfl ended)
      rw [ran]
      exact .stopped alike left
    cases result with
    | returned guest caller => exact .inr (whole True.intro)
    | halted why caller =>
      by_cases refused : why = exceeded rOrW
      · exact .inl ⟨caller, left, by rw [refused]⟩
      · exact .inr (whole refused)

theorem AlikeEnds.refused_iff {ending ending' : Metered.End (Stop Guest)} (alike : AlikeEnds rOrW ending ending') :
    RefusedEnd rOrW ending' ↔ RefusedEnd rOrW ending := by
  cases alike with
  | exhausted => rfl
  | stopped alike left =>
    cases alike with
    | returned =>
      constructor
      · rintro ⟨_, _, different⟩; cases different
      · rintro ⟨_, _, different⟩; cases different
    | halted why caller caller' =>
      constructor
      · rintro ⟨_, _, same⟩; cases same; exact ⟨_, _, rfl⟩
      · rintro ⟨_, _, same⟩; cases same; exact ⟨_, _, rfl⟩

theorem AlikeEnds.finishMain_eq {ending ending' : Metered.End (Stop Guest)} (alike : AlikeEnds rOrW ending ending') :
    finishMain ending' = finishMain ending := by
  cases alike with
  | exhausted => rfl
  | stopped alike left =>
    cases alike with
    | returned guest eased => simp only [finishMain, eased.storage]
    | halted why caller caller' => cases why <;> rfl

inductive AlikeStarts (rOrW : Bool) : Except Exit (Running Guest × ℕ) → Except Exit (Running Guest × ℕ) → Prop
  | ok {s s' : Running Guest} (related : EasedRunning rOrW s s') (left : ℕ) :
      AlikeStarts rOrW (.ok (s, left)) (.ok (s', left))
  | error (exit : Exit) : AlikeStarts rOrW (.error exit) (.error exit)

theorem AlikeEnds.finishStart {ending ending' : Metered.End (Stop Guest)} (alike : AlikeEnds rOrW ending ending') :
    AlikeStarts rOrW (finishStart ending) (finishStart ending') := by
  cases alike with
  | exhausted => exact .error _
  | stopped alike left =>
    cases alike with
    | @returned guest caller caller' eased =>
      have related : EasedRunning rOrW ⟨guest, caller⟩ ⟨guest, caller'⟩ := ⟨rfl, eased⟩
      exact .ok related left
    | halted why caller caller' => cases why <;> exact .error _

end Guests

end KontractsProof.Executor
