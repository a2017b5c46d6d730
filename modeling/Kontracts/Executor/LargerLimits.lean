import Kontracts.Executor.Passes
import Kontracts.Executor.Script

namespace KontractsProof.Executor

open Scale KontractsModel.Executor

structure Looser (caller caller' : Caller) : Prop where
  memory : caller'.memory = caller.memory
  storage : caller'.data.storage = caller.data.storage
  reads : caller'.data.currNRead = caller.data.currNRead
  writes : caller'.data.currNWrite = caller.data.currNWrite
  moreReads : caller.data.maxNRead ≤ caller'.data.maxNRead
  moreWrites : caller.data.maxNWrite ≤ caller'.data.maxNWrite

section Calls

variable {host : Host} {caller caller' : Caller}

theorem Looser.setMemory (looser : Looser caller caller') (memory : Option Memory) :
    Looser (caller.setMemory memory) (caller'.setMemory memory) :=
  ⟨rfl, looser.storage, looser.reads, looser.writes, looser.moreReads, looser.moreWrites⟩

theorem Looser.argument_eq (looser : Looser caller caller') (ptr size : UInt32) :
    caller'.argument ptr size = caller.argument ptr size := by
  unfold Caller.argument
  rw [looser.memory]

theorem Looser.completed (looser : Looser caller caller') {call : HostCall} {event : HostEvent} {next : Caller}
    (completed : Completed host caller call event next) :
    ∃ next', Completed host caller' call event next' ∧ Looser next next' := by
  cases completed with
  | @set _ _ _ _ _ key value readKey readValue counted =>
    rw [← looser.argument_eq] at readKey readValue
    rw [← looser.writes] at counted
    refine ⟨_, .set readKey readValue (updateWithCheck_mono looser.moreWrites counted), ?_⟩
    have storage := congrArg (fun m : KontractStorage => m.insert (host.blake2 key).1 value) looser.storage
    exact ⟨looser.memory, storage, looser.reads, rfl,
      looser.moreReads, looser.moreWrites⟩
  | get readKey counted memory room fits =>
    rw [← looser.argument_eq] at readKey
    rw [← looser.reads] at counted
    rw [← looser.storage] at room fits ⊢
    rw [← looser.memory] at memory
    refine ⟨_, .get readKey (updateWithCheck_mono looser.moreReads counted) memory room fits, ?_⟩
    exact ⟨rfl, looser.storage, rfl, looser.writes, looser.moreReads, looser.moreWrites⟩
  | @remove _ _ _ key readKey counted =>
    rw [← looser.argument_eq] at readKey
    rw [← looser.writes] at counted
    refine ⟨_, .remove readKey (updateWithCheck_mono looser.moreWrites counted), ?_⟩
    have storage := congrArg (fun m : KontractStorage => m.remove (host.blake2 key).1) looser.storage
    exact ⟨looser.memory, storage, looser.reads, rfl,
      looser.moreReads, looser.moreWrites⟩

end Calls

section Guests

variable {Guest : Type} {host : Host} {module : Module Guest}

structure LooserRunning (s s' : Running Guest) : Prop where
  guest : s'.guest = s.guest
  caller : Looser s.caller s'.caller

inductive LooserReturn : Stop Guest → Stop Guest → Prop
  | returned {guest : Guest} {caller caller' : Caller} (looser : Looser caller caller') :
      LooserReturn (.returned guest caller) (.returned guest caller')

def Returned : Stop Guest → Prop
  | .returned _ _ => True
  | .halted _ _ => False

theorem LooserRunning.step_eq {s s' : Running Guest} (related : LooserRunning s s') :
    module.step s'.guest s'.caller.memory = module.step s.guest s.caller.memory := by
  rw [related.guest, related.caller.memory]

/-- Guest code sees its memory but not the counters, so larger maxima change none of its steps. -/
theorem next_lockstep (host : Host) (module : Module Guest) :
    Metered.Lockstep (module.next host) (module.next host) LooserRunning LooserReturn Returned where
  stop s t result related taken fine := by
    cases result with
    | halted => exact absurd fine id
    | returned guest caller' =>
      obtain ⟨memory, stepped, rfl⟩ := next_returns taken
      rw [← related.step_eq] at stepped
      refine ⟨.returned guest (t.caller.setMemory memory), ?_, .returned (related.caller.setMemory memory)⟩
      simp only [Module.next, stepped]
  move s t label next related taken := by
    obtain ⟨memory, ⟨stepped, rfl, same⟩ | ⟨call, event, stepped, rfl, completed⟩⟩ := next_continues taken
    · rw [← related.step_eq] at stepped
      refine ⟨⟨next.guest, t.caller.setMemory memory⟩, ?_, rfl, ?_⟩
      · simp only [Module.next, stepped]
      · rw [same]
        exact related.caller.setMemory memory
    · rw [← related.step_eq] at stepped
      obtain ⟨next', completed', looser⟩ := (related.caller.setMemory memory).completed completed
      exact ⟨⟨next.guest, next'⟩, next_completed host module stepped completed', rfl, looser⟩
  fault s t result related taken fine := by
    obtain ⟨_, _, _, why, caller', _, _, rfl⟩ := next_fault taken
    exact absurd fine id

theorem run_looser (extra : ℕ) {fuel left : ℕ} {s s' : Running Guest} {events : List HostEvent} {guest : Guest}
    {caller : Caller} (related : LooserRunning s s')
    (ran : Metered.run (module.next host) fuel s = (events, .stopped (.returned guest caller) left)) :
    ∃ caller', Metered.run (module.next host) (fuel + extra) s' =
      (events, .stopped (.returned guest caller') (left + extra)) ∧ Looser caller caller' := by
  have fine : Returned (.returned guest caller) := True.intro
  obtain ⟨result, ran', same⟩ := (next_lockstep host module).run related fine ran
  cases same with
  | returned looser => exact ⟨_, Metered.run_more_fuel extra ran', looser⟩

theorem instantiate_looser (extra : ℕ) {fuel left : ℕ} {caller caller' : Caller} {events : List HostEvent}
    {instance' : Running Guest} (looser : Looser caller caller')
    (instantiated : instantiate host module fuel caller = (events, .ok (instance', left))) :
    ∃ looserInstance, instantiate host module (fuel + extra) caller' =
      (events, .ok (looserInstance, left + extra)) ∧ LooserRunning instance' looserInstance := by
  obtain ⟨links, ⟨absent, rfl, rfl, rfl⟩ | ⟨enter, defined, ran⟩⟩ := instantiate_runs instantiated
  · refine ⟨⟨module.initial, caller'⟩, ?_, rfl, looser⟩
    simp only [instantiate, links, not_true_eq_false, if_false, absent]
  · have started : LooserRunning ⟨enter module.initial, caller⟩ ⟨enter module.initial, caller'⟩ := ⟨rfl, looser⟩
    obtain ⟨caller'', ran', looser'⟩ := run_looser extra started ran
    refine ⟨⟨instance'.guest, caller''⟩, ?_, rfl, looser'⟩
    simp only [instantiate, links, not_true_eq_false, if_false, defined, ran']

theorem runModule_looser (extra : ℕ) {fuel : ℕ} {caller caller' : Caller} {events : List HostEvent}
    {raw : RawKontractStorage} (looser : Looser caller caller')
    (ran : runModule host module fuel caller = (events, .ok raw)) :
    runModule host module (fuel + extra) caller' = (events, .ok raw) := by
  obtain ⟨before, after, instance', left, enter, guest, final, rest, instantiated, defined, main, rfl, encoded⟩ :=
    runModule_runs ran
  obtain ⟨looserInstance, instantiated', related⟩ := instantiate_looser extra looser instantiated
  have entered : LooserRunning ⟨enter instance'.guest, instance'.caller⟩
      ⟨enter looserInstance.guest, looserInstance.caller⟩ := ⟨congrArg enter related.guest, related.caller⟩
  obtain ⟨final', main', looserFinal⟩ := run_looser extra entered main
  simp only [runModule, instantiated', defined, main', finishMain, looserFinal.storage, encoded]
  rfl

end Guests

section Limits

variable {node : Node} {code : Bytes} {storage out : RawKontractStorage}
  {fuel maxRead maxWrite fuel' maxRead' maxWrite' : UInt32}

theorem larger_limits_traced {events : List HostEvent}
    (ran : traced node code storage fuel maxRead maxWrite = (events, .ok out)) (moreFuel : fuel ≤ fuel')
    (moreReads : maxRead ≤ maxRead') (moreWrites : maxWrite ≤ maxWrite') :
    traced node code storage fuel' maxRead' maxWrite' = (events, .ok out) := by
  obtain ⟨module, decoded, ready, main⟩ := traced_ok ran
  have looser : Looser ⟨freshStore maxRead maxWrite decoded, module.memory⟩
      ⟨freshStore maxRead' maxWrite' decoded, module.memory⟩ := ⟨rfl, rfl, rfl, rfl, moreReads, moreWrites⟩
  obtain ⟨extra, surplus⟩ := Nat.exists_eq_add_of_le (UInt32.le_iff_toNat_le.mp moreFuel)
  rw [traced_eq ready, surplus]
  exact runModule_looser extra looser main

/-- Larger limits leave a successful execution as it was, with the values that its reads delivered. -/
theorem larger_limits_keep_result (returned : executeCode node code storage fuel maxRead maxWrite = .ok out)
    (moreFuel : fuel ≤ fuel') (moreReads : maxRead ≤ maxRead') (moreWrites : maxWrite ≤ maxWrite') :
    executeCode node code storage fuel' maxRead' maxWrite' = .ok out ∧
      hostTrace node code storage fuel' maxRead' maxWrite' = hostTrace node code storage fuel maxRead maxWrite := by
  have same := larger_limits_traced (Prod.ext rfl returned) moreFuel moreReads moreWrites
  have trace := congrArg Prod.fst same
  exact ⟨congrArg Prod.snd same, trace⟩

theorem toggling_larger_limits :
    executeCode localNode togglingCode [0] 20 5 5 =
        .ok ([4, 128] ++ List.replicate 32 0 ++ [4, 0]) ∧
      hostTrace localNode togglingCode [0] 20 5 5 = hostTrace localNode togglingCode [0] 10 1 1 :=
  larger_limits_keep_result (by decide) (by decide) (by decide) (by decide)

end Limits

end KontractsProof.Executor
