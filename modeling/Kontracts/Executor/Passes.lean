import Kontracts.Executor.ExecuteCode
import Kontracts.Executor.HostSpec

namespace KontractsModel.Executor

inductive Phase
  | start
  | main
deriving DecidableEq

/-- The states that the guest code of a module passes through in either phase, with the fuel burned
    and the host calls completed since the start of the execution. -/
inductive Passes {Guest : Type} (host : Host) (module : Module Guest) (fuel : ℕ) (caller : Caller) :
    Phase → ℕ → List HostEvent → Running Guest → Prop
  | start {enter : Guest → Guest} {burned : ℕ} {events : List HostEvent} {s : Running Guest}
      (links : module.links) (defined : module.start = some enter)
      (reached : Metered.Reaches (module.next host) burned ⟨enter module.initial, caller⟩ events s)
      (within : burned ≤ fuel) : Passes host module fuel caller .start burned events s
  | main {enter : Guest → Guest} {instance' : Running Guest} {left burned : ℕ}
      {before events : List HostEvent} {s : Running Guest}
      (instantiated : instantiate host module fuel caller = (before, .ok (instance', left)))
      (defined : module.main = some enter)
      (reached : Metered.Reaches (module.next host) burned ⟨enter instance'.guest, instance'.caller⟩ events s)
      (within : burned ≤ left) :
      Passes host module fuel caller .main (fuel - left + burned) (before ++ events) s

end KontractsModel.Executor

namespace KontractsProof.Executor

open Scale KontractsModel.Executor

variable {Guest : Type} {host : Host} {module : Module Guest} {fuel : ℕ} {caller : Caller}

theorem next_call (host : Host) (module : Module Guest) {s : Running Guest} {call : HostCall} {guest : Guest}
    {memory : Option Memory}
    (stepped : module.step s.guest s.caller.memory = .call call guest memory) :
    module.next host s =
      match call.perform host (s.caller.setMemory memory) with
      | .ok _ caller' => .burn (.ok (call.event host (s.caller.setMemory memory), ⟨guest, caller'⟩))
      | .error why caller' => .burn (.error (.halted why caller')) := by
  cases performed : call.perform host (s.caller.setMemory memory) <;> simp only [Module.next, stepped, performed]

theorem next_completed (host : Host) (module : Module Guest) {s : Running Guest} {call : HostCall} {guest : Guest}
    {memory : Option Memory} {event : HostEvent} {caller' : Caller}
    (stepped : module.step s.guest s.caller.memory = .call call guest memory)
    (completed : Completed host (s.caller.setMemory memory) call event caller') :
    module.next host s = .burn (.ok (some event, ⟨guest, caller'⟩)) := by
  rw [next_call host module stepped, completed.perform_eq]
  simp only [completed.event_eq]

theorem next_continues {s next : Running Guest} {label : Option HostEvent}
    (taken : module.next host s = .burn (.ok (label, next))) :
    ∃ memory, (module.step s.guest s.caller.memory = .compute next.guest memory ∧ label = none ∧
        next.caller = s.caller.setMemory memory) ∨
      ∃ call event, module.step s.guest s.caller.memory = .call call next.guest memory ∧
        label = some event ∧ Completed host (s.caller.setMemory memory) call event next.caller := by
  cases stepped : module.step s.guest s.caller.memory with
  | done guest memory | trap text => simp [Module.next, stepped] at taken
  | compute guest memory =>
    simp only [Module.next, stepped, Metered.Step.burn.injEq, Except.ok.injEq, Prod.mk.injEq] at taken
    obtain ⟨rfl, rfl⟩ := taken
    exact ⟨memory, .inl ⟨rfl, rfl, rfl⟩⟩
  | call call guest memory =>
    rw [next_call host module stepped] at taken
    split at taken
    · rename_i caller' performed
      simp only [Metered.Step.burn.injEq, Except.ok.injEq, Prod.mk.injEq] at taken
      obtain ⟨rfl, rfl⟩ := taken
      obtain ⟨event, completed⟩ := perform_ok host _ performed
      exact ⟨memory, .inr ⟨call, event, rfl, completed.event_eq, completed⟩⟩
    · cases taken

theorem next_returns {s : Running Guest} {guest : Guest} {caller' : Caller}
    (taken : module.next host s = .stop (.returned guest caller')) :
    ∃ memory, module.step s.guest s.caller.memory = .done guest memory ∧
      caller' = s.caller.setMemory memory := by
  cases stepped : module.step s.guest s.caller.memory with
  | done guest' memory =>
    simp only [Module.next, stepped, Metered.Step.stop.injEq, Stop.returned.injEq] at taken
    obtain ⟨rfl, rfl⟩ := taken
    exact ⟨memory, rfl, rfl⟩
  | trap text | compute guest' memory => simp [Module.next, stepped] at taken
  | call call guest' memory =>
    rw [next_call host module stepped] at taken
    split at taken <;> cases taken

theorem next_fault {s : Running Guest} {stop : Stop Guest} (taken : module.next host s = .burn (.error stop)) :
    ∃ call guest memory why caller', module.step s.guest s.caller.memory = .call call guest memory ∧
      call.perform host (s.caller.setMemory memory) = .error why caller' ∧ stop = .halted why caller' := by
  cases stepped : module.step s.guest s.caller.memory with
  | done guest' memory | trap text | compute guest' memory => simp [Module.next, stepped] at taken
  | call call guest' memory =>
    rw [next_call host module stepped] at taken
    split at taken
    · cases taken
    · rename_i why caller' failed
      simp only [Metered.Step.burn.injEq, Except.error.injEq] at taken
      exact ⟨call, guest', memory, why, caller', rfl, failed, taken.symm⟩

theorem run_returned {left : ℕ} {first : Running Guest} {events : List HostEvent} {guest : Guest}
    {caller' : Caller}
    (ran : Metered.run (module.next host) fuel first = (events, .stopped (.returned guest caller') left)) :
    ∃ burned s, Metered.Reaches (module.next host) burned first events s ∧
      module.next host s = .stop (.returned guest caller') ∧ burned ≤ fuel ∧ left = fuel - burned := by
  obtain ⟨burned, s, reached, ended⟩ := Metered.run_reaches (module.next host) fuel first
  rw [ran] at reached ended
  simp only at reached ended
  generalize ending : Metered.End.stopped (Stop.returned guest caller') left = final at ended
  cases ended with
  | stop here enough =>
    cases ending
    exact ⟨burned, s, reached, here, enough, rfl⟩
  | fault here =>
    cases ending
    obtain ⟨_, _, _, _, _, _, _, different⟩ := next_fault here
    cases different
  | exhausted => cases ending

def finishStart : Metered.End (Stop Guest) → Except Exit (Running Guest × ℕ)
  | .stopped (.returned guest caller') left => .ok (⟨guest, caller'⟩, left)
  | .stopped (.halted (.panic panic) _) _ => .error (.panic panic)
  | .stopped (.halted (.trap _) _) _ | .exhausted => .error (.error .impossibleCreateInstance)

theorem instantiate_start (host : Host) (fuel : ℕ) (caller : Caller) {enter : Guest → Guest} (links : module.links)
    (defined : module.start = some enter) :
    instantiate host module fuel caller =
      ((Metered.run (module.next host) fuel ⟨enter module.initial, caller⟩).1,
        finishStart (Metered.run (module.next host) fuel ⟨enter module.initial, caller⟩).2) := by
  simp only [instantiate, links, not_true_eq_false, if_false, defined]
  split <;> rename_i ending <;> rw [ending] <;> rfl

theorem instantiate_cases (host : Host) (module : Module Guest) (fuel : ℕ) (caller : Caller) :
    instantiate host module fuel caller = ([], .error (.error .impossibleCreateInstance)) ∨
      module.links ∧ module.start = none ∧
        instantiate host module fuel caller = ([], .ok (⟨module.initial, caller⟩, fuel)) ∨
      module.links ∧ ∃ enter events ending, module.start = some enter ∧
        Metered.run (module.next host) fuel ⟨enter module.initial, caller⟩ = (events, ending) ∧
        instantiate host module fuel caller = (events, finishStart ending) := by
  by_cases links : module.links
  · cases defined : module.start with
    | none => exact .inr (.inl ⟨links, rfl, by simp only [instantiate, links, defined, not_true_eq_false, if_false]⟩)
    | some enter => exact .inr (.inr ⟨links, enter, _, _, rfl, rfl, instantiate_start host fuel caller links defined⟩)
  · exact .inl (by rw [instantiate, if_pos links])

theorem finishStart_ok {ending : Metered.End (Stop Guest)} {instance' : Running Guest} {left : ℕ}
    (finished : finishStart ending = .ok (instance', left)) :
    ending = .stopped (.returned instance'.guest instance'.caller) left := by
  unfold finishStart at finished
  split at finished <;> cases finished
  rfl

theorem instantiate_runs {events : List HostEvent} {instance' : Running Guest} {left : ℕ}
    (instantiated : instantiate host module fuel caller = (events, .ok (instance', left))) :
    module.links ∧
      (module.start = none ∧ events = [] ∧ instance' = ⟨module.initial, caller⟩ ∧ left = fuel ∨
        ∃ enter, module.start = some enter ∧
          Metered.run (module.next host) fuel ⟨enter module.initial, caller⟩ =
            (events, .stopped (.returned instance'.guest instance'.caller) left)) := by
  rcases instantiate_cases host module fuel caller with same | ⟨links, defined, same⟩ |
    ⟨links, enter, _, ending, defined, ran, same⟩
  · cases instantiated.symm.trans same
  · cases instantiated.symm.trans same
    exact ⟨links, .inl ⟨defined, rfl, rfl, rfl⟩⟩
  · obtain ⟨rfl, finished⟩ := Prod.mk.inj (same.symm.trans instantiated)
    rw [finishStart_ok finished] at ran
    exact ⟨links, .inr ⟨enter, defined, ran⟩⟩

theorem instantiate_ok {events : List HostEvent} {instance' : Running Guest} {left : ℕ}
    (instantiated : instantiate host module fuel caller = (events, .ok (instance', left))) :
    (module.start = none ∧ events = [] ∧ instance' = ⟨module.initial, caller⟩ ∧ left = fuel) ∨
    ∃ burned s, Passes host module fuel caller .start burned events s ∧
      module.next host s = .stop (.returned instance'.guest instance'.caller) ∧
      burned ≤ fuel ∧ left = fuel - burned := by
  obtain ⟨links, absent | ⟨enter, defined, ran⟩⟩ := instantiate_runs instantiated
  · exact .inl absent
  · obtain ⟨burned, s, reached, here, within, spent⟩ := run_returned ran
    exact .inr ⟨burned, s, .start links defined reached within, here, within, spent⟩

theorem runModule_cases (host : Host) (module : Module Guest) (fuel : ℕ) (caller : Caller) :
    (∃ events exit, instantiate host module fuel caller = (events, .error exit) ∧
        runModule host module fuel caller = (events, .error exit)) ∨
      ∃ before instance' left, instantiate host module fuel caller = (before, .ok (instance', left)) ∧
        (module.main = none ∧
            runModule host module fuel caller = (before, .error (.error .mainEntryPointNotDefined)) ∨
          ∃ enter after ending, module.main = some enter ∧
            Metered.run (module.next host) left ⟨enter instance'.guest, instance'.caller⟩ = (after, ending) ∧
            runModule host module fuel caller = (before ++ after, finishMain ending)) := by
  cases instantiated : instantiate host module fuel caller with
  | mk events outcome =>
  cases outcome with
  | error exit => exact .inl ⟨events, exit, rfl, by simp only [runModule, instantiated]⟩
  | ok both =>
    obtain ⟨instance', left⟩ := both
    refine .inr ⟨events, instance', left, rfl, ?_⟩
    cases defined : module.main with
    | none => exact .inl ⟨rfl, by simp only [runModule, instantiated, defined]⟩
    | some enter => exact .inr ⟨enter, _, _, rfl, rfl, by simp only [runModule, instantiated, defined]⟩

theorem finishMain_ok {ending : Metered.End (Stop Guest)} {raw : RawKontractStorage}
    (finished : finishMain ending = .ok raw) :
    ∃ guest caller' rest, ending = .stopped (.returned guest caller') rest ∧
      encodeKontractStorage caller'.data.storage = .ok raw := by
  unfold finishMain at finished
  split at finished
  · rename_i guest caller' rest
    refine ⟨guest, caller', rest, rfl, ?_⟩
    cases encoded : encodeKontractStorage caller'.data.storage with
    | error panic => rw [encoded] at finished; cases finished
    | ok bytes => rw [encoded] at finished; exact congrArg _ (Except.ok.inj finished)
  · cases finished
  · cases finished
  · cases finished

theorem runModule_runs {events : List HostEvent} {raw : RawKontractStorage}
    (ran : runModule host module fuel caller = (events, .ok raw)) :
    ∃ before after instance' left enter guest caller' rest,
      instantiate host module fuel caller = (before, .ok (instance', left)) ∧ module.main = some enter ∧
        Metered.run (module.next host) left ⟨enter instance'.guest, instance'.caller⟩ =
          (after, .stopped (.returned guest caller') rest) ∧
        events = before ++ after ∧ encodeKontractStorage caller'.data.storage = .ok raw := by
  rcases runModule_cases host module fuel caller with ⟨_, _, -, same⟩ |
    ⟨before, instance', left, instantiated, ⟨-, same⟩ | ⟨enter, after, ending, defined, main, same⟩⟩
  · cases ran.symm.trans same
  · cases ran.symm.trans same
  · obtain ⟨rfl, finished⟩ := Prod.mk.inj (same.symm.trans ran)
    obtain ⟨guest, caller', rest, rfl, encoded⟩ := finishMain_ok finished
    exact ⟨before, after, instance', left, enter, guest, caller', rest, instantiated, defined, main, rfl, encoded⟩

theorem runModule_ok {events : List HostEvent} {raw : RawKontractStorage}
    (ran : runModule host module fuel caller = (events, .ok raw)) :
    ∃ burned s guest caller', Passes host module fuel caller .main burned events s ∧
      module.next host s = .stop (.returned guest caller') ∧
      encodeKontractStorage caller'.data.storage = .ok raw := by
  obtain ⟨before, after, instance', left, enter, guest, caller', rest, instantiated, defined, main, rfl, encoded⟩ :=
    runModule_runs ran
  obtain ⟨burned, s, reached, here, within, -⟩ := run_returned main
  exact ⟨_, s, guest, caller', .main instantiated defined reached within, here, encoded⟩

section Errors

def runErrors : List ExecutionErrors :=
  [.impossibleCreateInstance, .mainEntryPointNotDefined, .wasmPanic, .outOfFuel, .outOfReads, .outOfWrites]

variable {error : ExecutionErrors}

theorem instantiate_error (failed : (instantiate host module fuel caller).2 = .error (.error error)) :
    error = .impossibleCreateInstance := by
  rcases instantiate_cases host module fuel caller with same | ⟨-, -, same⟩ | ⟨-, _, _, ending, -, -, same⟩
  · rw [same] at failed
    cases failed
    rfl
  · rw [same] at failed
    cases failed
  · rw [same] at failed
    dsimp only at failed
    unfold finishStart at failed
    split at failed <;> cases failed
    · rfl
    · rfl

theorem classify_mem (reason : String) : classify reason ∈ runErrors := by
  unfold classify
  split <;> simp [runErrors]

theorem finishMain_error {ending : Metered.End (Stop Guest)} (failed : finishMain ending = .error (.error error)) :
    error ∈ runErrors := by
  unfold finishMain at failed
  split at failed
  · rename_i guest caller' rest
    cases encoded : encodeKontractStorage caller'.data.storage with
    | error panic => rw [encoded] at failed; cases failed
    | ok raw => rw [encoded] at failed; cases failed
  · cases failed
  · cases failed
    exact classify_mem _
  · cases failed
    exact classify_mem _

theorem runModule_error (failed : (runModule host module fuel caller).2 = .error (.error error)) :
    error ∈ runErrors := by
  rcases runModule_cases host module fuel caller with ⟨_, _, instantiated, same⟩ |
    ⟨_, _, _, -, ⟨-, same⟩ | ⟨_, _, ending, -, -, same⟩⟩
  · rw [same] at failed
    cases failed
    rw [instantiate_error (congrArg Prod.snd instantiated)]
    exact List.mem_cons_self
  · rw [same] at failed
    cases failed
    simp [runErrors]
  · rw [same] at failed
    exact finishMain_error failed

end Errors

theorem instantiate_left_le {events : List HostEvent} {instance' : Running Guest} {left : ℕ}
    (instantiated : instantiate host module fuel caller = (events, .ok (instance', left))) : left ≤ fuel := by
  rcases instantiate_ok instantiated with ⟨-, -, -, rfl⟩ | ⟨burned, _, _, _, _, rfl⟩
  · exact Nat.le_refl _
  · exact Nat.sub_le _ _

theorem passes_within {phase : Phase} {burned : ℕ} {events : List HostEvent} {s : Running Guest}
    (passes : Passes host module fuel caller phase burned events s) : burned ≤ fuel := by
  cases passes with
  | start links defined reached within => exact within
  | main instantiated defined reached within =>
    have small := instantiate_left_le instantiated
    omega

theorem start_ends {burned : ℕ} {events : List HostEvent} {s : Running Guest} {ending : Metered.End (Stop Guest)}
    (passes : Passes host module fuel caller .start burned events s)
    (ended : Metered.Ended (module.next host) fuel burned s ending) :
    instantiate host module fuel caller = (events, finishStart ending) := by
  cases passes with
  | start links defined reached within => rw [instantiate_start host fuel caller links defined, reached.run_ended ended]

theorem main_ends {burned : ℕ} {events : List HostEvent} {s : Running Guest} {ending : Metered.End (Stop Guest)}
    (passes : Passes host module fuel caller .main burned events s)
    (ended : Metered.Ended (module.next host) fuel burned s ending) :
    runModule host module fuel caller = (events, finishMain ending) := by
  cases passes with
  | @main enter instance' left burnedMain before after _ instantiated defined reached within =>
    obtain ⟨spent, rfl⟩ := Nat.exists_eq_add_of_le (instantiate_left_le instantiated)
    rw [Nat.add_sub_cancel_left, Nat.add_comm spent burnedMain] at ended
    have ran := reached.run_ended ((Metered.ended_add spent).mp ended)
    simp only [runModule, instantiated, defined, ran]

theorem main_fault {burned : ℕ} {events : List HostEvent} {s : Running Guest} {stop : Stop Guest}
    (passes : Passes host module fuel caller .main burned events s) (funded : burned < fuel)
    (failed : module.next host s = .burn (.error stop)) :
    ∃ left, runModule host module fuel caller = (events, finishMain (.stopped stop left)) :=
  ⟨_, main_ends passes (.fault failed funded)⟩

theorem main_stop {burned : ℕ} {events : List HostEvent} {s : Running Guest} {stop : Stop Guest}
    (passes : Passes host module fuel caller .main burned events s) (here : module.next host s = .stop stop) :
    ∃ left, runModule host module fuel caller = (events, finishMain (.stopped stop left)) :=
  ⟨_, main_ends passes (.stop here (passes_within passes))⟩

theorem start_fault {burned : ℕ} {events : List HostEvent} {s : Running Guest} {why : Halt} {caller' : Caller}
    (passes : Passes host module fuel caller .start burned events s) (funded : burned < fuel)
    (failed : module.next host s = .burn (.error (.halted why caller'))) :
    runModule host module fuel caller =
      (events, .error (match why with
        | .panic panic => .panic panic
        | .trap _ => .error .impossibleCreateInstance)) := by
  rw [runModule, start_ends passes (.fault failed funded)]
  cases why <;> rfl

theorem passes_prefix {phase : Phase} {burned : ℕ} {events : List HostEvent} {s : Running Guest}
    (passes : Passes host module fuel caller phase burned events s) :
    ∃ later, (runModule host module fuel caller).1 = events ++ later := by
  cases passes with
  | @start enter _ _ _ links defined reached within =>
    obtain ⟨rest, rfl⟩ := Nat.exists_eq_add_of_le within
    have ran := congrArg Prod.fst (reached.run_eq rest)
    have instantiated : (instantiate host module (burned + rest) caller).1 =
        events ++ (Metered.run (module.next host) rest s).1 := by
      rw [instantiate_start host _ caller links defined]
      exact ran
    unfold runModule
    generalize instantiate host module (burned + rest) caller = outcome at instantiated ⊢
    obtain ⟨before, ending⟩ := outcome
    simp only at instantiated
    subst instantiated
    cases ending with
    | error exit => exact ⟨_, rfl⟩
    | ok both =>
      cases module.main with
      | none => exact ⟨_, rfl⟩
      | some enter => exact ⟨_, List.append_assoc _ _ _⟩
  | @main enter instance' left burnedMain before after _ instantiated defined reached within =>
    obtain ⟨rest, rfl⟩ := Nat.exists_eq_add_of_le within
    have ran := congrArg Prod.fst (reached.run_eq rest)
    refine ⟨(Metered.run (module.next host) rest s).1, ?_⟩
    simp only [runModule, instantiated, defined, ran, List.append_assoc]

section Tracking

variable {inv : ℕ → List HostEvent → Caller → Prop}

/-- What has to be shown of an invariant over whole executions: the guest may change its memory and
    burn fuel as it likes, and every completed host call keeps it. -/
structure Tracked (host : Host) (inv : ℕ → List HostEvent → Caller → Prop) : Prop where
  memory : ∀ burned events caller memory, inv burned events caller →
    inv burned events (caller.setMemory memory)
  burned : ∀ burned events caller, inv burned events caller → inv (burned + 1) events caller
  called : ∀ burned events caller call event caller', Completed host caller call event caller' →
    inv burned events caller → inv (burned + 1) (events ++ [event]) caller'

theorem Tracked.next (tracked : Tracked host inv) (n : ℕ) (events : List HostEvent)
    (s : Running Guest) (label : Option HostEvent) (next : Running Guest)
    (taken : module.next host s = .burn (.ok (label, next))) (holds : inv n events s.caller) :
    inv (n + 1) (events ++ label.toList) next.caller := by
  obtain ⟨memory, ⟨-, rfl, same⟩ | ⟨call, event, -, rfl, completed⟩⟩ := next_continues taken
  · rw [same, Option.toList_none, List.append_nil]
    exact tracked.burned _ _ _ (tracked.memory _ _ _ _ holds)
  · exact tracked.called _ _ _ _ _ _ completed (tracked.memory _ _ _ _ holds)

theorem Tracked.reaches (tracked : Tracked host inv) {n burned : ℕ} {first last : Running Guest}
    {past events : List HostEvent} (reached : Metered.Reaches (module.next host) n first events last)
    (start : inv burned past first.caller) : inv (burned + n) (past ++ events) last.caller :=
  reached.tracks (fun n events s => inv n events s.caller) tracked.next start

theorem Tracked.returned (tracked : Tracked host inv) {n : ℕ} {events : List HostEvent} {s : Running Guest}
    {guest : Guest} {caller' : Caller} (here : module.next host s = .stop (.returned guest caller'))
    (holds : inv n events s.caller) : inv n events caller' := by
  obtain ⟨memory, -, rfl⟩ := next_returns here
  exact tracked.memory _ _ _ _ holds

theorem Tracked.instantiated (tracked : Tracked host inv) {events : List HostEvent}
    {instance' : Running Guest} {left : ℕ} (initial : inv 0 [] caller)
    (instantiated : instantiate host module fuel caller = (events, .ok (instance', left))) :
    inv (fuel - left) events instance'.caller := by
  rcases instantiate_ok instantiated with ⟨-, rfl, rfl, rfl⟩ | ⟨burned, s, passes, here, within, rfl⟩
  · rwa [Nat.sub_self]
  · cases passes with
    | start links defined reached =>
      have last := tracked.reaches reached initial
      simp only [Nat.zero_add, List.nil_append] at last
      rw [Nat.sub_sub_self within]
      exact tracked.returned here last

theorem Tracked.passes (tracked : Tracked host inv) (initial : inv 0 [] caller) {phase : Phase}
    {burned : ℕ} {events : List HostEvent} {s : Running Guest}
    (passes : Passes host module fuel caller phase burned events s) : inv burned events s.caller := by
  cases passes with
  | start links defined reached =>
    have last := tracked.reaches reached initial
    rwa [Nat.zero_add, List.nil_append] at last
  | main instantiated defined reached =>
    have entered := tracked.instantiated initial instantiated
    exact tracked.reaches reached entered

end Tracking

section Preparation

def freshStore (maxRead maxWrite : UInt32) (storage : KontractStorage) : KontractStore :=
  { maxNRead := maxRead, maxNWrite := maxWrite, currNRead := 0, currNWrite := 0, storage := storage }

structure Prepared (node : Node) (code : Bytes) (storage : RawKontractStorage) (module : Module node.wasmtime.Guest)
    (decoded : KontractStorage) : Prop where
  engine : node.wasmtime.engineNew
  compiled : node.wasmtime.moduleNew code = some module
  decoded : ∃ rest, decodeKontractStorage storage = some (decoded, rest)
  fuelled : node.wasmtime.addFuel
  wrapped : ∀ name ∈ ["set", "get", "remove"], node.wasmtime.funcWrap name

theorem prepare_iff {node : Node} {code : Bytes} {storage : RawKontractStorage} {maxRead maxWrite : UInt32}
    {module : Module node.wasmtime.Guest} {store : KontractStore} :
    prepare node code storage maxRead maxWrite = .ok (module, store) ↔
      ∃ decoded, Prepared node code storage module decoded ∧ store = freshStore maxRead maxWrite decoded := by
  constructor
  · intro prepared
    unfold prepare at prepared
    simp only [Bind.bind, Except.bind, pure, Except.pure, throw, throwThe, MonadExceptOf.throw] at prepared
    split at prepared
    · cases prepared
    rename_i engine
    split at prepared
    · rename_i compiled found
      split at prepared
      · rename_i decoded rest read
        split_ifs at prepared with fuelled set get remove
        cases prepared
        refine ⟨decoded, ⟨by simpa using engine, found, ⟨rest, read⟩, by simpa using fuelled, ?_⟩, rfl⟩
        simpa using And.intro set (And.intro get remove)
      · cases prepared
    · cases prepared
  · rintro ⟨decoded, ready, rfl⟩
    obtain ⟨rest, read⟩ := ready.decoded
    have set := ready.wrapped "set" (by simp)
    have get := ready.wrapped "get" (by simp)
    have remove := ready.wrapped "remove" (by simp)
    simp only [prepare, ready.engine, ready.compiled, read, ready.fuelled, set, get, remove, not_true_eq_false,
      if_false]
    rfl

theorem prepare_error {node : Node} {code : Bytes} {storage : RawKontractStorage} {maxRead maxWrite : UInt32}
    {error : ExecutionErrors} (wrapped : ∀ name ∈ ["set", "get", "remove"], node.wasmtime.funcWrap name)
    (readable : ∃ read, decodeKontractStorage storage = some read)
    (failed : prepare node code storage maxRead maxWrite = .error error) :
    error ∈ [.impossibleCreateEngine, .incorrecBinary, .impossibleAddFuel] := by
  obtain ⟨⟨decoded, rest⟩, read⟩ := readable
  have set := wrapped "set" (by simp)
  have get := wrapped "get" (by simp)
  have remove := wrapped "remove" (by simp)
  unfold prepare at failed
  simp only [Bind.bind, Except.bind, pure, Except.pure, throw, throwThe, MonadExceptOf.throw, read, set, get, remove,
    not_true_eq_false, if_false] at failed
  split at failed
  · cases failed
    simp
  · split at failed
    · split at failed <;> cases failed
      simp
    · cases failed
      simp

end Preparation

theorem traced_ok {node : Node} {code : Bytes} {storage raw : RawKontractStorage}
    {budget maxRead maxWrite : UInt32} {events : List HostEvent}
    (ran : traced node code storage budget maxRead maxWrite = (events, .ok raw)) :
    ∃ module decoded, Prepared node code storage module decoded ∧
      runModule node.toHost module budget.toNat ⟨freshStore maxRead maxWrite decoded, module.memory⟩ =
        (events, .ok raw) := by
  unfold traced at ran
  split at ran
  · cases ran
  · rename_i module store prepared
    obtain ⟨decoded, ready, rfl⟩ := prepare_iff.mp prepared
    exact ⟨module, decoded, ready, ran⟩

theorem traced_eq {node : Node} {code : Bytes} {storage : RawKontractStorage} {module : Module node.wasmtime.Guest}
    {decoded : KontractStorage} (ready : Prepared node code storage module decoded)
    (budget maxRead maxWrite : UInt32) :
    traced node code storage budget maxRead maxWrite =
      runModule node.toHost module budget.toNat ⟨freshStore maxRead maxWrite decoded, module.memory⟩ := by
  simp only [traced, prepare_iff.mpr ⟨decoded, ready, rfl⟩]

theorem executeCode_error {node : Node} {code : Bytes} {storage : RawKontractStorage}
    {budget maxRead maxWrite : UInt32} {error : ExecutionErrors}
    (wrapped : ∀ name ∈ ["set", "get", "remove"], node.wasmtime.funcWrap name)
    (readable : ∃ read, decodeKontractStorage storage = some read)
    (failed : executeCode node code storage budget maxRead maxWrite = .error (.error error)) :
    error ∈ [.impossibleCreateEngine, .incorrecBinary, .impossibleAddFuel] ++ runErrors := by
  unfold executeCode traced at failed
  split at failed
  · rename_i error' prepared
    cases failed
    exact List.mem_append_left _ (prepare_error wrapped readable prepared)
  · exact List.mem_append_right _ (runModule_error failed)

theorem executeCode_encoded {node : Node} {code : Bytes} {storage raw : RawKontractStorage}
    {budget maxRead maxWrite : UInt32} (ran : executeCode node code storage budget maxRead maxWrite = .ok raw) :
    ∃ final, encodeKontractStorage final = .ok raw := by
  obtain ⟨module, decoded, -, ran⟩ := traced_ok (Prod.ext rfl ran)
  obtain ⟨_, _, _, caller', _, _, encoded⟩ := runModule_ok ran
  exact ⟨caller'.data.storage, encoded⟩

theorem executeCode_tracks {node : Node} {code : Bytes} {storage raw : RawKontractStorage}
    {budget maxRead maxWrite : UInt32} {inv : ℕ → List HostEvent → Caller → Prop} (tracked : Tracked node.toHost inv)
    (initial : ∀ module decoded, Prepared node code storage module decoded →
      inv 0 [] ⟨freshStore maxRead maxWrite decoded, module.memory⟩)
    (ran : executeCode node code storage budget maxRead maxWrite = .ok raw) :
    ∃ burned caller, inv burned (hostTrace node code storage budget maxRead maxWrite) caller ∧
      encodeKontractStorage caller.data.storage = .ok raw := by
  obtain ⟨module, decoded, ready, ran⟩ := traced_ok (Prod.ext rfl ran)
  obtain ⟨burned, s, guest, caller', passes, here, encoded⟩ := runModule_ok ran
  exact ⟨burned, caller', tracked.returned here (tracked.passes (initial module decoded ready) passes), encoded⟩

end KontractsProof.Executor
