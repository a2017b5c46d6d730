import Kontracts.Executor.Limits

namespace KontractsModel.Executor

inductive Resource
  | calls (rOrW : Bool)
  | fuel

def Resource.error : Resource → ExecutionErrors
  | .calls rOrW => limitReached rOrW
  | .fuel => .outOfFuel

def Resource.trap : Resource → Trap
  | .calls rOrW => .message (if rOrW then "ExceededWrites" else "ExceededReads")
  | .fuel => .outOfFuel

section Guests

variable {Guest : Type} (host : Host) (module : Module Guest) (fuel burned : ℕ)

/-- Guest code stops at a state because a host call would be one more of its kind than the limit, or
    because its next step needs fuel and none is left. -/
inductive Exhausts (limit : Bool → UInt32) (events : List HostEvent) (s : Running Guest) : Resource → Prop
  | calls {call : HostCall} {guest : Guest} {memory : Option Memory} (funded : burned < fuel)
      (called : module.step s.guest s.caller.memory = .call call guest memory)
      (readable : (call.event host (s.caller.setMemory memory)).isSome)
      (used : completedCalls call.rOrW events = (limit call.rOrW).toNat) :
      Exhausts limit events s (.calls call.rOrW)
  | fuel {after : Except (Stop Guest) (Option HostEvent × Running Guest)} (spent : burned = fuel)
      (burns : module.next host s = .burn after) : Exhausts limit events s .fuel

inductive Traps (s : Running Guest) : Trap → Prop
  | instruction {text : String} (stepped : module.step s.guest s.caller.memory = .trap text) :
      Traps s (.instruction text)
  | call {call : HostCall} {guest : Guest} {memory : Option Memory} {trap : Trap} {caller' : Caller}
      (funded : burned < fuel) (called : module.step s.guest s.caller.memory = .call call guest memory)
      (failed : call.perform host (s.caller.setMemory memory) = .error (.trap trap) caller') : Traps s trap
  | fuel {after : Except (Stop Guest) (Option HostEvent × Running Guest)} (spent : burned = fuel)
      (burns : module.next host s = .burn after) : Traps s .outOfFuel

end Guests

end KontractsModel.Executor

namespace KontractsProof.Executor

open Scale KontractsModel.Executor

section Traps

variable {Guest : Type} {host : Host} {module : Module Guest} {fuel burned : ℕ} {events : List HostEvent}
  {caller : Caller} {s : Running Guest} {trap : Trap}

theorem traps_end (within : burned ≤ fuel) (traps : Traps host module fuel burned s trap) :
    ∃ ending, Metered.Ended (module.next host) fuel burned s ending ∧
      finishStart ending = .error (.error .impossibleCreateInstance) ∧
      finishMain ending = .error (.error (classify trap.displayReason)) := by
  cases traps with
  | @instruction text stepped =>
    have here : module.next host s = .stop (.halted (.trap (.instruction text)) s.caller) := by
      simp only [Module.next, stepped]
    exact ⟨_, .stop here within, rfl, rfl⟩
  | call funded called failed =>
    have fault := next_call host module called
    rw [failed] at fault
    exact ⟨_, .fault fault funded, rfl, rfl⟩
  | fuel spent burns => exact ⟨_, .exhausted burns spent, rfl, rfl⟩

theorem start_traps (passes : Passes host module fuel caller .start burned events s)
    (traps : Traps host module fuel burned s trap) :
    runModule host module fuel caller = (events, .error (.error .impossibleCreateInstance)) := by
  obtain ⟨ending, ended, unstarted, -⟩ := traps_end (passes_within passes) traps
  rw [runModule, start_ends passes ended, unstarted]

theorem main_traps (passes : Passes host module fuel caller .main burned events s)
    (traps : Traps host module fuel burned s trap) :
    runModule host module fuel caller = (events, .error (.error (classify trap.displayReason))) := by
  obtain ⟨ending, ended, -, finished⟩ := traps_end (passes_within passes) traps
  rw [main_ends passes ended, finished]

theorem Counted.exhausts_traps {limit : Bool → UInt32} {resource : Resource}
    (counted : Counted limit burned events s.caller) (small : fuel < 2 ^ 32)
    (exhausts : Exhausts host module fuel burned limit events s resource) :
    Traps host module fuel burned s resource.trap := by
  cases exhausts with
  | @calls call guest memory funded called readable used =>
    obtain ⟨caller', refused⟩ :=
      ((counted.setMemory memory).refused_iff (Nat.lt_of_le_of_lt funded small) readable).mpr used
    exact .call funded called refused
  | fuel spent burns => exact .fuel spent burns

theorem classify_resource (resource : Resource) : classify resource.trap.displayReason = resource.error := by
  cases resource with
  | fuel => rfl
  | calls rOrW => cases rOrW <;> rfl

theorem classify_instruction (text : String) : classify (Trap.instruction text).displayReason = .wasmPanic := by
  have head : (Trap.instruction text).displayReason.toList.head? = some 'w' := by
    simp [Trap.displayReason]
  generalize (Trap.instruction text).displayReason = reason at head
  unfold classify
  split
  · simp at head
  · simp at head
  · simp at head
  · rfl

theorem Counted.classify_other {limit : Bool → UInt32} (counted : Counted limit burned events s.caller)
    (small : fuel < 2 ^ 32) (traps : Traps host module fuel burned s trap)
    (other : ∀ resource, ¬ Exhausts host module fuel burned limit events s resource) :
    classify trap.displayReason = .wasmPanic := by
  cases traps with
  | instruction => exact classify_instruction _
  | @call call guest memory _ _ funded called failed =>
    have small' : burned + 1 < 2 ^ 32 := Nat.lt_of_le_of_lt funded small
    rcases (counted.setMemory memory).trapped small' failed with ⟨readable, used⟩ | unreadable | unwritable
    · exact absurd (.calls funded called readable used) (other _)
    · cases unreadable
      rfl
    · cases unwritable
      rfl
  | fuel spent burns => exact absurd (.fuel spent burns) (other _)

end Traps

section Reports

variable (node : Node) (code : Bytes) (storage : RawKontractStorage) (fuel maxRead maxWrite : UInt32)

def GuestAt (module : Module node.wasmtime.Guest) (phase : Phase) (burned : ℕ) (events : List HostEvent)
    (s : Running node.wasmtime.Guest) : Prop :=
  ∃ decoded, Prepared node code storage module decoded ∧
    Passes node.toHost module fuel.toNat ⟨freshStore maxRead maxWrite decoded, module.memory⟩ phase burned events s

def ExhaustsLimits (module : Module node.wasmtime.Guest) (burned : ℕ) (events : List HostEvent)
    (s : Running node.wasmtime.Guest) (resource : Resource) : Prop :=
  Exhausts node.toHost module fuel.toNat burned (fun rOrW => if rOrW then maxWrite else maxRead) events s resource

/-- Whatever guest code is running: a resource that it exhausts is named in the error, and no other
    trap is reported so. -/
structure ReportsExhaustion : Prop where
  exhausted : ∀ {module phase burned events s resource},
    GuestAt node code storage fuel maxRead maxWrite module phase burned events s →
    ExhaustsLimits node fuel maxRead maxWrite module burned events s resource →
    executeCode node code storage fuel maxRead maxWrite = .error (.error resource.error)
  others : ∀ {module phase burned events s trap},
    GuestAt node code storage fuel maxRead maxWrite module phase burned events s →
    Traps node.toHost module fuel.toNat burned s trap →
    (∀ resource, ¬ ExhaustsLimits node fuel maxRead maxWrite module burned events s resource) →
    ∀ resource : Resource, executeCode node code storage fuel maxRead maxWrite ≠ .error (.error resource.error)

def StartWithinLimits : Prop :=
  ∀ module burned events s resource,
    GuestAt node code storage fuel maxRead maxWrite module .start burned events s →
    ¬ ExhaustsLimits node fuel maxRead maxWrite module burned events s resource

variable {node code storage fuel maxRead maxWrite} {module : Module node.wasmtime.Guest} {phase : Phase} {burned : ℕ}
  {events : List HostEvent} {s : Running node.wasmtime.Guest} {trap : Trap} {resource : Resource}

theorem guest_counted (here : GuestAt node code storage fuel maxRead maxWrite module phase burned events s) :
    Counted (fun rOrW => if rOrW then maxWrite else maxRead) burned events s.caller := by
  obtain ⟨decoded, ready, passes⟩ := here
  have limits : (freshStore maxRead maxWrite decoded).limit = fun rOrW => if rOrW then maxWrite else maxRead := by
    funext rOrW
    cases rOrW <;> rfl
  rw [← limits]
  exact passes_counted passes

theorem guest_start_traps (here : GuestAt node code storage fuel maxRead maxWrite module .start burned events s)
    (traps : Traps node.toHost module fuel.toNat burned s trap) :
    executeCode node code storage fuel maxRead maxWrite = .error (.error .impossibleCreateInstance) := by
  obtain ⟨decoded, ready, passes⟩ := here
  rw [executeCode, traced_eq ready, start_traps passes traps]

theorem guest_main_traps (here : GuestAt node code storage fuel maxRead maxWrite module .main burned events s)
    (traps : Traps node.toHost module fuel.toNat burned s trap) :
    executeCode node code storage fuel maxRead maxWrite = .error (.error (classify trap.displayReason)) := by
  obtain ⟨decoded, ready, passes⟩ := here
  rw [executeCode, traced_eq ready, main_traps passes traps]

theorem guest_exhausts_traps (here : GuestAt node code storage fuel maxRead maxWrite module phase burned events s)
    (exhausts : ExhaustsLimits node fuel maxRead maxWrite module burned events s resource) :
    Traps node.toHost module fuel.toNat burned s resource.trap :=
  (guest_counted here).exhausts_traps (UInt32.toNat_lt fuel) exhausts

theorem resource_error_ne (resource : Resource) :
    resource.error ≠ .impossibleCreateInstance ∧ resource.error ≠ .wasmPanic := by
  cases resource with
  | fuel => simp [Resource.error]
  | calls rOrW => cases rOrW <;> simp [Resource.error, limitReached]

/-- Resource exhaustion is reported as such exactly where it does not happen in the start function. -/
theorem exhaustion_reported_iff :
    ReportsExhaustion node code storage fuel maxRead maxWrite ↔
      StartWithinLimits node code storage fuel maxRead maxWrite := by
  constructor
  · intro reports module burned events s resource here exhausts
    have reported := reports.exhausted here exhausts
    rw [guest_start_traps here (guest_exhausts_traps here exhausts)] at reported
    exact (resource_error_ne resource).1 (Exit.error.inj (Except.error.inj reported)).symm
  · intro within
    refine ⟨fun {module phase burned events s resource} here exhausts => ?_,
      fun {module phase burned events s trap} here traps other resource reported => ?_⟩
    · cases phase with
      | start => exact absurd exhausts (within module burned events s resource here)
      | main => rw [guest_main_traps here (guest_exhausts_traps here exhausts), classify_resource]
    · cases phase with
      | start =>
        rw [guest_start_traps here traps] at reported
        exact (resource_error_ne resource).1 (Exit.error.inj (Except.error.inj reported)).symm
      | main =>
        rw [guest_main_traps here traps,
          (guest_counted here).classify_other (UInt32.toNat_lt fuel) traps other] at reported
        exact (resource_error_ne resource).2 (Exit.error.inj (Except.error.inj reported)).symm

end Reports

section Started

/-- The storing program with a start section before its code: `main` is its start function too. -/
def startingCode : Bytes := storingCode.take 90 ++ [0x08, 0x01, 0x03] ++ storingCode.drop 90

def startingModule : Module Script := { storing.module page with start := some (fun _ => storing) }

def startingNode : Node where
  overflowChecks := true
  blake2 := paddedDigest
  wasmtime :=
    { Guest := Script, engineNew := true, addFuel := true, funcWrap := fun _ => true
      moduleNew := fun code => if code = startingCode then some startingModule else none }

def startEntered : Running Script := ⟨storing, freshStore 0 0 BTreeMap.empty, some page⟩

theorem start_writes_misreported : ¬ ReportsExhaustion startingNode startingCode [0] 10 0 0 := by
  intro reports
  have ready : Prepared startingNode startingCode [0] startingModule BTreeMap.empty :=
    ⟨rfl, rfl, ⟨[], rfl⟩, rfl, fun _ _ => rfl⟩
  have here : GuestAt startingNode startingCode [0] 10 0 0 startingModule .start 0 [] startEntered :=
    ⟨BTreeMap.empty, ready, .start rfl rfl (.refl _) (Nat.zero_le _)⟩
  have exhausts : ExhaustsLimits startingNode 10 0 0 startingModule 0 [] startEntered
      (.calls (HostCall.set 0 0 0 0).rOrW) := .calls (by decide) rfl rfl rfl
  have reported := reports.exhausted here exhausts
  have ended : executeCode startingNode startingCode [0] 10 0 0 = .error (.error .impossibleCreateInstance) := by
    decide
  cases ended.symm.trans reported

end Started

end KontractsProof.Executor
