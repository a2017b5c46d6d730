import Kontracts.Executor.Passes
import Kontracts.Executor.Script

namespace KontractsModel.Executor

def KontractStore.count (store : KontractStore) : Bool → UInt32
  | true => store.currNWrite
  | false => store.currNRead

def KontractStore.limit (store : KontractStore) : Bool → UInt32
  | true => store.maxNWrite
  | false => store.maxNRead

def HostCall.rOrW : HostCall → Bool
  | .get .. => false
  | .set .. | .remove .. => true

def HostEvent.rOrW : HostEvent → Bool
  | .get .. => false
  | .set .. | .remove .. => true

def completedCalls (rOrW : Bool) (events : List HostEvent) : ℕ := events.countP (fun event => event.rOrW == rOrW)

def limitReached : Bool → ExecutionErrors
  | true => .outOfWrites
  | false => .outOfReads

end KontractsModel.Executor

namespace KontractsProof.Executor

open Scale KontractsModel.Executor

section Calls

variable {host : Host} {caller caller' : Caller} {call : HostCall} {event : HostEvent}

theorem Completed.counted (completed : Completed host caller call event caller') :
    event.rOrW = call.rOrW ∧
      updateWithCheck host.overflowChecks (caller.data.count call.rOrW) (caller.data.limit call.rOrW) call.rOrW =
        .ok (caller'.data.count call.rOrW) ∧
      caller'.data.count (!call.rOrW) = caller.data.count (!call.rOrW) ∧
      caller'.data.limit = caller.data.limit := by
  cases completed with
  | set readKey readValue counted => exact ⟨rfl, counted, rfl, by funext rOrW; cases rOrW <;> rfl⟩
  | get readKey counted => exact ⟨rfl, counted, rfl, by funext rOrW; cases rOrW <;> rfl⟩
  | remove readKey counted => exact ⟨rfl, counted, rfl, by funext rOrW; cases rOrW <;> rfl⟩

theorem writeVec_trap {vec : Value} {ptr size : UInt32} {trap : Trap}
    (failed : writeVec vec ptr size caller = .error (.trap trap) caller') : Halt.trap trap = impossibleWrite := by
  cases memory : caller.memory with
  | none =>
    rw [writeVec_none caller vec ptr size memory] at failed
    exact (EStateM.Result.error.inj failed).1.symm
  | some mem =>
    by_cases short : size.toNat < vec.length
    · rw [writeVec_short caller vec ptr size mem memory short] at failed
      exact (EStateM.Result.error.inj failed).1.symm
    · rw [writeVec_room caller vec ptr size mem memory (Nat.not_lt.mp short)] at failed
      split at failed
      · split at failed <;> cases failed
      · cases failed

theorem perform_refused {why : Halt} (readable : (call.event host caller).isSome)
    (refused : updateWithCheck host.overflowChecks (caller.data.count call.rOrW) (caller.data.limit call.rOrW)
      call.rOrW = .error why) : call.perform host caller = .error why caller := by
  cases call with
  | set keyPtr keySize valuePtr valueSize =>
    change updateWithCheck host.overflowChecks caller.data.currNWrite caller.data.maxNWrite true = _ at refused
    simp only [HostCall.event, Option.isSome_bind, Option.any_eq_true, Option.isSome_map,
      Option.isSome_iff_exists] at readable
    obtain ⟨key, readKey, value, readValue⟩ := readable
    simp only [perform_set, readKey, readValue, kontractsSet_eq, refused]
  | get keyPtr keySize valuePtr valueMaxSize =>
    change updateWithCheck host.overflowChecks caller.data.currNRead caller.data.maxNRead false = _ at refused
    simp only [HostCall.event, Option.isSome_map, Option.isSome_iff_exists] at readable
    obtain ⟨key, readKey⟩ := readable
    simp only [perform_get, readKey, refused]
  | remove keyPtr keySize =>
    change updateWithCheck host.overflowChecks caller.data.currNWrite caller.data.maxNWrite true = _ at refused
    simp only [HostCall.event, Option.isSome_map, Option.isSome_iff_exists] at readable
    obtain ⟨key, readKey⟩ := readable
    simp only [perform_remove, readKey, kontractsRemove_eq, refused]

theorem allowed_trap {count : UInt32} {trap : Trap}
    (allowed : updateWithCheck host.overflowChecks (caller.data.count call.rOrW) (caller.data.limit call.rOrW)
      call.rOrW = .ok count) (failed : call.perform host caller = .error (.trap trap) caller') :
    Halt.trap trap = impossibleReading ∨ Halt.trap trap = impossibleWrite := by
  cases call with
  | set keyPtr keySize valuePtr valueSize =>
    change updateWithCheck host.overflowChecks caller.data.currNWrite caller.data.maxNWrite true = _ at allowed
    rw [perform_set] at failed
    split at failed
    · simp [kontractsSet_eq, allowed] at failed
    · exact .inl (EStateM.Result.error.inj failed).1.symm
  | get keyPtr keySize valuePtr valueMaxSize =>
    change updateWithCheck host.overflowChecks caller.data.currNRead caller.data.maxNRead false = _ at allowed
    rw [perform_get] at failed
    split at failed
    · simp only [allowed] at failed
      exact .inr (writeVec_trap failed)
    · exact .inl (EStateM.Result.error.inj failed).1.symm
  | remove keyPtr keySize =>
    change updateWithCheck host.overflowChecks caller.data.currNWrite caller.data.maxNWrite true = _ at allowed
    rw [perform_remove] at failed
    split at failed
    · simp [kontractsRemove_eq, allowed] at failed
    · exact .inl (EStateM.Result.error.inj failed).1.symm

theorem perform_allowed {count : UInt32}
    (allowed : updateWithCheck host.overflowChecks (caller.data.count call.rOrW) (caller.data.limit call.rOrW)
      call.rOrW = .ok count) (rOrW : Bool) (caller' : Caller) :
    call.perform host caller ≠ .error (exceeded rOrW) caller' := by
  intro failed
  rcases allowed_trap allowed failed with unreadable | unwritable
  · cases rOrW <;> simp [impossibleReading] at unreadable
  · cases rOrW <;> simp [impossibleWrite] at unwritable

theorem perform_unreadable (unreadable : call.event host caller = none) :
    call.perform host caller = .error impossibleReading caller := by
  cases call with
  | set keyPtr keySize valuePtr valueSize =>
    simp only [HostCall.event, Option.bind_eq_none_iff, Option.map_eq_none_iff] at unreadable
    rw [perform_set]
    split
    · rename_i key value readKey readValue
      rw [unreadable key readKey] at readValue
      cases readValue
    · rfl
  | get keyPtr keySize valuePtr valueMaxSize =>
    simp only [HostCall.event, Option.map_eq_none_iff] at unreadable
    simp only [perform_get, unreadable]
  | remove keyPtr keySize =>
    simp only [HostCall.event, Option.map_eq_none_iff] at unreadable
    simp only [perform_remove, unreadable]

theorem perform_exceeded {rOrW : Bool} (failed : call.perform host caller = .error (exceeded rOrW) caller') :
    caller' = caller := by
  cases readable : call.event host caller with
  | none =>
    rw [perform_unreadable readable] at failed
    exact (EStateM.Result.error.inj failed).2.symm
  | some event =>
    cases checked : updateWithCheck host.overflowChecks (caller.data.count call.rOrW)
        (caller.data.limit call.rOrW) call.rOrW with
    | ok count => exact absurd failed (perform_allowed checked rOrW caller')
    | error why =>
      rw [perform_refused (by rw [readable]; rfl) checked] at failed
      exact (EStateM.Result.error.inj failed).2.symm

end Calls

section Counting

variable {host : Host} {limit : Bool → UInt32}

/-- The counters are the numbers of completed calls, of which there are no more than units burned. -/
structure Counted (limit : Bool → UInt32) (burned : ℕ) (events : List HostEvent) (caller : Caller) : Prop where
  limits : caller.data.limit = limit
  counts : ∀ rOrW, (caller.data.count rOrW).toNat = completedCalls rOrW events
  below : ∀ rOrW, completedCalls rOrW events ≤ (limit rOrW).toNat
  spent : events.length ≤ burned

theorem completedCalls_append (rOrW : Bool) (events : List HostEvent) (event : HostEvent) :
    completedCalls rOrW (events ++ [event]) =
      completedCalls rOrW events + if event.rOrW == rOrW then 1 else 0 := by
  simp only [completedCalls, List.countP_append, List.countP_singleton]

theorem Counted.fits {burned : ℕ} {events : List HostEvent} {caller : Caller}
    (counted : Counted limit burned events caller) (small : burned + 1 < 2 ^ 32) (rOrW : Bool) :
    (caller.data.count rOrW).toNat + 1 < 2 ^ 32 := by
  have calls : completedCalls rOrW events ≤ events.length := List.countP_le_length
  have count := counted.counts rOrW
  have spent := counted.spent
  omega

theorem Counted.called {burned : ℕ} {events : List HostEvent} {caller caller' : Caller} {call : HostCall}
    {event : HostEvent} (counted : Counted limit burned events caller) (small : burned + 1 < 2 ^ 32)
    (completed : Completed host caller call event caller') :
    Counted limit (burned + 1) (events ++ [event]) caller' := by
  obtain ⟨kind, checked, other, limits⟩ := completed.counted
  obtain ⟨next, within⟩ := updateWithCheck_ok checked
  -- fewer than 2^32 units were burned, and each call burned one: the increment is exact
  have fits := counted.fits small call.rOrW
  have count := counted.counts call.rOrW
  have value : (caller'.data.count call.rOrW).toNat = completedCalls call.rOrW events + 1 := by
    rw [next, toNat_succ fits, count]
  rw [counted.limits, UInt32.le_iff_toNat_le, value] at within
  have each : ∀ rOrW, rOrW = call.rOrW ∨ rOrW = !call.rOrW := fun rOrW => by
    cases rOrW <;> cases call.rOrW <;> simp
  refine ⟨limits.trans counted.limits, fun rOrW => ?_, fun rOrW => ?_, ?_⟩
  · rcases each rOrW with rfl | rfl
    · rw [completedCalls_append, kind, beq_self_eq_true, if_pos rfl, value]
    · rw [completedCalls_append, kind, other, counted.counts]
      simp
  · rcases each rOrW with rfl | rfl
    · rw [completedCalls_append, kind, beq_self_eq_true, if_pos rfl]
      exact within
    · have below := counted.below (!call.rOrW)
      rw [completedCalls_append, kind]
      simpa using below
  · have spent := counted.spent
    rw [List.length_append, List.length_singleton]
    omega

theorem Counted.setMemory {burned : ℕ} {events : List HostEvent} {caller : Caller}
    (counted : Counted limit burned events caller) (memory : Option Memory) :
    Counted limit burned events (caller.setMemory memory) :=
  ⟨counted.limits, counted.counts, counted.below, counted.spent⟩

theorem counted_tracked (host : Host) (limit : Bool → UInt32) :
    Tracked host (fun burned events caller => burned < 2 ^ 32 → Counted limit burned events caller) where
  memory burned events caller memory holds small := (holds small).setMemory memory
  burned burned events caller holds small := by
    have counted := holds (Nat.lt_of_succ_lt small)
    exact ⟨counted.limits, counted.counts, counted.below, Nat.le_succ_of_le counted.spent⟩
  called burned events caller call event caller' completed holds small :=
    (holds (Nat.lt_of_succ_lt small)).called small completed

end Counting

section Limits

variable {node : Node} {code : Bytes} {storage : RawKontractStorage} {fuel maxRead maxWrite : UInt32}
  {module : Module node.wasmtime.Guest} {decoded : KontractStorage} {phase : Phase} {burned : ℕ}
  {events : List HostEvent} {s : Running node.wasmtime.Guest}

theorem passes_counted
    (passes : Passes node.toHost module fuel.toNat ⟨freshStore maxRead maxWrite decoded, module.memory⟩ phase burned
      events s) :
    Counted (freshStore maxRead maxWrite decoded).limit burned events s.caller := by
  have initial : Counted (freshStore maxRead maxWrite decoded).limit 0 []
      ⟨freshStore maxRead maxWrite decoded, module.memory⟩ :=
    ⟨rfl, fun rOrW => by cases rOrW <;> rfl, fun _ => Nat.zero_le _, Nat.le_refl 0⟩
  have small : burned < 2 ^ 32 := Nat.lt_of_le_of_lt (passes_within passes) (UInt32.toNat_lt fuel)
  exact (counted_tracked node.toHost _).passes (fun _ => initial) passes small

theorem Counted.below_iff {limit : Bool → UInt32} {caller : Caller} (counted : Counted limit burned events caller)
    (rOrW : Bool) : caller.data.count rOrW < caller.data.limit rOrW ↔
      completedCalls rOrW events < (limit rOrW).toNat := by
  rw [UInt32.lt_iff_toNat_lt, counted.counts, counted.limits]

theorem Counted.refused_iff {host : Host} {limit : Bool → UInt32} {caller : Caller} {call : HostCall}
    (counted : Counted limit burned events caller) (small : burned + 1 < 2 ^ 32)
    (readable : (call.event host caller).isSome) :
    (∃ caller', call.perform host caller = .error (exceeded call.rOrW) caller') ↔
      completedCalls call.rOrW events = (limit call.rOrW).toNat := by
  have checked := updateWithCheck_fits host.overflowChecks (caller.data.count call.rOrW)
    (caller.data.limit call.rOrW) call.rOrW (counted.fits small call.rOrW)
  have within := counted.below call.rOrW
  have compare := counted.below_iff call.rOrW
  by_cases below : caller.data.count call.rOrW < caller.data.limit call.rOrW
  · rw [if_pos below] at checked
    refine ⟨fun ⟨caller', refused⟩ => absurd refused (perform_allowed checked _ caller'), fun used => ?_⟩
    have room := compare.mp below
    omega
  · rw [if_neg below] at checked
    refine ⟨fun _ => ?_, fun _ => ⟨caller, perform_refused readable checked⟩⟩
    have full := mt compare.mpr below
    omega

theorem Counted.trapped {host : Host} {limit : Bool → UInt32} {caller caller' : Caller} {call : HostCall} {trap : Trap}
    (counted : Counted limit burned events caller) (small : burned + 1 < 2 ^ 32)
    (failed : call.perform host caller = .error (.trap trap) caller') :
    (call.event host caller).isSome ∧ completedCalls call.rOrW events = (limit call.rOrW).toNat ∨
      Halt.trap trap = impossibleReading ∨ Halt.trap trap = impossibleWrite := by
  cases readable : call.event host caller with
  | none =>
    rw [perform_unreadable readable] at failed
    exact .inr (.inl (EStateM.Result.error.inj failed).1.symm)
  | some event =>
    have checked := updateWithCheck_fits host.overflowChecks (caller.data.count call.rOrW)
      (caller.data.limit call.rOrW) call.rOrW (counted.fits small call.rOrW)
    have within := counted.below call.rOrW
    by_cases below : caller.data.count call.rOrW < caller.data.limit call.rOrW
    · rw [if_pos below] at checked
      exact .inr (allowed_trap checked failed)
    · rw [counted.below_iff] at below
      exact .inl ⟨rfl, by omega⟩

theorem refused_result (ready : Prepared node code storage module decoded) {call : HostCall}
    {guest : node.wasmtime.Guest} {memory : Option Memory} {caller' : Caller}
    (passes : Passes node.toHost module fuel.toNat ⟨freshStore maxRead maxWrite decoded, module.memory⟩ .main burned
      events s)
    (called : module.step s.guest s.caller.memory = .call call guest memory) (funded : burned < fuel.toNat)
    (refused : call.perform node.toHost (s.caller.setMemory memory) = .error (exceeded call.rOrW) caller') :
    executeCode node code storage fuel maxRead maxWrite = .error (.error (limitReached call.rOrW)) := by
  have failed := next_call node.toHost module called
  rw [refused] at failed
  obtain ⟨left, ran⟩ := main_fault passes funded failed
  rw [executeCode, traced_eq ready, ran]
  cases call.rOrW <;> rfl

/-- The limits of an execution are exact at every state it passes through, for its next call too, and
    no addition on the way overflows. -/
theorem limits_exact (ready : Prepared node code storage module decoded)
    (passes : Passes node.toHost module fuel.toNat ⟨freshStore maxRead maxWrite decoded, module.memory⟩ phase burned
      events s) :
    (s.caller.data.currNRead.toNat = completedCalls false events ∧ completedCalls false events ≤ maxRead.toNat ∧
        s.caller.data.currNWrite.toNat = completedCalls true events ∧
        completedCalls true events ≤ maxWrite.toNat) ∧
      ∀ call guest memory, module.step s.guest s.caller.memory = .call call guest memory → burned < fuel.toNat →
        (s.caller.data.count call.rOrW).toNat + 1 < 2 ^ 32 ∧
          ((call.event node.toHost (s.caller.setMemory memory)).isSome →
            ((∃ caller', call.perform node.toHost (s.caller.setMemory memory) =
                .error (exceeded call.rOrW) caller') ↔
              completedCalls call.rOrW events = (if call.rOrW then maxWrite else maxRead).toNat)) ∧
          ∀ caller', call.perform node.toHost (s.caller.setMemory memory) = .error (exceeded call.rOrW) caller' →
            caller'.data.storage = s.caller.data.storage ∧
              (phase = .main →
                executeCode node code storage fuel maxRead maxWrite = .error (.error (limitReached call.rOrW))) := by
  have counted := passes_counted passes
  refine ⟨⟨counted.counts false, counted.below false, counted.counts true, counted.below true⟩,
    fun call guest memory called funded => ?_⟩
  have small : burned + 1 < 2 ^ 32 := Nat.lt_of_le_of_lt funded (UInt32.toNat_lt fuel)
  have here := counted.setMemory memory
  refine ⟨counted.fits small call.rOrW, fun readable => ?_, fun caller' refused => ⟨?_, fun main => ?_⟩⟩
  · rw [here.refused_iff small readable]
    cases call.rOrW <;> rfl
  · rw [perform_exceeded refused]
    rfl
  · subst main
    exact refused_result ready passes called funded refused

end Limits

section Refused

theorem storing_prepared : Prepared localNode storingCode [0] (storing.module page) BTreeMap.empty where
  engine := rfl
  compiled := rfl
  decoded := ⟨[], rfl⟩
  fuelled := rfl
  wrapped _ _ := rfl

theorem storing_refused : executeCode localNode storingCode [0] 10 0 0 = .error (.error .outOfWrites) := by
  have passes : Passes localNode.toHost (storing.module page) (10 : UInt32).toNat
      ⟨freshStore 0 0 BTreeMap.empty, some page⟩ .main (10 - 10 + 0) ([] ++ [])
      ⟨storing, freshStore 0 0 BTreeMap.empty, some page⟩ := .main rfl rfl (.refl _) (Nat.zero_le _)
  obtain ⟨-, next⟩ := limits_exact storing_prepared passes
  obtain ⟨-, refused, ending⟩ := next (.set 0 0 0 0) .done (some page) rfl (by decide)
  obtain ⟨caller', failed⟩ := (refused rfl).mpr rfl
  exact (ending caller' failed).2 rfl

end Refused

end KontractsProof.Executor
