import Kontracts.Executor.Limits

namespace KontractsModel.Executor

def ResultFits (host : Host) (caller : Caller) : HostCall → Prop
  | .get keyPtr keySize valuePtr valueMaxSize =>
    ∀ key mem, caller.argument keyPtr keySize = some key → caller.memory = some mem →
      caller.data.currNRead < caller.data.maxNRead →
      let value := (caller.data.storage.get (host.blake2 key).1).getD []
      value.length ≤ valueMaxSize.toNat → FitsAt mem valuePtr value
  | .set .. | .remove .. => True

def StorageEncodes (storage : KontractStorage) : Prop :=
  storage.len < 2 ^ 32 ∧ ∀ entry ∈ storage.entries, entry.1.length < 2 ^ 32 ∧ entry.2.length < 2 ^ 32

/-- All that an execution does before each of its next steps: the calls it makes fit their results, and
    what it leaves when `main` returns can be encoded. -/
structure StepsFit {Guest : Type} (host : Host) (module : Module Guest) (fuel : ℕ) (caller : Caller) : Prop where
  calls : ∀ {phase burned events s call guest memory}, Passes host module fuel caller phase burned events s →
    burned < fuel → module.step s.guest s.caller.memory = .call call guest memory →
    ResultFits host (s.caller.setMemory memory) call
  final : ∀ {burned events s guest memory}, Passes host module fuel caller .main burned events s →
    module.step s.guest s.caller.memory = .done guest memory → StorageEncodes s.caller.data.storage

def rereading : Script := .call (.set 0 0 0 64) (.call (.get 0 0 0 64) .done)

def rereadingCode : List UInt8 :=
  binary [0x41, 0x00, 0x41, 0x00, 0x41, 0x00, 0x41, 0xc0, 0x00, 0x10, 0x00,
    0x41, 0x00, 0x41, 0x00, 0x41, 0x00, 0x41, 0xc0, 0x00, 0x10, 0x01]

def overreaching : Script := .call (.get 0 0 65536 63) .done

def overreachingCode : List UInt8 :=
  binary [0x41, 0x00, 0x41, 0x00, 0x41, 0x80, 0x80, 0x04, 0x41, 0x3f, 0x10, 0x01]

def panickingNode : Node := Script.node [(rereadingCode, rereading), (overreachingCode, overreaching)]

end KontractsModel.Executor

namespace KontractsProof.Executor

open Scale KontractsModel.Executor

section Calls

variable {host : Host} {caller : Caller} {call : HostCall}

theorem updateWithCheck_no_panic {overflowChecks : Bool} {val max : UInt32} {rOrW : Bool}
    (fits : val.toNat + 1 < 2 ^ 32) (why : Panic) :
    updateWithCheck overflowChecks val max rOrW ≠ .error (.panic why) := by
  rw [updateWithCheck_fits overflowChecks val max rOrW fits]
  split <;> simp [exceeded]

theorem counted_no_panic {overflowChecks : Bool} {val max : UInt32} {rOrW : Bool} {after : UInt32 → Caller}
    (fits : val.toNat + 1 < 2 ^ 32) (why : Panic) (caller' : Caller) :
    (match updateWithCheck overflowChecks val max rOrW with
      | .ok count => EStateM.Result.ok () (after count)
      | .error why => .error why caller) ≠ .error (.panic why) caller' := by
  intro failed
  split at failed
  · cases failed
  · rename_i refused
    cases failed
    exact updateWithCheck_no_panic fits why refused

theorem writeVec_panics_iff (vec : Value) (ptr size : UInt32) (mem : Memory) (memory : caller.memory = some mem) :
    (∃ why caller', writeVec vec ptr size caller = .error (.panic why) caller') ↔
      vec.length ≤ size.toNat ∧ ¬ FitsAt mem ptr vec := by
  unfold FitsAt
  by_cases room : vec.length ≤ size.toNat
  · rw [writeVec_room caller vec ptr size mem memory room]
    by_cases inside : ptr.toNat + vec.length < mem.size
    · by_cases small : vec.length < 64
      · simp [room, inside, small]
      · simp [room, inside, small]
    · simp [room, inside]
  · rw [writeVec_short caller vec ptr size mem memory (Nat.lt_of_not_le room)]
    simp [room, impossibleWrite]

theorem set_no_panic {keyPtr keySize valuePtr valueSize : UInt32} (fits : caller.data.currNWrite.toNat + 1 < 2 ^ 32)
    (why : Panic) (caller' : Caller) :
    (HostCall.set keyPtr keySize valuePtr valueSize).perform host caller ≠ .error (.panic why) caller' := by
  intro failed
  rw [perform_set] at failed
  split at failed
  · rw [kontractsSet_eq] at failed
    exact counted_no_panic fits why caller' failed
  · cases failed

theorem remove_no_panic {keyPtr keySize : UInt32} (fits : caller.data.currNWrite.toNat + 1 < 2 ^ 32)
    (why : Panic) (caller' : Caller) :
    (HostCall.remove keyPtr keySize).perform host caller ≠ .error (.panic why) caller' := by
  intro failed
  rw [perform_remove] at failed
  split at failed
  · rw [kontractsRemove_eq] at failed
    exact counted_no_panic fits why caller' failed
  · cases failed

theorem get_no_panic_iff {keyPtr keySize valuePtr valueMaxSize : UInt32}
    (fits : caller.data.currNRead.toNat + 1 < 2 ^ 32) :
    (∀ why caller', (HostCall.get keyPtr keySize valuePtr valueMaxSize).perform host caller ≠
        .error (.panic why) caller') ↔
      ResultFits host caller (.get keyPtr keySize valuePtr valueMaxSize) := by
  rw [perform_get]
  cases readKey : caller.argument keyPtr keySize with
  | none =>
    refine iff_of_true (fun why caller' => by simp [impossibleReading]) fun key mem readable => ?_
    rw [readKey] at readable
    cases readable
  | some key =>
    obtain ⟨mem, memory⟩ := argument_memory readKey
    have checked := updateWithCheck_fits host.overflowChecks caller.data.currNRead caller.data.maxNRead false fits
    by_cases below : caller.data.currNRead < caller.data.maxNRead
    · rw [if_pos below] at checked
      have counted : (caller.setData (caller.data.setReads (caller.data.currNRead + 1))).memory = some mem := memory
      have written := writeVec_panics_iff ((caller.data.storage.get (host.blake2 key).1).getD []) valuePtr
        valueMaxSize mem counted
      simp only [checked]
      constructor
      · intro safe key' mem' readable present _ value room
        rw [readKey] at readable
        rw [memory] at present
        cases readable
        cases present
        by_contra unfit
        obtain ⟨why, caller', failed⟩ := written.mpr ⟨room, unfit⟩
        exact safe why caller' failed
      · intro fitting why caller' failed
        obtain ⟨room, unfit⟩ := written.mp ⟨why, caller', failed⟩
        exact unfit (fitting key mem readKey memory below room)
    · rw [if_neg below] at checked
      simp only [checked]
      refine iff_of_true (fun why caller' => by simp [exceeded]) fun _ _ _ _ room => absurd room below

theorem perform_no_panic_iff (fits : (caller.data.count call.rOrW).toNat < 2 ^ 32 - 1) :
    (∀ why caller', call.perform host caller ≠ .error (.panic why) caller') ↔ ResultFits host caller call := by
  have succFits : (caller.data.count call.rOrW).toNat + 1 < 2 ^ 32 := by omega
  cases call with
  | set => exact iff_of_true (set_no_panic succFits) True.intro
  | get => exact get_no_panic_iff succFits
  | remove => exact iff_of_true (remove_no_panic succFits) True.intro

end Calls

section Executions

variable {Guest : Type} {host : Host} {module : Module Guest} {fuel : ℕ} {caller : Caller}

theorem encode_panics_iff (storage : KontractStorage) :
    (∃ why, encodeKontractStorage storage = .error why) ↔ ¬ StorageEncodes storage := by
  unfold encodeKontractStorage StorageEncodes
  split
  · rename_i fits
    refine iff_of_false ?_ (not_not_intro fits)
    rintro ⟨why, failed⟩
    cases failed
  · rename_i tooLong
    exact iff_of_true ⟨_, rfl⟩ tooLong

theorem run_panicked {why : Panic} {first : Running Guest} {events : List HostEvent} {caller' : Caller} {left : ℕ}
    (ran : Metered.run (module.next host) fuel first =
      (events, .stopped (.halted (.panic why) caller') left)) :
    ∃ burned s call guest memory, Metered.Reaches (module.next host) burned first events s ∧ burned < fuel ∧
      module.step s.guest s.caller.memory = .call call guest memory ∧
      call.perform host (s.caller.setMemory memory) = .error (.panic why) caller' := by
  obtain ⟨burned, s, reached, ended⟩ := Metered.run_reaches (module.next host) fuel first
  rw [ran] at reached ended
  simp only at reached ended
  generalize ending : Metered.End.stopped (Stop.halted (Halt.panic why) caller') left = final at ended
  cases ended with
  | stop here enough =>
    cases ending
    cases stepped : module.step s.guest s.caller.memory with
    | done | trap | compute => simp [Module.next, stepped] at here
    | call call guest memory =>
      rw [next_call host module stepped] at here
      split at here <;> cases here
  | fault here enough =>
    cases ending
    obtain ⟨call, guest, memory, _, _, stepped, failed, same⟩ := next_fault here
    cases same
    exact ⟨burned, s, call, guest, memory, reached, enough, stepped, failed⟩
  | exhausted => cases ending

theorem instantiate_panicked {why : Panic} {events : List HostEvent}
    (panicked : instantiate host module fuel caller = (events, .error (.panic why))) :
    module.links ∧ ∃ enter caller' left, module.start = some enter ∧
      Metered.run (module.next host) fuel ⟨enter module.initial, caller⟩ =
        (events, .stopped (.halted (.panic why) caller') left) := by
  rcases instantiate_cases host module fuel caller with same | ⟨-, -, same⟩ |
    ⟨links, enter, _, ending, defined, ran, same⟩
  · cases panicked.symm.trans same
  · cases panicked.symm.trans same
  · obtain ⟨rfl, finished⟩ := Prod.mk.inj (same.symm.trans panicked)
    refine ⟨links, enter, ?_⟩
    unfold finishStart at finished
    split at finished <;> cases finished
    exact ⟨_, _, defined, ran⟩

theorem finishMain_panicked {ending : Metered.End (Stop Guest)} {why : Panic}
    (finished : finishMain ending = .error (.panic why)) :
    (∃ guest caller' rest, ending = .stopped (.returned guest caller') rest ∧
        encodeKontractStorage caller'.data.storage = .error why) ∨
      ∃ caller' rest, ending = .stopped (.halted (.panic why) caller') rest := by
  unfold finishMain at finished
  split at finished
  · rename_i guest caller' rest
    refine .inl ⟨guest, caller', rest, rfl, ?_⟩
    cases encoded : encodeKontractStorage caller'.data.storage with
    | ok raw => rw [encoded] at finished; cases finished
    | error panic => rw [encoded] at finished; cases finished; rfl
  · cases finished
    exact .inr ⟨_, _, rfl⟩
  · cases finished
  · cases finished

theorem runModule_panicked {why : Panic} (panicked : (runModule host module fuel caller).2 = .error (.panic why)) :
    (∃ phase burned events s call guest memory caller', Passes host module fuel caller phase burned events s ∧
        burned < fuel ∧ module.step s.guest s.caller.memory = .call call guest memory ∧
        call.perform host (s.caller.setMemory memory) = .error (.panic why) caller') ∨
      ∃ burned events s guest memory, Passes host module fuel caller .main burned events s ∧
        module.step s.guest s.caller.memory = .done guest memory ∧
        encodeKontractStorage s.caller.data.storage = .error why := by
  rcases runModule_cases host module fuel caller with ⟨events, exit, instantiated, same⟩ |
    ⟨before, instance', left, instantiated, ⟨-, same⟩ | ⟨enter, after, ending, defined, main, same⟩⟩
  · rw [same] at panicked
    cases panicked
    obtain ⟨links, enter, caller', left, defined, ran⟩ := instantiate_panicked instantiated
    obtain ⟨burned, s, call, guest, memory, reached, funded, stepped, failed⟩ := run_panicked ran
    exact .inl ⟨.start, burned, events, s, call, guest, memory, caller',
      .start links defined reached (Nat.le_of_lt funded), funded, stepped, failed⟩
  · rw [same] at panicked
    cases panicked
  · rw [same] at panicked
    rcases finishMain_panicked panicked with ⟨guest, caller', rest, rfl, unencoded⟩ | ⟨caller', rest, rfl⟩
    · obtain ⟨burned, s, reached, here, within, -⟩ := run_returned main
      obtain ⟨memory, stepped, rfl⟩ := next_returns here
      exact .inr ⟨_, _, s, guest, memory, .main instantiated defined reached within, stepped, unencoded⟩
    · obtain ⟨burned, s, call, guest, memory, reached, funded, stepped, failed⟩ := run_panicked main
      have small := instantiate_left_le instantiated
      exact .inl ⟨.main, _, _, s, call, guest, memory, caller',
        .main instantiated defined reached (Nat.le_of_lt funded), by omega, stepped, failed⟩

theorem call_panics {phase : Phase} {burned : ℕ} {events : List HostEvent} {s : Running Guest} {call : HostCall}
    {guest : Guest} {memory : Option Memory} {why : Panic} {caller' : Caller}
    (passes : Passes host module fuel caller phase burned events s) (funded : burned < fuel)
    (stepped : module.step s.guest s.caller.memory = .call call guest memory)
    (failed : call.perform host (s.caller.setMemory memory) = .error (.panic why) caller') :
    (runModule host module fuel caller).2 = .error (.panic why) := by
  have next := next_call host module stepped
  rw [failed] at next
  cases phase with
  | start => rw [start_fault passes funded next]
  | main =>
    obtain ⟨left, ran⟩ := main_fault passes funded next
    rw [ran]
    rfl

theorem final_panics {burned : ℕ} {events : List HostEvent} {s : Running Guest} {guest : Guest}
    {memory : Option Memory} {why : Panic} (passes : Passes host module fuel caller .main burned events s)
    (stepped : module.step s.guest s.caller.memory = .done guest memory)
    (failed : encodeKontractStorage s.caller.data.storage = .error why) :
    (runModule host module fuel caller).2 = .error (.panic why) := by
  have here : module.next host s = .stop (.returned guest (s.caller.setMemory memory)) := by
    simp only [Module.next, stepped]
  obtain ⟨left, ran⟩ := main_stop passes here
  simp only [ran, finishMain, Caller.setMemory, failed]
  rfl

end Executions

section Results

variable {node : Node} {code : Bytes} {storage : RawKontractStorage} {fuel maxRead maxWrite : UInt32}
  {module : Module node.wasmtime.Guest} {decoded : KontractStorage}

theorem runModule_no_panic_iff :
    (∀ why, (runModule node.toHost module fuel.toNat ⟨freshStore maxRead maxWrite decoded, module.memory⟩).2 ≠
        .error (.panic why)) ↔
      StepsFit node.toHost module fuel.toNat ⟨freshStore maxRead maxWrite decoded, module.memory⟩ := by
  have counts : ∀ {phase burned events s call memory},
      Passes node.toHost module fuel.toNat ⟨freshStore maxRead maxWrite decoded, module.memory⟩ phase burned events
        s → burned < fuel.toNat →
      ((s.caller.setMemory memory).data.count (HostCall.rOrW call)).toNat < 2 ^ 32 - 1 := by
    intro phase burned events s call memory passes funded
    have small : burned + 1 < 2 ^ 32 := Nat.lt_of_le_of_lt funded (UInt32.toNat_lt fuel)
    exact Nat.lt_sub_of_add_lt ((passes_counted passes).fits small call.rOrW)
  constructor
  · intro safe
    refine ⟨fun passes funded stepped => ?_, fun passes stepped => ?_⟩
    · refine (perform_no_panic_iff (counts passes funded)).mp fun why caller' failed => ?_
      exact safe why (call_panics passes funded stepped failed)
    · by_contra unencodable
      obtain ⟨why, failed⟩ := (encode_panics_iff _).mpr unencodable
      exact safe why (final_panics passes stepped failed)
  · intro fit why panicked
    rcases runModule_panicked panicked with
      ⟨phase, burned, events, s, call, guest, memory, caller', passes, funded, stepped, failed⟩ |
      ⟨burned, events, s, guest, memory, passes, stepped, failed⟩
    · exact (perform_no_panic_iff (counts passes funded)).mpr (fit.calls passes funded stepped) why caller' failed
    · exact (encode_panics_iff _).mp ⟨why, failed⟩ (fit.final passes stepped)

/-- The host panics exactly where a `get` writes a value of 64 bytes or more, or one that ends at or past
    the end of the memory; and where a finished guest leaves more than `encode` can count. -/
theorem host_no_panic_iff (node : Node) :
    (∀ (caller : Caller) (call : HostCall), (caller.data.count call.rOrW).toNat < 2 ^ 32 - 1 →
        ((∀ why caller', call.perform node.toHost caller ≠ .error (.panic why) caller') ↔
          ResultFits node.toHost caller call)) ∧
      ∀ (code : Bytes) (storage : RawKontractStorage) (fuel maxRead maxWrite : UInt32),
        (∀ why, executeCode node code storage fuel maxRead maxWrite ≠ .error (.panic why)) ↔
          ∀ module decoded, Prepared node code storage module decoded →
            StepsFit node.toHost module fuel.toNat ⟨freshStore maxRead maxWrite decoded, module.memory⟩ := by
  refine ⟨fun caller call fits => perform_no_panic_iff fits, fun code storage fuel maxRead maxWrite => ?_⟩
  constructor
  · intro safe module decoded ready
    rw [executeCode, traced_eq ready] at safe
    exact runModule_no_panic_iff.mp safe
  · intro fit why panicked
    cases prepared : prepare node code storage maxRead maxWrite with
    | error error => simp [executeCode, traced, prepared] at panicked
    | ok both =>
      obtain ⟨module, store⟩ := both
      obtain ⟨decoded, ready, rfl⟩ := prepare_iff.mp prepared
      rw [executeCode, traced_eq ready] at panicked
      exact runModule_no_panic_iff.mpr (fit module decoded ready) why panicked

theorem toggling_get_no_panic :
    ResultFits localNode.toHost ⟨freshStore 1 1 BTreeMap.empty, some page⟩ (.get 0 0 0 63) ∧
      ∀ why caller', (HostCall.get 0 0 0 63).perform localNode.toHost ⟨freshStore 1 1 BTreeMap.empty, some page⟩ ≠
        .error (.panic why) caller' := by
  have fits : ResultFits localNode.toHost ⟨freshStore 1 1 BTreeMap.empty, some page⟩ (.get 0 0 0 63) := by
    intro key mem _ present _ value _
    cases present
    have missing : value = [] := rfl
    rw [missing]
    exact ⟨by decide, by decide⟩
  exact ⟨fits, ((host_no_panic_iff localNode).1 _ _ (by decide)).mpr fits⟩

theorem guests_panic_host :
    executeCode panickingNode rereadingCode [0] 10 1 1 = .error (.panic .copyLength) ∧
      executeCode panickingNode overreachingCode [0] 10 1 1 = .error (.panic .sliceIndex) := by
  decide

end Results

end KontractsProof.Executor
