import Kontracts.Executor.Exhaustion
import Kontracts.Guest.RoundTrip
import Kontracts.Library.Programs

namespace KontractsModel.Guest

open Scale KeyValue KontractsModel.Executor

inductive Operation
  | write (key : Key) (value : Value)
  | read (key : Key)
  | delete (key : Key)

abbrev Operation.Answer : Operation → Type
  | .write .. | .delete _ => Unit
  | .read _ => Value

/-- The body of a kontract, as the source is written. It gives up where it panics. -/
abbrev Kontract := Program Operation Operation.Answer

namespace Kontract

def write (key : Key) (value : Value) : Kontract Unit := .call (.write key value) .done

def read (key : Key) : Kontract Value := .call (.read key) .done

def delete (key : Key) : Kontract Unit := .call (.delete key) .done

def expect {A : Type} : Option A → Kontract A
  | some a => .done a
  | none => .fail

end Kontract

inductive Failure
  | error (error : ExecutionErrors)
  | hostPanic
deriving DecidableEq

def Failure.ofHalt : Halt → Failure
  | .trap trap => .error (classify trap.displayReason)
  | .panic _ => .hostPanic

/-- What the host functions make of a read value: a buffer of `MaxValueBytes` is too small, or is
    written past a length of one byte. -/
def received (value : Value) : Except Failure Value :=
  if MaxValueBytes.toNat < value.length then .error (.error .wasmPanic)
  else if value.length < 2 ^ 6 then .ok value
  else .error .hostPanic

def Operation.perform (host : Host) :
    (op : Operation) → KontractStore → Except Failure (op.Answer × KontractStore)
  | .write key value, store =>
    match updateWithCheck host.overflowChecks store.currNWrite store.maxNWrite true with
    | .ok count => .ok ((), (store.setWrites count).setStorage (store.storage.insert (host.hashed key) value))
    | .error why => .error (.ofHalt why)
  | .read key, store =>
    match updateWithCheck host.overflowChecks store.currNRead store.maxNRead false with
    | .ok count =>
      match received ((store.storage.get (host.hashed key)).getD []) with
      | .ok value => .ok (value, store.setReads count)
      | .error why => .error why
    | .error why => .error (.ofHalt why)
  | .delete key, store =>
    match updateWithCheck host.overflowChecks store.currNWrite store.maxNWrite true with
    | .ok count => .ok ((), (store.setWrites count).setStorage (store.storage.remove (host.hashed key)))
    | .error why => .error (.ofHalt why)

structure Sandbox where
  table : Table Bytes Value
  reads : ℕ
  writes : ℕ

def Sandbox.commit (box : Sandbox) (write : Write Bytes Value) : Except Failure (Unit × Sandbox) :=
  match box.writes with
  | 0 => .error (.error .outOfWrites)
  | writes + 1 => .ok ((), { box with table := write.apply box.table, writes := writes })

def Operation.serve (host : Host) : (op : Operation) → Sandbox → Except Failure (op.Answer × Sandbox)
  | .write key value, box => box.commit (.set (host.hashed key) value)
  | .read key, box =>
    match box.reads with
    | 0 => .error (.error .outOfReads)
    | reads + 1 =>
      match received ((box.table (host.hashed key)).getD []) with
      | .ok value => .ok (value, { box with reads := reads })
      | .error why => .error why
  | .delete key, box => box.commit (.remove (host.hashed key))

abbrev performing (host : Host) : Program.Handler Operation Operation.Answer KontractStore Failure :=
  ⟨Operation.perform host, .error .wasmPanic⟩

def Operation.changed : Operation → Option Key
  | .write key _ | .delete key => some key
  | .read _ => none

abbrev serving (host : Host) : Program.Handler Operation Operation.Answer Sandbox Failure :=
  ⟨Operation.serve host, .error .wasmPanic⟩

section Guests

variable {Guest : Type}

/-- Guest code that does what a kontract says, from a state and a memory on: it may compute in between,
    lays its arguments out in its memory and decodes what `get` leaves in the buffer. -/
inductive Implements (module : Module Guest) : Kontract Unit → Guest → Memory → Prop
  | done {guest guest' : Guest} {mem : Memory} {memory : Option Memory}
      (finished : module.step guest (some mem) = .done guest' memory) : Implements module (.done ()) guest mem
  | compute {kontract : Kontract Unit} {guest guest' : Guest} {mem mem' : Memory}
      (computed : module.step guest (some mem) = .compute guest' (some mem'))
      (rest : Implements module kontract guest' mem') : Implements module kontract guest mem
  | write {key : Key} {value : Value} {next : Unit → Kontract Unit} {guest guest' : Guest} {mem mem' : Memory}
      (keyVec : GuestVec mem' key) (valueVec : GuestVec mem' value)
      (called : module.step guest (some mem) =
        .call (.set keyVec.ptr keyVec.len valueVec.ptr valueVec.len) guest' (some mem'))
      (rest : Implements module (next ()) guest' mem') : Implements module (.call (.write key value) next) guest mem
  | read {key : Key} {next : Value → Kontract Unit} {guest guest' : Guest} {mem mem' : Memory}
      (keyVec : GuestVec mem' key) (result : ResultVec mem')
      (called : module.step guest (some mem) =
        .call (.get keyVec.ptr keyVec.len result.ptr result.len) guest' (some mem'))
      (rest : ∀ bytes value tail, bytes.length ≤ MaxValueBytes.toNat →
        ((mem'.store result.ptr.toNat bytes).slice result.ptr.toNat result.len.toNat).bind decodeVec =
          some (value, tail) →
        Implements module (next value) guest' (mem'.store result.ptr.toNat bytes)) :
      Implements module (.call (.read key) next) guest mem
  | delete {key : Key} {next : Unit → Kontract Unit} {guest guest' : Guest} {mem mem' : Memory}
      (keyVec : GuestVec mem' key)
      (called : module.step guest (some mem) = .call (.remove keyVec.ptr keyVec.len) guest' (some mem'))
      (rest : Implements module (next ()) guest' mem') : Implements module (.call (.delete key) next) guest mem
  | panic {guest : Guest} {mem : Memory} {text : String} (aborted : module.step guest (some mem) = .trap text) :
      Implements module .fail guest mem

inductive Stops : Except Failure (Unit × KontractStore) → Stop Guest → Prop
  | returned (guest : Guest) (caller : Caller) : Stops (.ok ((), caller.data)) (.returned guest caller)
  | halted (why : Halt) (caller : Caller) : Stops (.error (.ofHalt why)) (.halted why caller)

end Guests

/-- A module that a node makes of a binary, with the kontract that its `main` implements. The macro
    writes no start function. -/
structure Compiled (node : Node) (code : Bytes) (kontract : Kontract Unit) : Prop where
  engine : node.wasmtime.engineNew
  fuelled : node.wasmtime.addFuel
  wrapped : ∀ name ∈ ["set", "get", "remove"], node.wasmtime.funcWrap name
  compiled : ∃ module enter mem, node.wasmtime.moduleNew code = some module ∧ module.links ∧ module.start = none ∧
    module.memory = some mem ∧ module.main = some enter ∧ Implements module kontract (enter module.initial) mem

inductive Returns : Except Failure (Unit × Sandbox) → Except Exit RawKontractStorage → Prop
  | ok (final : KontractStorage) (box : Sandbox) (left : final.get = box.table) :
      Returns (.ok ((), box)) ((encodeKontractStorage final).mapError .panic)
  | error (error : ExecutionErrors) : Returns (.error (.error error)) (.error (.error error))
  | hostPanic (panic : Panic) : Returns (.error .hostPanic) (.error (.panic panic))

end KontractsModel.Guest

namespace KontractsProof.Guest

open Scale KeyValue KontractsModel KontractsModel.Executor KontractsModel.Guest KontractsProof.Executor

section Calls

theorem perform_write (host : Host) (store : KontractStore) {mem : Memory} {key : Key} {value : Value}
    (keyVec : GuestVec mem key) (valueVec : GuestVec mem value) :
    (HostCall.set keyVec.ptr keyVec.len valueVec.ptr valueVec.len).perform host ⟨store, some mem⟩ =
      kontractsSet host key value ⟨store, some mem⟩ := by
  have readKey : (⟨store, some mem⟩ : Caller).argument keyVec.ptr keyVec.len = some key := keyVec.held
  have readValue : (⟨store, some mem⟩ : Caller).argument valueVec.ptr valueVec.len = some value := valueVec.held
  rw [perform_set, readKey, readValue]

theorem perform_delete (host : Host) (store : KontractStore) {mem : Memory} {key : Key}
    (keyVec : GuestVec mem key) :
    (HostCall.remove keyVec.ptr keyVec.len).perform host ⟨store, some mem⟩ =
      kontractsRemove host key ⟨store, some mem⟩ := by
  have readKey : (⟨store, some mem⟩ : Caller).argument keyVec.ptr keyVec.len = some key := keyVec.held
  rw [perform_remove, readKey]

end Calls

theorem received_iff {value value' : Value} : received value = .ok value' ↔ value' = value ∧ value.length < 64 := by
  have hundred : MaxValueBytes.toNat = 100 := rfl
  unfold received
  split
  · simp only [reduceCtorEq, false_iff]
    omega
  · split
    · rename_i short
      simp only [Except.ok.injEq]
      exact ⟨fun same => ⟨same.symm, short⟩, fun both => both.1.symm⟩
    · rename_i long
      simp only [reduceCtorEq, false_iff]
      exact fun both => long both.2

section Reading

variable {host : Host} {store : KontractStore} {mem : Memory} {key : Key} {count : UInt32}

theorem perform_read_refused (keyVec : GuestVec mem key) (result : ResultVec mem) {why : Halt}
    (refused : updateWithCheck host.overflowChecks store.currNRead store.maxNRead false = .error why) :
    (HostCall.get keyVec.ptr keyVec.len result.ptr result.len).perform host ⟨store, some mem⟩ =
      .error why ⟨store, some mem⟩ := by
  have readKey : (⟨store, some mem⟩ : Caller).argument keyVec.ptr keyVec.len = some key := keyVec.held
  simp only [perform_get, readKey, refused]

theorem perform_read_counted (keyVec : GuestVec mem key) (result : ResultVec mem)
    (counted : updateWithCheck host.overflowChecks store.currNRead store.maxNRead false = .ok count) :
    match received ((store.storage.get (host.hashed key)).getD []) with
    | .ok value =>
      (HostCall.get keyVec.ptr keyVec.len result.ptr result.len).perform host ⟨store, some mem⟩ =
        .ok () ⟨store.setReads count, some (mem.store result.ptr.toNat (encodeVec value))⟩
    | .error failure =>
      ∃ why, failure = .ofHalt why ∧
        (HostCall.get keyVec.ptr keyVec.len result.ptr result.len).perform host ⟨store, some mem⟩ =
          .error why ⟨store.setReads count, some mem⟩ := by
  obtain ⟨hundred, inside⟩ := ResultVec.room result
  have size : MaxValueBytes.toNat = 100 := rfl
  have readKey : (⟨store, some mem⟩ : Caller).argument keyVec.ptr keyVec.len = some key := keyVec.held
  have called : (HostCall.get keyVec.ptr keyVec.len result.ptr result.len).perform host ⟨store, some mem⟩ =
      writeVec ((store.storage.get (host.hashed key)).getD []) result.ptr result.len
        ⟨store.setReads count, some mem⟩ := by
    simp only [perform_get, readKey, counted]
    rfl
  generalize (store.storage.get (host.hashed key)).getD [] = value at called ⊢
  rw [called]
  unfold received
  split
  · rename_i accepted same
    split at same
    · cases same
    · split at same
      · rename_i fits short
        cases same
        rw [writeVec_room _ value result.ptr result.len mem rfl (by omega), if_pos (by omega), if_pos short]
        rfl
      · cases same
  · rename_i failure same
    split at same
    · rename_i large
      cases same
      refine ⟨impossibleWrite, rfl, ?_⟩
      exact writeVec_short _ value result.ptr result.len mem rfl (by omega)
    · split at same
      · cases same
      · rename_i fits long
        cases same
        rw [writeVec_room _ value result.ptr result.len mem rfl (by omega)]
        -- the reason of the panic depends on where the buffer ends, its being one does not
        rw [if_neg long]
        split
        · exact ⟨.panic .copyLength, rfl, rfl⟩
        · exact ⟨.panic .sliceIndex, rfl, rfl⟩

end Reading

section Guests

variable {Guest : Type} {module : Module Guest} {host : Host} {guest guest' : Guest} {mem mem' : Memory}
  {store store' : KontractStore} {call : HostCall} {kontract : Kontract Unit}

def RunsOn (host : Host) (module : Module Guest) (kontract : Kontract Unit) (guest : Guest) (mem : Memory)
    (store : KontractStore) : Prop :=
  ∃ needed labels stop, Metered.Takes (module.next host) ⟨guest, ⟨store, some mem⟩⟩ needed labels stop ∧
    kontract.calls (performing host) store ≤ needed ∧ Stops (kontract.run (performing host) store) stop

theorem RunsOn.called {op : Operation} {next : op.Answer → Kontract Unit} {mem'' : Memory} {answer : op.Answer}
    (called : module.step guest (some mem) = .call call guest' (some mem'))
    (performed : call.perform host ⟨store, some mem'⟩ = .ok () ⟨store', some mem''⟩)
    (answered : op.perform host store = .ok (answer, store'))
    (rest : RunsOn host module (next answer) guest' mem'' store') :
    RunsOn host module (.call op next) guest mem store := by
  obtain ⟨needed, labels, stop, takes, few, stops⟩ := rest
  have taken := next_call host module (s := ⟨guest, ⟨store, some mem⟩⟩) called
  simp only [Caller.setMemory, performed] at taken
  refine ⟨needed + 1, _, stop, takes.after_move taken, ?_, ?_⟩
  · rw [Program.calls_answered (show (performing host).answer op store = _ from answered)]
    exact Nat.succ_le_succ few
  · rwa [Program.run_answered (show (performing host).answer op store = _ from answered)]

theorem RunsOn.refused {op : Operation} {next : op.Answer → Kontract Unit} {why : Halt} {caller' : Caller}
    (called : module.step guest (some mem) = .call call guest' (some mem'))
    (performed : call.perform host ⟨store, some mem'⟩ = .error why caller')
    (refused : op.perform host store = .error (.ofHalt why)) :
    RunsOn host module (.call op next) guest mem store := by
  have taken := next_call host module (s := ⟨guest, ⟨store, some mem⟩⟩) called
  simp only [Caller.setMemory, performed] at taken
  refine ⟨1, [], _, Metered.takes_fault taken, ?_, ?_⟩
  · rw [Program.calls_refused (show (performing host).answer op store = _ from refused)]
  · rw [Program.run_refused (show (performing host).answer op store = _ from refused)]
    exact .halted why caller'

theorem RunsOn.stored {op : Operation} {next : op.Answer → Kontract Unit} {answer : op.Answer}
    {storage : KontractStorage} (called : module.step guest (some mem) = .call call guest' (some mem'))
    (performed : call.perform host ⟨store, some mem'⟩ =
      match updateWithCheck host.overflowChecks store.currNWrite store.maxNWrite true with
      | .ok count => .ok () ⟨(store.setWrites count).setStorage storage, some mem'⟩
      | .error why => .error why ⟨store, some mem'⟩)
    (answered : op.perform host store =
      match updateWithCheck host.overflowChecks store.currNWrite store.maxNWrite true with
      | .ok count => .ok (answer, (store.setWrites count).setStorage storage)
      | .error why => .error (.ofHalt why))
    (rest : ∀ store, RunsOn host module (next answer) guest' mem' store) :
    RunsOn host module (.call op next) guest mem store := by
  cases counted : updateWithCheck host.overflowChecks store.currNWrite store.maxNWrite true with
  | error why =>
    rw [counted] at performed answered
    exact .refused called performed answered
  | ok count =>
    rw [counted] at performed answered
    exact .called called performed answered (rest _)

theorem RunsOn.fetched {key : Key} {next : Value → Kontract Unit} (keyVec : GuestVec mem' key) (result : ResultVec mem')
    (called : module.step guest (some mem) =
      .call (.get keyVec.ptr keyVec.len result.ptr result.len) guest' (some mem'))
    (rest : ∀ bytes value tail, bytes.length ≤ MaxValueBytes.toNat →
      ((mem'.store result.ptr.toNat bytes).slice result.ptr.toNat result.len.toNat).bind decodeVec =
        some (value, tail) →
      ∀ store, RunsOn host module (next value) guest' (mem'.store result.ptr.toNat bytes) store) :
    RunsOn host module (.call (.read key) next) guest mem store := by
  cases counted : updateWithCheck host.overflowChecks store.currNRead store.maxNRead false with
  | error why =>
    exact .refused called (perform_read_refused keyVec result counted) (by simp only [Operation.perform, counted])
  | ok count =>
    have performed := perform_read_counted keyVec result counted
    cases accepted : received ((store.storage.get (host.hashed key)).getD []) with
    | error failure =>
      simp only [accepted] at performed
      obtain ⟨why, rfl, performed⟩ := performed
      exact .refused called performed (by simp only [Operation.perform, counted, accepted])
    | ok value =>
      simp only [accepted] at performed
      obtain ⟨rfl, short⟩ := received_iff.mp accepted
      obtain ⟨hundred, inside⟩ := ResultVec.room result
      obtain ⟨tail, decoded⟩ := stored_decodes short hundred inside
        (show (⟨store, some (mem'.store result.ptr.toNat (encodeVec _))⟩ : Caller).memory = some _ from rfl)
      have length := encodeVec_length_small _ short
      have size : MaxValueBytes.toNat = 100 := rfl
      exact .called called performed (by simp only [Operation.perform, counted, accepted])
        (rest _ _ tail (by omega) decoded _)

theorem Implements.runs (host : Host) (implements : Implements module kontract guest mem) (store : KontractStore) :
    RunsOn host module kontract guest mem store := by
  induction implements generalizing store with
  | @done guest guest' mem memory finished =>
    have here : module.next host ⟨guest, ⟨store, some mem⟩⟩ = .stop (.returned guest' ⟨store, memory⟩) := by
      simp only [Module.next, finished]
      rfl
    exact ⟨0, [], _, Metered.takes_stop here, Nat.le_refl 0, .returned guest' ⟨store, memory⟩⟩
  | @compute kontract guest guest' mem mem' computed rest ih =>
    have here : module.next host ⟨guest, ⟨store, some mem⟩⟩ = .burn (.ok (none, ⟨guest', ⟨store, some mem'⟩⟩)) := by
      simp only [Module.next, computed]
      rfl
    obtain ⟨needed, labels, stop, takes, few, stops⟩ := ih store
    exact ⟨needed + 1, _, stop, takes.after_move here, by omega, stops⟩
  | @write key value next guest guest' mem mem' keyVec valueVec called rest ih =>
    have performed := perform_write host store keyVec valueVec
    rw [kontractsSet_eq] at performed
    exact .stored called performed rfl ih
  | @read key next guest guest' mem mem' keyVec result called rest ih => exact .fetched keyVec result called ih
  | @delete key next guest guest' mem mem' keyVec called rest ih =>
    have performed := perform_delete host store keyVec
    rw [kontractsRemove_eq] at performed
    exact .stored called performed rfl ih
  | @panic guest mem text aborted =>
    have here : module.next host ⟨guest, ⟨store, some mem⟩⟩ =
        .stop (.halted (.trap (.instruction text)) ⟨store, some mem⟩) := by
      simp only [Module.next, aborted]
    refine ⟨0, [], _, Metered.takes_stop here, Nat.le_refl 0, ?_⟩
    have traps : Stops (.error (.ofHalt (.trap (.instruction text))) : Except Failure (Unit × KontractStore))
        (.halted (.trap (.instruction text)) ⟨store, some mem⟩ : Stop Guest) := .halted _ _
    rwa [Failure.ofHalt, classify_instruction] at traps

end Guests

section Sandboxes

variable {host : Host}

/-- The sandbox shows what the store holds and allows; with so many calls to come no counter overflows. -/
structure Boxed (calls : ℕ) (store : KontractStore) (box : Sandbox) : Prop where
  table : box.table = store.storage.get
  reads : store.currNRead.toNat + box.reads = store.maxNRead.toNat
  writes : store.currNWrite.toNat + box.writes = store.maxNWrite.toNat
  readRoom : store.currNRead.toNat + calls < 2 ^ 32
  writeRoom : store.currNWrite.toNat + calls < 2 ^ 32

theorem Boxed.count (overflowChecks : Bool) {val max : UInt32} (rOrW : Bool) {left calls : ℕ}
    (budget : val.toNat + left = max.toNat) (room : val.toNat + (calls + 1) < 2 ^ 32) :
    (left = 0 ∧ updateWithCheck overflowChecks val max rOrW = .error (exceeded rOrW)) ∨
      ∃ rest, left = rest + 1 ∧ updateWithCheck overflowChecks val max rOrW = .ok (val + 1) ∧
        (val + 1).toNat + rest = max.toNat ∧ (val + 1).toNat + calls < 2 ^ 32 := by
  have fits : val.toNat + 1 < 2 ^ 32 := by omega
  have next := toNat_succ fits
  rw [updateWithCheck_fits overflowChecks val max rOrW fits]
  cases left with
  | zero =>
    have spent : ¬ val < max := fun below => by
      have less := UInt32.lt_iff_toNat_lt.mp below
      omega
    exact .inl ⟨rfl, if_neg spent⟩
  | succ rest =>
    have below : val < max := UInt32.lt_iff_toNat_lt.mpr (by omega)
    exact .inr ⟨rest, rfl, if_pos below, by omega, by omega⟩

theorem exceeded_failure (rOrW : Bool) : Failure.ofHalt (exceeded rOrW) = .error (limitReached rOrW) := by
  cases rOrW <;> rfl

theorem Boxed.commit {calls : ℕ} {store : KontractStore} {box : Sandbox} (boxed : Boxed (calls + 1) store box)
    (write : Write Bytes Value) (write' : KontractStorage)
    (same : write'.get = write.apply store.storage.get) :
    Program.Alike (Boxed calls) Eq
      (match updateWithCheck host.overflowChecks store.currNWrite store.maxNWrite true with
        | .ok count => .ok ((), (store.setWrites count).setStorage write')
        | .error why => .error (Failure.ofHalt why))
      (box.commit write) := by
  rcases Boxed.count host.overflowChecks true boxed.writes boxed.writeRoom with ⟨none, refused⟩ |
    ⟨rest, some, counted, budget, room⟩
  · simp only [refused, Sandbox.commit, none]
    exact .error (exceeded_failure true)
  · simp only [counted, Sandbox.commit, some]
    have readRoom := boxed.readRoom
    refine .ok ⟨?_, boxed.reads, budget, ?_, room⟩
    · change write.apply box.table = write'.get
      rw [same, boxed.table]
    · change store.currNRead.toNat + calls < 2 ^ 32
      omega

theorem performing_simulates (host : Host) :
    Program.Simulates (performing host) (serving host) (fun _ => True) (fun _ _ => True) Boxed Eq where
  failure := rfl
  expect _ _ _ _ _ _ _ _ _ := True.intro
  answer := by
    intro calls op store box _ boxed
    cases op with
    | write key value =>
      have same := Write.applyTo_replays host.hashed store.storage (.set key value)
      exact boxed.commit (.set (host.hashed key) value) _ same
    | delete key =>
      have same := Write.applyTo_replays host.hashed store.storage (.remove key)
      exact boxed.commit (.remove (host.hashed key)) _ same
    | read key =>
      have writeRoom := boxed.writeRoom
      have held := congrFun boxed.table (host.hashed key)
      rcases Boxed.count host.overflowChecks false boxed.reads boxed.readRoom with ⟨none, refused⟩ |
        ⟨rest, some, counted, budget, room⟩
      · simp only [Operation.perform, Operation.serve, refused, none]
        exact .error (exceeded_failure false)
      · simp only [Operation.perform, Operation.serve, counted, some, held]
        cases received ((store.storage.get (host.hashed key)).getD []) with
        | error failure => exact .error rfl
        | ok value =>
          refine .ok ⟨boxed.table, budget, boxed.writes, room, ?_⟩
          change store.currNWrite.toNat + calls < 2 ^ 32
          omega

theorem commit_ok {box box' : Sandbox} {write : Write Bytes Value} {answer : Unit}
    (committed : box.commit write = .ok (answer, box')) : box'.table = write.apply box.table := by
  unfold Sandbox.commit at committed
  split at committed <;> cases committed
  rfl

theorem serve_read_ok {key : Key} {box box' : Sandbox} {answer : Value}
    (served : (Operation.read key).serve host box = .ok (answer, box')) :
    box'.table = box.table ∧ answer = (box.table (host.hashed key)).getD [] := by
  simp only [Operation.serve] at served
  split at served
  · cases served
  · split at served
    · rename_i accepted
      cases served
      exact ⟨rfl, (received_iff.mp accepted).1⟩
    · cases served

theorem serve_frame {op : Operation} {box box' : Sandbox} {answer : op.Answer} {digest : Bytes}
    (other : ∀ key, op.changed = some key → host.hashed key ≠ digest)
    (served : op.serve host box = .ok (answer, box')) : box'.table digest = box.table digest := by
  cases op with
  | write key value =>
    have different := other key rfl
    rw [commit_ok served]
    exact (Write.apply_get _ _ digest).trans (if_neg (Ne.symm different))
  | delete key =>
    have different := other key rfl
    rw [commit_ok served]
    exact (Write.apply_get _ _ digest).trans (if_neg (Ne.symm different))
  | read key => rw [(serve_read_ok served).1]

section Triples

variable {table : Table Bytes Value}

theorem write_ensures (host : Host) (key : Key) (value : Value) (table : Table Bytes Value) :
    Program.Ensures (serving host) (fun box => box.table = table) (Kontract.write key value)
      (fun _ box => box.table = (Write.set (host.hashed key) value).apply table) :=
  Program.Ensures.call (fun _ box => box.table = (Write.set (host.hashed key) value).apply table)
    (fun _ _ _ held served => held ▸ commit_ok served) fun _ => Program.Ensures.done fun _ left => left

theorem delete_ensures (host : Host) (key : Key) (table : Table Bytes Value) :
    Program.Ensures (serving host) (fun box => box.table = table) (Kontract.delete key)
      (fun _ box => box.table = (Write.remove (host.hashed key)).apply table) :=
  Program.Ensures.call (fun _ box => box.table = (Write.remove (host.hashed key)).apply table)
    (fun _ _ _ held served => held ▸ commit_ok served) fun _ => Program.Ensures.done fun _ left => left

theorem read_ensures (host : Host) (key : Key) (table : Table Bytes Value) :
    Program.Ensures (serving host) (fun box => box.table = table) (Kontract.read key)
      (fun value box => box.table = table ∧ value = (table (host.hashed key)).getD []) :=
  Program.Ensures.call (fun value box => box.table = table ∧ value = (table (host.hashed key)).getD [])
    (fun _ _ _ held served => held ▸ serve_read_ok served) fun _ => Program.Ensures.done fun _ both => both

theorem expect_ensures {A : Type} (host : Host) (found : Option A) (inv : Sandbox → Prop) :
    Program.Ensures (serving host) inv (Kontract.expect found) (fun a box => inv box ∧ found = some a) := by
  cases found with
  | none =>
    intro _ _ _ _ ran
    cases ran
  | some a => exact Program.Ensures.done fun _ holds => ⟨holds, rfl⟩

end Triples

end Sandboxes

section Executions

variable {node : Node} {code : Bytes} {kontract : Kontract Unit} {storage : RawKontractStorage}
  {decoded : KontractStorage} {rest : Bytes}

theorem Stops.returns {Guest : Type} {outcome : Except Failure (Unit × KontractStore)} {stop : Stop Guest}
    {outcome' : Except Failure (Unit × Sandbox)} (stops : Stops outcome stop)
    (alike : Program.Alike (fun store box => ∃ left, Boxed left store box) Eq outcome outcome') (left : ℕ) :
    Returns outcome' (finishMain (.stopped stop left)) := by
  cases stops with
  | returned guest caller =>
    cases alike with
    | ok still =>
      obtain ⟨_, boxed⟩ := still
      exact .ok caller.data.storage _ boxed.table.symm
  | halted why caller =>
    cases alike with
    | error same =>
      subst same
      cases why with
      | trap trap => exact .error _
      | panic panic => exact .hostPanic panic

theorem returns_ok {outcome : Except Failure (Unit × Sandbox)} {result : Except Exit RawKontractStorage}
    {raw : RawKontractStorage} (returns : Returns outcome result) (returned : result = .ok raw) :
    ∃ final box, outcome = .ok ((), box) ∧ final.get = box.table ∧ encodeKontractStorage final = .ok raw := by
  cases returns with
  | ok final box left =>
    cases encoded : encodeKontractStorage final with
    | error panic =>
      rw [encoded] at returned
      cases returned
    | ok bytes =>
      rw [encoded] at returned
      cases returned
      exact ⟨final, box, rfl, left, encoded⟩
  | error | hostPanic => cases returned

theorem Compiled.runs (compiled : Compiled node code kontract)
    (read : decodeKontractStorage storage = some (decoded, rest)) :
    ∃ (module : Module node.wasmtime.Guest) (enter : node.wasmtime.Guest → node.wasmtime.Guest) (mem : Memory),
      Implements module kontract (enter module.initial) mem ∧
      ∀ fuel maxRead maxWrite : UInt32, executeCode node code storage fuel maxRead maxWrite =
        finishMain (Metered.run (module.next node.toHost) fuel.toNat
          ⟨enter module.initial, ⟨freshStore maxRead maxWrite decoded, some mem⟩⟩).2 := by
  obtain ⟨module, enter, mem, found, links, start, memory, main, implements⟩ := compiled.compiled
  refine ⟨module, enter, mem, implements, fun fuel maxRead maxWrite => ?_⟩
  have ready : Prepared node code storage module decoded :=
    ⟨compiled.engine, found, ⟨rest, read⟩, compiled.fuelled, compiled.wrapped⟩
  simp only [executeCode, traced_eq ready, runModule, instantiate, links, start, main, memory, not_true_eq_false,
    if_false]

theorem fresh_boxed {calls : ℕ} (few : calls < 2 ^ 32) (maxRead maxWrite : UInt32) (decoded : KontractStorage) :
    Boxed calls (freshStore maxRead maxWrite decoded) ⟨decoded.get, maxRead.toNat, maxWrite.toNat⟩ := by
  have zero : (0 : UInt32).toNat = 0 := rfl
  refine ⟨rfl, ?_, ?_, ?_, ?_⟩ <;> simp only [freshStore, zero] <;> omega

/-- A compiled kontract runs as it is written: with the fuel that it takes, the executor returns what the
    kontract leaves of its table under the limits, or the failure it ends with. With less fuel, it runs out. -/
theorem kontract_executes (compiled : Compiled node code kontract)
    (read : decodeKontractStorage storage = some (decoded, rest)) (maxRead maxWrite : UInt32) :
    ∃ needed, ∀ fuel : UInt32,
      (fuel.toNat < needed → executeCode node code storage fuel maxRead maxWrite = .error (.error .outOfFuel)) ∧
        (needed ≤ fuel.toNat →
          Returns (kontract.run (serving node.toHost) ⟨decoded.get, maxRead.toNat, maxWrite.toNat⟩)
            (executeCode node code storage fuel maxRead maxWrite)) := by
  obtain ⟨module, enter, mem, implements, executed⟩ := Compiled.runs compiled read
  obtain ⟨needed, labels, stop, takes, few, stops⟩ :=
    Implements.runs node.toHost implements (freshStore maxRead maxWrite decoded)
  refine ⟨needed, fun fuel => ⟨fun short => ?_, fun enough => ?_⟩⟩
  · rw [executed, takes.exhausted short]
    rfl
  · obtain ⟨left, same⟩ := Nat.exists_eq_add_of_le enough
    have small := fuel.toNat_lt
    have boxed := fresh_boxed (Nat.lt_of_le_of_lt few (Nat.lt_of_le_of_lt enough small)) maxRead maxWrite decoded
    have alike :=
      (performing_simulates node.toHost).run (.of_calls (Program.calls_any kontract) _) boxed (Nat.le_refl _)
    rw [executed, same, takes left]
    exact Stops.returns stops alike left

end Executions

end KontractsProof.Guest
