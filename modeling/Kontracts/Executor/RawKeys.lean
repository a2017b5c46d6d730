import Kontracts.Executor.Passes
import Kontracts.Executor.Script
import Kontracts.Library.KeyValue

namespace KontractsModel.Executor

open KeyValue Scale

def Host.hashed (host : Host) (key : Key) : Bytes := (host.blake2 key).1

def HostEvent.key : HostEvent → Key
  | .set key _ | .get key _ _ | .remove key => key

def HostEvent.write : HostEvent → Option (Write Key Value)
  | .set key value => some (.set key value)
  | .remove key => some (.remove key)
  | .get .. => none

def writesOf (events : List HostEvent) : List (Write Key Value) := events.filterMap HostEvent.write

end KontractsModel.Executor

namespace KontractsProof.Executor

open Scale KeyValue KontractsModel.Executor

section Calls

variable {host : Host} {keys : Set Key} {table : Table Key Value}

theorem writesOf_append (front back : List HostEvent) : writesOf (front ++ back) = writesOf front ++ writesOf back :=
  List.filterMap_append

theorem Completed.represents (injective : Set.InjOn host.hashed keys) {caller caller' : Caller} {call : HostCall}
    {event : HostEvent} (completed : Completed host caller call event caller') (used : event.key ∈ keys)
    (represents : Represents host.hashed keys caller.data.storage table) :
    Represents host.hashed keys caller'.data.storage (replay table (writesOf [event])) := by
  cases completed with
  | @set _ _ _ _ _ key value => exact represents.apply injective (.set key value) used
  | get => exact represents
  | @remove _ _ _ key => exact represents.apply injective (.remove key) used

theorem represents_tracked (injective : Set.InjOn host.hashed keys) (table : Table Key Value) :
    Tracked host (fun _ events caller => (∀ event ∈ events, event.key ∈ keys) →
      Represents host.hashed keys caller.data.storage (replay table (writesOf events))) where
  memory _ _ _ _ holds := holds
  burned _ _ _ holds := holds
  called _ events _ _ event _ completed holds used := by
    have before := holds fun earlier member => used earlier (List.mem_append_left _ member)
    have here := completed.represents injective
      (used event (List.mem_append_right _ (List.mem_singleton_self event))) before
    rwa [writesOf_append, replay_append]

end Calls

section Executions

variable {node : Node} {keys : Set Key} {code : Bytes} {storage raw : RawKontractStorage}
  {fuel maxRead maxWrite : UInt32} {module : Module node.wasmtime.Guest} {decoded : KontractStorage}
  {table : Table Key Value}

theorem traced_events (ready : Prepared node code storage module decoded) {phase : Phase} {burned : ℕ}
    {events : List HostEvent} {s : Running node.wasmtime.Guest}
    (passes : Passes node.toHost module fuel.toNat ⟨freshStore maxRead maxWrite decoded, module.memory⟩ phase burned
      events s) {event : HostEvent} (member : event ∈ events) :
    event ∈ hostTrace node code storage fuel maxRead maxWrite := by
  obtain ⟨later, trace⟩ := passes_prefix passes
  rw [hostTrace, traced_eq ready, trace]
  exact List.mem_append_left _ member

theorem passes_represents (injective : Set.InjOn node.hashed keys) (ready : Prepared node code storage module decoded)
    (used : ∀ event ∈ hostTrace node code storage fuel maxRead maxWrite, event.key ∈ keys)
    (initial : Represents node.hashed keys decoded table) {phase : Phase} {burned : ℕ}
    {events : List HostEvent} {s : Running node.wasmtime.Guest}
    (passes : Passes node.toHost module fuel.toNat ⟨freshStore maxRead maxWrite decoded, module.memory⟩ phase burned
      events s) : Represents node.hashed keys s.caller.data.storage (replay table (writesOf events)) :=
  (represents_tracked injective table).passes (fun _ => initial) passes
    fun event member => used event (traced_events ready passes member)

/-- A successful execution returns the table it was given with the writes of its trace. -/
theorem executeCode_represents (injective : Set.InjOn node.hashed keys)
    (returned : executeCode node code storage fuel maxRead maxWrite = .ok raw)
    (used : ∀ event ∈ hostTrace node code storage fuel maxRead maxWrite, event.key ∈ keys)
    (initial : ∀ module decoded, Prepared node code storage module decoded →
      Represents node.hashed keys decoded table) :
    ∃ final, encodeKontractStorage final = .ok raw ∧
      Represents node.hashed keys final
        (replay table (writesOf (hostTrace node code storage fuel maxRead maxWrite))) := by
  obtain ⟨module, decoded, ready, ran⟩ := traced_ok (Prod.ext rfl returned)
  obtain ⟨burned, s, guest, caller', passes, here, encoded⟩ := runModule_ok ran
  obtain ⟨memory, -, rfl⟩ := next_returns here
  exact ⟨_, encoded, passes_represents injective ready used (initial module decoded ready) passes⟩

end Executions

end KontractsProof.Executor
