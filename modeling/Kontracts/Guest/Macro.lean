import Kontracts.Executor.RawKeys

namespace KontractsModel.Guest

open Scale KeyValue KontractsModel.Executor

def MaxValueBytes : UInt32 := 100

/-- A `Vec<u8>` of the guest, whose buffer lies inside the linear memory. -/
structure GuestVec (mem : Memory) (bytes : Bytes) where
  ptr : UInt32
  len : UInt32
  held : mem.slice ptr.toNat len.toNat = some bytes

/-- `vec![0; MaxValueBytes]` -/
abbrev ResultVec (mem : Memory) := GuestVec mem (List.replicate MaxValueBytes.toNat 0)

def abort : Halt := .trap (.instruction "unreachable")

def write (host : Host) {mem : Memory} {key : Key} {value : Value} (keyVec : GuestVec mem key)
    (valueVec : GuestVec mem value) : HostM Unit := do
  modify (fun caller => caller.setMemory (some mem))
  (HostCall.set keyVec.ptr keyVec.len valueVec.ptr valueVec.len).perform host

def read (host : Host) {mem : Memory} {key : Key} (keyVec : GuestVec mem key) (result : ResultVec mem) :
    HostM Value := do
  modify (fun caller => caller.setMemory (some mem))
  (HostCall.get keyVec.ptr keyVec.len result.ptr result.len).perform host
  match ((← get).argument result.ptr result.len).bind decodeVec with
  | some (value, _) => return value
  | none => throw abort

def delete (host : Host) {mem : Memory} {key : Key} (keyVec : GuestVec mem key) : HostM Unit := do
  modify (fun caller => caller.setMemory (some mem))
  (HostCall.remove keyVec.ptr keyVec.len).perform host

inductive Invocation
  | write {mem : Memory} (key : Key) (value : Value) (keyVec : GuestVec mem key) (valueVec : GuestVec mem value)
  | read {mem : Memory} (key : Key) (keyVec : GuestVec mem key) (result : ResultVec mem)
  | delete {mem : Memory} (key : Key) (keyVec : GuestVec mem key)

namespace Invocation

def key : Invocation → Key
  | .write key .. | .read key .. | .delete key .. => key

def perform (host : Host) : Invocation → HostM Unit
  | .write _ _ keyVec valueVec => Guest.write host keyVec valueVec
  | .read _ keyVec result => do
    let _ ← Guest.read host keyVec result
  | .delete _ keyVec => Guest.delete host keyVec

def performAll (host : Host) : List Invocation → HostM Unit
  | [] => return ()
  | first :: rest => do
    first.perform host
    performAll host rest

def isRead : Invocation → Bool
  | .read .. => true
  | .write .. | .delete .. => false

def apply (table : Table Key Value) : Invocation → Table Key Value
  | .write key value _ _ => (Write.set key value).apply table
  | .read .. => table
  | .delete key _ => (Write.remove key).apply table

def Fits (table : Table Key Value) : Invocation → Prop
  | .read key .. => ((table key).getD []).length < 64
  | .write .. | .delete .. => True

def AllFit : Table Key Value → List Invocation → Prop
  | _, [] => True
  | table, first :: rest => first.Fits table ∧ AllFit (first.apply table) rest

def reads (calls : List Invocation) : ℕ := calls.countP isRead

def writes (calls : List Invocation) : ℕ := calls.countP (fun call => !call.isRead)

end Invocation

def thenRead (host : Host) (calls : List Invocation) {mem : Memory} {key : Key} (keyVec : GuestVec mem key)
    (result : ResultVec mem) : HostM Value := do
  Invocation.performAll host calls
  read host keyVec result

def stored (host : Host) (caller : Caller) : Table Key Value := fun key => caller.data.storage.get (host.hashed key)

structure Room (caller : Caller) (reads writes : ℕ) : Prop where
  reads : caller.data.currNRead.toNat + reads ≤ caller.data.maxNRead.toNat
  writes : caller.data.currNWrite.toNat + writes ≤ caller.data.maxNWrite.toNat

end KontractsModel.Guest
