import Kontracts.Library.Scale

namespace KontractsModel.Executor

open Scale

abbrev Key := Bytes
abbrev Value := Bytes
abbrev RawKontractStorage := Bytes
abbrev KontractStorage := BTreeMap Key Value

abbrev Digest := { digest : Bytes // digest.length = 32 }

structure Host where
  overflowChecks : Bool
  blake2 : Bytes → Digest

structure KontractStore where
  maxNRead : UInt32
  maxNWrite : UInt32
  currNRead : UInt32
  currNWrite : UInt32
  storage : KontractStorage

structure Memory where
  size : ℕ
  byte : ℕ → UInt8

/-- `Caller<'_, KontractStore>`, with what its export "memory" is, if it is a memory. -/
structure Caller where
  data : KontractStore
  memory : Option Memory

inductive Trap
  | message (text : String)
  | outOfFuel
  | instruction (text : String)
deriving DecidableEq

inductive Panic
  | addOverflow
  | subOverflow
  | mulOverflow
  | sliceIndex
  | copyLength
  | tooManyElements
  | expect (text : String)
deriving DecidableEq

inductive Halt
  | trap (trap : Trap)
  | panic (panic : Panic)
deriving DecidableEq

/-- A host function changes its caller step by step, and what it changed before failing stays. -/
abbrev HostM := EStateM Halt Caller

/-- `a + b` on `u32`: with `overflow-checks` an overflow panics, without it wraps. -/
def addU32 (overflowChecks : Bool) (a b : UInt32) : Except Panic UInt32 :=
  if a.toNat + b.toNat < 2 ^ 32 then .ok (a + b)
  else if overflowChecks then .error .addOverflow
  else .ok (a + b)

/-- `false` counts a read. -/
def updateWithCheck (overflowChecks : Bool) (val max : UInt32) (rOrW : Bool) : Except Halt UInt32 := do
  let next ← (addU32 overflowChecks val 1).mapError .panic
  if next ≤ max then .ok next
  else
    .error (.trap (match rOrW with
      | true => .message "ExceededWrites"
      | false => .message "ExceededReads"))

def KontractStore.setReads (store : KontractStore) (count : UInt32) : KontractStore :=
  { store with currNRead := count }

def KontractStore.setWrites (store : KontractStore) (count : UInt32) : KontractStore :=
  { store with currNWrite := count }

def KontractStore.setStorage (store : KontractStore) (storage : KontractStorage) : KontractStore :=
  { store with storage := storage }

def Caller.setData (caller : Caller) (store : KontractStore) : Caller := { caller with data := store }

def Caller.setMemory (caller : Caller) (memory : Option Memory) : Caller := { caller with memory := memory }

def kontractsSet (host : Host) (key : Key) (value : Value) : HostM Unit := do
  let store := (← get).data
  let count ← liftExcept (updateWithCheck host.overflowChecks store.currNWrite store.maxNWrite true)
  modify (fun caller => caller.setData (caller.data.setWrites count))
  modify (fun caller =>
    caller.setData (caller.data.setStorage (caller.data.storage.insert (host.blake2 key).1 value)))

def kontractsGet (host : Host) (key : Key) : HostM (Option Value) := do
  let store := (← get).data
  let count ← liftExcept (updateWithCheck host.overflowChecks store.currNRead store.maxNRead false)
  modify (fun caller => caller.setData (caller.data.setReads count))
  return store.storage.get (host.blake2 key).1

def kontractsRemove (host : Host) (key : Key) : HostM Unit := do
  let store := (← get).data
  let count ← liftExcept (updateWithCheck host.overflowChecks store.currNWrite store.maxNWrite true)
  modify (fun caller => caller.setData (caller.data.setWrites count))
  modify (fun caller =>
    caller.setData (caller.data.setStorage (caller.data.storage.remove (host.blake2 key).1)))

namespace Memory

def window (mem : Memory) (first count : ℕ) : Bytes := (List.range count).map (fun i => mem.byte (first + i))

def slice (mem : Memory) (first count : ℕ) : Option Bytes :=
  if first ≤ mem.size then
    if count ≤ mem.size - first then some (mem.window first count) else none
  else none

/-- Indexing by `first..=last`: where the buffer starts and how long it is. -/
def indexInclusive (mem : Memory) (first last : ℕ) : Except Panic (ℕ × ℕ) :=
  if first ≤ last + 1 ∧ last + 1 ≤ mem.size then .ok (first, last + 1 - first) else .error .sliceIndex

def store (mem : Memory) (first : ℕ) (source : Bytes) : Memory where
  size := mem.size
  byte i := if first ≤ i then (source[i - first]?).getD (mem.byte i) else mem.byte i

def copyFromSlice (mem : Memory) (buffer : ℕ × ℕ) (source : Bytes) : Except Panic Memory :=
  if buffer.2 = source.length then .ok (mem.store buffer.1 source) else .error .copyLength

end Memory

def impossibleReading : Halt := .trap (.message "Impossible reading wasm memory")

def impossibleWrite : Halt := .trap (.message "Impossible write data in wasm memory")

def readVec (ptr size : UInt32) : HostM Value := do
  match (← get).memory with
  | none => throw impossibleReading
  | some mem =>
    match mem.slice ptr.toNat size.toNat with
    | some bytes => return bytes
    | none => throw impossibleReading

def writeVec (vec : Value) (ptr size : UInt32) : HostM Unit := do
  match (← get).memory with
  | none => throw impossibleWrite
  | some mem =>
    if size.toNat < vec.length then throw impossibleWrite
    else
      -- `ptr..=ptr + len`: one byte more than the raw value, for a compact length of one byte
      let wasmBuffer ← liftExcept ((mem.indexInclusive ptr.toNat (ptr.toNat + vec.length)).mapError Halt.panic)
      let written ← liftExcept ((mem.copyFromSlice wasmBuffer (encodeVec vec)).mapError Halt.panic)
      modify (fun caller => caller.setMemory (some written))

inductive HostCall
  | set (keyPtr keySize valuePtr valueSize : UInt32)
  | get (keyPtr keySize valuePtr valueMaxSize : UInt32)
  | remove (keyPtr keySize : UInt32)
deriving DecidableEq

def HostCall.perform (host : Host) : HostCall → HostM Unit
  | .set keyPtr keySize valuePtr valueSize => do
    let keyVec ← readVec keyPtr keySize
    let valueVec ← readVec valuePtr valueSize
    kontractsSet host keyVec valueVec
  | .get keyPtr keySize valuePtr valueMaxSize => do
    let keyVec ← readVec keyPtr keySize
    let valueVec := (← kontractsGet host keyVec).getD []
    writeVec valueVec valuePtr valueMaxSize
  | .remove keyPtr keySize => do
    let keyVec ← readVec keyPtr keySize
    kontractsRemove host keyVec

inductive HostEvent
  | set (key : Key) (value : Value)
  | get (key : Key) (found : Option Value) (valuePtr : UInt32)
  | remove (key : Key)
deriving DecidableEq

def Caller.argument (caller : Caller) (ptr size : UInt32) : Option Bytes :=
  caller.memory.bind (fun mem => mem.slice ptr.toNat size.toNat)

def HostCall.event (host : Host) (caller : Caller) : HostCall → Option HostEvent
  | .set keyPtr keySize valuePtr valueSize =>
    (caller.argument keyPtr keySize).bind fun key =>
      (caller.argument valuePtr valueSize).map fun value => .set key value
  | .get keyPtr keySize valuePtr _ =>
    (caller.argument keyPtr keySize).map fun key =>
      .get key (caller.data.storage.get (host.blake2 key).1) valuePtr
  | .remove keyPtr keySize => (caller.argument keyPtr keySize).map fun key => .remove key

end KontractsModel.Executor
