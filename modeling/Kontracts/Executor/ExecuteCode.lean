import Kontracts.Executor.HostFunctions
import Kontracts.Library.Metered

namespace KontractsModel.Executor

open Scale

inductive ExecutionErrors
  | incorrecBinary
  | impossibleCreateInstance
  | mainEntryPointNotDefined
  | wasmPanic
  | impossibleAddFuel
  | impossibleCreateEngine
  | impossibleCreateHostFunction
  | impossibleDecodingKontractStorage
  | unexpectedBehavoiur
  | outOfFuel
  | outOfReads
  | outOfWrites
deriving DecidableEq

/-- What guest code does next, seen from the host. Computing and calling the host burn fuel. -/
inductive GuestStep (Guest : Type)
  | compute (guest : Guest) (memory : Option Memory)
  | call (call : HostCall) (guest : Guest) (memory : Option Memory)
  | done (guest : Guest) (memory : Option Memory)
  | trap (text : String)

/-- A compiled module: its guest code can see its own state and its memory, nothing else. -/
structure Module (Guest : Type) where
  links : Bool
  memory : Option Memory
  initial : Guest
  start : Option (Guest → Guest)
  main : Option (Guest → Guest)
  step : Guest → Option Memory → GuestStep Guest

/-- wasmtime: whether its constructors succeed, and what it makes of a binary. `add_fuel` fails only
    where the engine was configured without fuel, whatever the amount. -/
structure Wasmtime where
  Guest : Type
  engineNew : Bool
  moduleNew : Bytes → Option (Module Guest)
  addFuel : Bool
  funcWrap : String → Bool

structure Node extends Host where
  wasmtime : Wasmtime

inductive Exit
  | error (error : ExecutionErrors)
  | panic (panic : Panic)
deriving DecidableEq

structure Running (Guest : Type) where
  guest : Guest
  caller : Caller

inductive Stop (Guest : Type)
  | returned (guest : Guest) (caller : Caller)
  | halted (why : Halt) (caller : Caller)

/-- Each step that burns is one unit and one check of the fuel. wasmtime adds up the units of straight-line code and
    checks them at function entries and loop heads, so code that it lets go on past its fuel runs here with more. -/
def Module.next {Guest : Type} (host : Host) (module : Module Guest) (s : Running Guest) :
    Metered.Step (Running Guest) HostEvent (Stop Guest) :=
  match module.step s.guest s.caller.memory with
  | .done guest memory => .stop (.returned guest (s.caller.setMemory memory))
  | .trap text => .stop (.halted (.trap (.instruction text)) s.caller)
  | .compute guest memory => .burn (.ok (none, ⟨guest, s.caller.setMemory memory⟩))
  | .call call guest memory =>
    let caller := s.caller.setMemory memory
    match call.perform host caller with
    | .ok _ caller' => .burn (.ok (call.event host caller, ⟨guest, caller'⟩))
    | .error why caller' => .burn (.error (.halted why caller'))

def decodeKontractStorage : Decoder KontractStorage := decodeMap decodeVec decodeVec

/-- `storage.encode()`; parity-scale-codec panics on a length that is no `u32`. -/
def encodeKontractStorage (storage : KontractStorage) : Except Panic RawKontractStorage :=
  if storage.len < 2 ^ 32 ∧ ∀ entry ∈ storage.entries, entry.1.length < 2 ^ 32 ∧ entry.2.length < 2 ^ 32 then
    .ok (encodeMap encodeVec encodeVec storage)
  else .error .tooManyElements

def Trap.displayReason : Trap → String
  | .message text => text
  | .outOfFuel => "all fuel consumed by WebAssembly"
  | .instruction text => "wasm trap: " ++ text

def classify (reason : String) : ExecutionErrors :=
  match reason with
  | "all fuel consumed by WebAssembly" => .outOfFuel
  | "ExceededReads" => .outOfReads
  | "ExceededWrites" => .outOfWrites
  | _ => .wasmPanic

def prepare (node : Node) (code : Bytes) (storage : RawKontractStorage) (maxRead maxWrite : UInt32) :
    Except ExecutionErrors (Module node.wasmtime.Guest × KontractStore) := do
  if ¬ node.wasmtime.engineNew then throw .impossibleCreateEngine
  let some module := node.wasmtime.moduleNew code | throw .incorrecBinary
  let some (decoded, _) := decodeKontractStorage storage | throw .impossibleDecodingKontractStorage
  let store : KontractStore :=
    { maxNRead := maxRead, maxNWrite := maxWrite, currNRead := 0, currNWrite := 0, storage := decoded }
  if ¬ node.wasmtime.addFuel then throw .impossibleAddFuel
  if ¬ node.wasmtime.funcWrap "set" then throw .impossibleDecodingKontractStorage
  if ¬ node.wasmtime.funcWrap "get" then throw .impossibleDecodingKontractStorage
  if ¬ node.wasmtime.funcWrap "remove" then throw .impossibleDecodingKontractStorage
  return (module, store)

/-- `linker.instantiate`: the start function, if there is one, runs in the same store. Whatever
    traps there is an instantiation error. -/
def instantiate {Guest : Type} (host : Host) (module : Module Guest) (fuel : ℕ) (caller : Caller) :
    List HostEvent × Except Exit (Running Guest × ℕ) :=
  if ¬ module.links then ([], .error (.error .impossibleCreateInstance))
  else
    match module.start with
    | none => ([], .ok (⟨module.initial, caller⟩, fuel))
    | some start =>
      let ran := Metered.run (module.next host) fuel ⟨start module.initial, caller⟩
      match ran.2 with
      | .stopped (.returned guest caller') left => (ran.1, .ok (⟨guest, caller'⟩, left))
      | .stopped (.halted (.panic panic) _) _ => (ran.1, .error (.panic panic))
      | .stopped (.halted (.trap _) _) _ | .exhausted => (ran.1, .error (.error .impossibleCreateInstance))

def finishMain {Guest : Type} : Metered.End (Stop Guest) → Except Exit RawKontractStorage
  | .stopped (.returned _ caller) _ => (encodeKontractStorage caller.data.storage).mapError .panic
  | .stopped (.halted (.panic panic) _) _ => .error (.panic panic)
  | .stopped (.halted (.trap trap) _) _ => .error (.error (classify trap.displayReason))
  | .exhausted => .error (.error (classify Trap.outOfFuel.displayReason))

def runModule {Guest : Type} (host : Host) (module : Module Guest) (fuel : ℕ) (caller : Caller) :
    List HostEvent × Except Exit RawKontractStorage :=
  match instantiate host module fuel caller with
  | (events, .error exit) => (events, .error exit)
  | (events, .ok (instance', left)) =>
    match module.main with
    | none => (events, .error (.error .mainEntryPointNotDefined))
    | some main =>
      let ran := Metered.run (module.next host) left ⟨main instance'.guest, instance'.caller⟩
      (events ++ ran.1, finishMain ran.2)

def traced (node : Node) (code : Bytes) (storage : RawKontractStorage) (fuel maxRead maxWrite : UInt32) :
    List HostEvent × Except Exit RawKontractStorage :=
  match prepare node code storage maxRead maxWrite with
  | .error error => ([], .error (.error error))
  | .ok (module, store) => runModule node.toHost module fuel.toNat ⟨store, module.memory⟩

def executeCode (node : Node) (code : Bytes) (storage : RawKontractStorage) (fuel maxRead maxWrite : UInt32) :
    Except Exit RawKontractStorage :=
  (traced node code storage fuel maxRead maxWrite).2

def hostTrace (node : Node) (code : Bytes) (storage : RawKontractStorage) (fuel maxRead maxWrite : UInt32) :
    List HostEvent :=
  (traced node code storage fuel maxRead maxWrite).1

end KontractsModel.Executor
