import Kontracts.Executor.ExecuteCode

namespace KontractsModel.Executor

inductive Script
  | done
  | call (call : HostCall) (rest : Script)
  | branch (test : Memory → Bool) (yes no : Script)

namespace Script

def step : Script → Option Memory → GuestStep Script
  | .done, memory => .done .done memory
  | .call hostCall rest, memory => .call hostCall rest memory
  | .branch test yes no, memory => .compute (if memory.any test then yes else no) memory

def module (main : Script) (memory : Memory) : Module Script where
  links := true
  memory := some memory
  initial := .done
  start := none
  main := some (fun _ => main)
  step := Script.step

end Script

/-- The wasm binary of a module that imports `set`, `get` and `remove` as functions 0, 1 and 2, exports
    a memory of one page and a `main` made of the given instructions. -/
def binary (instructions : List UInt8) : List UInt8 :=
  [0x00, 0x61, 0x73, 0x6d, 0x01, 0x00, 0x00, 0x00] ++
  [0x01, 0x10, 0x03, 0x60, 0x04, 0x7f, 0x7f, 0x7f, 0x7f, 0x00, 0x60, 0x02, 0x7f, 0x7f, 0x00, 0x60, 0x00, 0x00] ++
  [0x02, 0x22, 0x03, 0x03, 0x65, 0x6e, 0x76, 0x03, 0x73, 0x65, 0x74, 0x00, 0x00,
    0x03, 0x65, 0x6e, 0x76, 0x03, 0x67, 0x65, 0x74, 0x00, 0x00,
    0x03, 0x65, 0x6e, 0x76, 0x06, 0x72, 0x65, 0x6d, 0x6f, 0x76, 0x65, 0x00, 0x01] ++
  [0x03, 0x02, 0x01, 0x02, 0x05, 0x03, 0x01, 0x00, 0x01] ++
  [0x07, 0x11, 0x02, 0x06, 0x6d, 0x65, 0x6d, 0x6f, 0x72, 0x79, 0x02, 0x00, 0x04, 0x6d, 0x61, 0x69, 0x6e, 0x00, 0x03] ++
  [0x0a, UInt8.ofNat (instructions.length + 4), 0x01, UInt8.ofNat (instructions.length + 2), 0x00] ++
  instructions ++ [0x0b]

def page : Memory := ⟨65536, fun _ => 0⟩

def paddedDigest (bytes : List UInt8) : Digest :=
  ⟨(bytes ++ List.replicate 32 0).take 32, by simp⟩

def Script.node (compiled : List (List UInt8 × Script)) : Node where
  overflowChecks := true
  blake2 := paddedDigest
  wasmtime :=
    { Guest := Script, engineNew := true, addFuel := true, funcWrap := fun _ => true
      moduleNew := fun code => (compiled.lookup code).map (fun script => script.module page) }

def storing : Script := .call (.set 0 0 0 0) .done

def storingCode : List UInt8 := binary [0x41, 0x00, 0x41, 0x00, 0x41, 0x00, 0x41, 0x00, 0x10, 0x00]

def paddedStoringCode : List UInt8 :=
  binary [0x01, 0x41, 0x00, 0x41, 0x00, 0x41, 0x00, 0x41, 0x00, 0x10, 0x00]

/-- Reads the empty key, and removes it if it had a value but sets it to one byte if it had none. -/
def toggling : Script :=
  .call (.get 0 0 0 63)
    (.branch (fun mem => mem.byte 0 ≠ 0) (.call (.remove 0 0) .done) (.call (.set 0 0 0 1) .done))

def togglingCode : List UInt8 :=
  binary [0x41, 0x00, 0x41, 0x00, 0x41, 0x00, 0x41, 0x3f, 0x10, 0x01, 0x41, 0x00, 0x2d, 0x00, 0x00, 0x04, 0x40,
    0x41, 0x00, 0x41, 0x00, 0x10, 0x02, 0x05, 0x41, 0x00, 0x41, 0x00, 0x41, 0x00, 0x41, 0x01, 0x10, 0x00, 0x0b]

def localNode : Node :=
  Script.node [(storingCode, storing), (paddedStoringCode, storing), (togglingCode, toggling)]

end KontractsModel.Executor
