import Kontracts.Executor.Buffer
import Kontracts.Guest.Kontract

namespace KontractsModel.Guest

open Scale KontractsModel.Executor

/-- Guest code that carries out a kontract of short keys and values: it lays the key out at the start of
    its memory and the value, or the buffer, 256 bytes later. -/
inductive Interpreter
  | running (kontract : Kontract Unit)
  | reading (next : Value → Kontract Unit)

namespace Interpreter

def valuePtr : UInt32 := 256

def layout (key bytes : Bytes) (mem : Memory) : Memory := (mem.store 0 key).store valuePtr.toNat bytes

def step : Interpreter → Option Memory → GuestStep Interpreter
  | .running (.done ()), memory => .done (.running (.done ())) memory
  | .running .fail, _ => .trap "unreachable"
  | .running (.call (.write key value) next), memory =>
    .call (.set 0 (UInt32.ofNat key.length) valuePtr (UInt32.ofNat value.length)) (.running (next ()))
      (memory.map (layout key value))
  | .running (.call (.read key) next), memory =>
    .call (.get 0 (UInt32.ofNat key.length) valuePtr MaxValueBytes) (.reading next)
      (memory.map (layout key (List.replicate MaxValueBytes.toNat 0)))
  | .running (.call (.delete key) next), memory =>
    .call (.remove 0 (UInt32.ofNat key.length)) (.running (next ())) (memory.map (layout key []))
  | .reading next, memory =>
    match (memory.bind (fun mem => mem.slice valuePtr.toNat MaxValueBytes.toNat)).bind decodeVec with
    | some (value, _) => .compute (.running (next value)) memory
    | none => .trap "unreachable"

def module (kontract : Kontract Unit) : Module Interpreter where
  links := true
  memory := some page
  initial := .running kontract
  start := none
  main := some id
  step := step

def node (compiled : List (Bytes × Kontract Unit)) : Node where
  overflowChecks := true
  blake2 := paddedDigest
  wasmtime :=
    { Guest := Interpreter, engineNew := true, addFuel := true, funcWrap := fun _ => true
      moduleNew := fun code => (compiled.lookup code).map module }

end Interpreter

def Operation.Short : Operation → Prop
  | .write key value => key.length ≤ 256 ∧ value.length ≤ 32768
  | .read key | .delete key => key.length ≤ 256

end KontractsModel.Guest

namespace KontractsProof.Guest

open Scale KontractsModel KontractsModel.Executor KontractsModel.Guest KontractsProof.Executor

section Layouts

variable {mem : Memory} {key bytes : Bytes}

theorem window_stored (mem : Memory) (first : ℕ) (source : Bytes) :
    (mem.store first source).window first source.length = source := by
  obtain ⟨tail, window⟩ := window_store mem first (Nat.le_refl source.length)
  have length := congrArg List.length window
  simp only [Memory.window, List.length_map, List.length_range, List.length_append] at length
  have none : tail = [] := List.eq_nil_of_length_eq_zero (by omega)
  rw [window, none, List.append_nil]

theorem window_before (mem : Memory) {first count second : ℕ} (source : Bytes) (apart : first + count ≤ second) :
    (mem.store second source).window first count = mem.window first count := by
  refine List.map_congr_left fun i member => ?_
  have inside := List.mem_range.mp member
  exact (store_sameOutside mem second source (Nat.le_refl _)).2 (first + i) (.inl (by omega))

def keyVec (room : mem.size = 65536) (short : key.length ≤ 256) : GuestVec (Interpreter.layout key bytes mem) key where
  ptr := 0
  len := UInt32.ofNat key.length
  held := by
    have length : (UInt32.ofNat key.length).toNat = key.length :=
      UInt32.toNat_ofNat_of_lt' (Nat.lt_of_le_of_lt short (by decide))
    have inside : (0 : UInt32).toNat + key.length ≤ (Interpreter.layout key bytes mem).size := by
      change 0 + key.length ≤ mem.size
      omega
    rw [length, slice_inside inside, Interpreter.layout]
    have before : (0 : UInt32).toNat + key.length ≤ Interpreter.valuePtr.toNat := by
      change 0 + key.length ≤ 256
      omega
    rw [window_before _ _ before]
    exact congrArg some (window_stored mem 0 key)

def valueVec (room : mem.size = 65536) (short : bytes.length ≤ 32768) :
    GuestVec (Interpreter.layout key bytes mem) bytes where
  ptr := Interpreter.valuePtr
  len := UInt32.ofNat bytes.length
  held := by
    have length : (UInt32.ofNat bytes.length).toNat = bytes.length :=
      UInt32.toNat_ofNat_of_lt' (Nat.lt_of_le_of_lt short (by decide))
    have inside : Interpreter.valuePtr.toNat + bytes.length ≤ (Interpreter.layout key bytes mem).size := by
      change 256 + bytes.length ≤ mem.size
      omega
    rw [length, slice_inside inside]
    exact congrArg some (window_stored _ _ bytes)

end Layouts

theorem read_decodes {mem : Memory} {next : Value → Kontract Unit} {value : Value} {tail : Bytes}
    (decoded : (mem.slice Interpreter.valuePtr.toNat MaxValueBytes.toNat).bind decodeVec = some (value, tail)) :
    Interpreter.step (.reading next) (some mem) = .compute (.running (next value)) (some mem) := by
  simp only [Interpreter.step, Option.bind_some, decoded]

theorem interpreter_implements (main : Kontract Unit) {kontract : Kontract Unit}
    (short : kontract.Calls Operation.Short) {mem : Memory} (room : mem.size = 65536) :
    Implements (Interpreter.module main) kontract (.running kontract) mem := by
  induction kontract generalizing mem with
  | done result => exact .done rfl
  | fail => exact .panic rfl
  | call op next ih =>
    obtain ⟨fits, rest⟩ := short
    cases op with
    | write key value => exact .write (keyVec room fits.1) (valueVec room fits.2) rfl (ih () (rest ()) room)
    | read key =>
      refine .read (keyVec room fits) (valueVec room (by decide)) rfl fun bytes value tail _ decoded => ?_
      exact .compute (read_decodes decoded) (ih value (rest value) room)
    | delete key => exact .delete (keyVec room fits) rfl (ih () (rest ()) room)

theorem interpreter_compiled {compiled : List (Bytes × Kontract Unit)} {code : Bytes} {kontract : Kontract Unit}
    (found : compiled.lookup code = some kontract) (short : kontract.Calls Operation.Short) :
    Compiled (Interpreter.node compiled) code kontract where
  engine := rfl
  fuelled := rfl
  wrapped _ _ := rfl
  compiled := by
    have made : (Interpreter.node compiled).wasmtime.moduleNew code = some (Interpreter.module kontract) := by
      simp only [Interpreter.node, found, Option.map_some]
    exact ⟨Interpreter.module kontract, id, page, made, rfl, rfl, rfl, rfl, interpreter_implements kontract short rfl⟩

end KontractsProof.Guest
