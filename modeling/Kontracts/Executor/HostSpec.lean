import Kontracts.Executor.HostFunctions

namespace KontractsModel.Executor

def FitsAt (mem : Memory) (ptr : UInt32) (value : Value) : Prop :=
  value.length < 2 ^ 6 ∧ ptr.toNat + value.length < mem.size

end KontractsModel.Executor

namespace KontractsProof.Executor

open Scale KontractsModel.Executor

def exceeded (rOrW : Bool) : Halt :=
  .trap (.message (if rOrW then "ExceededWrites" else "ExceededReads"))

theorem addU32_ok {overflowChecks : Bool} {a b c : UInt32} (added : addU32 overflowChecks a b = .ok c) :
    c = a + b := by
  unfold addU32 at added
  split at added
  · exact (Except.ok.inj added).symm
  · split at added
    · cases added
    · exact (Except.ok.inj added).symm

theorem updateWithCheck_ok {overflowChecks : Bool} {val max count : UInt32} {rOrW : Bool}
    (updated : updateWithCheck overflowChecks val max rOrW = .ok count) : count = val + 1 ∧ count ≤ max := by
  unfold updateWithCheck at updated
  cases added : addU32 overflowChecks val 1 with
  | error panic => simp [added, Except.mapError, Bind.bind, Except.bind] at updated
  | ok next =>
    simp only [added, Except.mapError, Bind.bind, Except.bind] at updated
    split at updated
    · rename_i below
      cases updated
      exact ⟨addU32_ok added, below⟩
    · cases updated

theorem toNat_succ {val : UInt32} (fits : val.toNat + 1 < 2 ^ 32) : (val + 1).toNat = val.toNat + 1 := by
  rw [UInt32.toNat_add]
  exact Nat.mod_eq_of_lt fits

theorem updateWithCheck_fits (overflowChecks : Bool) (val max : UInt32) (rOrW : Bool)
    (fits : val.toNat + 1 < 2 ^ 32) :
    updateWithCheck overflowChecks val max rOrW =
      if val < max then .ok (val + 1) else .error (exceeded rOrW) := by
  have compare : val + 1 ≤ max ↔ val < max := by
    rw [UInt32.le_iff_toNat_le, UInt32.lt_iff_toNat_lt, toNat_succ fits]
    omega
  have added : addU32 overflowChecks val 1 = .ok (val + 1) := by
    unfold addU32
    exact if_pos fits
  simp only [updateWithCheck, added, Except.mapError, Bind.bind, Except.bind, compare]
  cases rOrW <;> rfl

theorem updateWithCheck_mono {overflowChecks : Bool} {val max max' count : UInt32} {rOrW : Bool}
    (larger : max ≤ max') (updated : updateWithCheck overflowChecks val max rOrW = .ok count) :
    updateWithCheck overflowChecks val max' rOrW = .ok count := by
  have below := UInt32.le_trans (updateWithCheck_ok updated).2 larger
  unfold updateWithCheck at updated ⊢
  cases added : addU32 overflowChecks val 1 with
  | error panic => simp [added, Except.mapError, Bind.bind, Except.bind] at updated
  | ok next =>
    simp only [added, Except.mapError, Bind.bind, Except.bind] at updated ⊢
    split at updated
    · cases updated
      rw [if_pos below]
    · cases updated

section Functions

variable (host : Host) (caller : Caller)

theorem bind_apply {α β : Type} (first : HostM α) (next : α → HostM β) :
    (first >>= next) caller =
      match first caller with
      | .ok value caller' => next value caller'
      | .error why caller' => .error why caller' := by
  change EStateM.bind first next caller = _
  unfold EStateM.bind
  cases first caller <;> rfl

theorem get_bind {α : Type} (next : Caller → HostM α) : (get >>= next) caller = next caller caller := rfl

theorem modify_bind {α : Type} (change : Caller → Caller) (next : Unit → HostM α) :
    (modify change >>= next) caller = next () (change caller) := rfl

theorem readVec_eq (ptr size : UInt32) :
    readVec ptr size caller =
      match caller.argument ptr size with
      | some bytes => .ok bytes caller
      | none => .error impossibleReading caller := by
  unfold readVec Caller.argument
  simp only [get_bind]
  cases caller.memory with
  | none => rfl
  | some mem =>
    simp only [Option.bind_some]
    cases mem.slice ptr.toNat size.toNat <;> rfl

theorem kontractsSet_eq (key : Key) (value : Value) :
    kontractsSet host key value caller =
      match updateWithCheck host.overflowChecks caller.data.currNWrite caller.data.maxNWrite true with
      | .ok count => .ok () (caller.setData ((caller.data.setWrites count).setStorage
          (caller.data.storage.insert (host.blake2 key).1 value)))
      | .error why => .error why caller := by
  unfold kontractsSet
  simp only [get_bind]
  cases updateWithCheck host.overflowChecks caller.data.currNWrite caller.data.maxNWrite true <;> rfl

theorem kontractsGet_eq (key : Key) :
    kontractsGet host key caller =
      match updateWithCheck host.overflowChecks caller.data.currNRead caller.data.maxNRead false with
      | .ok count =>
        .ok (caller.data.storage.get (host.blake2 key).1) (caller.setData (caller.data.setReads count))
      | .error why => .error why caller := by
  unfold kontractsGet
  simp only [get_bind]
  cases updateWithCheck host.overflowChecks caller.data.currNRead caller.data.maxNRead false <;> rfl

theorem kontractsRemove_eq (key : Key) :
    kontractsRemove host key caller =
      match updateWithCheck host.overflowChecks caller.data.currNWrite caller.data.maxNWrite true with
      | .ok count => .ok () (caller.setData ((caller.data.setWrites count).setStorage
          (caller.data.storage.remove (host.blake2 key).1)))
      | .error why => .error why caller := by
  unfold kontractsRemove
  simp only [get_bind]
  cases updateWithCheck host.overflowChecks caller.data.currNWrite caller.data.maxNWrite true <;> rfl

theorem writeVec_short (vec : Value) (ptr size : UInt32) (mem : Memory) (memory : caller.memory = some mem)
    (short : size.toNat < vec.length) : writeVec vec ptr size caller = .error impossibleWrite caller := by
  unfold writeVec
  simp only [get_bind, memory, if_pos short]
  rfl

theorem writeVec_none (vec : Value) (ptr size : UInt32) (memory : caller.memory = none) :
    writeVec vec ptr size caller = .error impossibleWrite caller := by
  unfold writeVec
  simp only [get_bind, memory]
  rfl

/-- Past the size check, the write succeeds exactly where the buffer, one byte longer than the raw
    value, is inside the memory and as long as the encoding. -/
theorem writeVec_room (vec : Value) (ptr size : UInt32) (mem : Memory) (memory : caller.memory = some mem)
    (room : vec.length ≤ size.toNat) :
    writeVec vec ptr size caller =
      if ptr.toNat + vec.length < mem.size then
        if vec.length < 2 ^ 6 then
          .ok () (caller.setMemory (some (mem.store ptr.toNat (encodeVec vec))))
        else .error (.panic .copyLength) caller
      else .error (.panic .sliceIndex) caller := by
  unfold writeVec
  rw [get_bind]
  simp only [memory, if_neg (Nat.not_lt.mpr room), Memory.indexInclusive, bind_apply]
  by_cases inside : ptr.toNat + vec.length < mem.size
  · have bounds : ptr.toNat ≤ ptr.toNat + vec.length + 1 ∧ ptr.toNat + vec.length + 1 ≤ mem.size := by omega
    have length : ptr.toNat + vec.length + 1 - ptr.toNat = vec.length + 1 := by omega
    simp only [if_pos bounds, if_pos inside, Except.mapError, liftExcept, pure, EStateM.pure,
      Memory.copyFromSlice, length]
    by_cases small : vec.length < 2 ^ 6
    · have encoded := encodeVec_length_small vec small
      simp only [if_pos small, encoded, if_true]
      rfl
    · have encoded := encodeVec_length_large vec (Nat.not_lt.mp small)
      have different : ¬ vec.length + 1 = (encodeVec vec).length := by omega
      simp only [if_neg small, if_neg different]
      rfl
  · have outside : ¬ (ptr.toNat ≤ ptr.toNat + vec.length + 1 ∧ ptr.toNat + vec.length + 1 ≤ mem.size) := by
      omega
    simp only [if_neg outside, if_neg inside]
    rfl

theorem argument_memory {ptr size : UInt32} {bytes : Bytes} {caller : Caller}
    (readable : caller.argument ptr size = some bytes) : ∃ mem, caller.memory = some mem := by
  unfold Caller.argument at readable
  cases memory : caller.memory with
  | none => simp [memory] at readable
  | some mem => exact ⟨mem, rfl⟩

end Functions

section Calls

variable (host : Host) (caller : Caller)

inductive Completed : HostCall → HostEvent → Caller → Prop
  | set {keyPtr keySize valuePtr valueSize count : UInt32} {key : Key} {value : Value}
      (readKey : caller.argument keyPtr keySize = some key)
      (readValue : caller.argument valuePtr valueSize = some value)
      (counted : updateWithCheck host.overflowChecks caller.data.currNWrite caller.data.maxNWrite true =
        .ok count) :
      Completed (.set keyPtr keySize valuePtr valueSize) (.set key value)
        (caller.setData ((caller.data.setWrites count).setStorage
          (caller.data.storage.insert (host.blake2 key).1 value)))
  | get {keyPtr keySize valuePtr valueMaxSize count : UInt32} {key : Key} {mem : Memory}
      (readKey : caller.argument keyPtr keySize = some key)
      (counted : updateWithCheck host.overflowChecks caller.data.currNRead caller.data.maxNRead false =
        .ok count)
      (memory : caller.memory = some mem)
      (room : ((caller.data.storage.get (host.blake2 key).1).getD []).length ≤ valueMaxSize.toNat)
      (fits : FitsAt mem valuePtr ((caller.data.storage.get (host.blake2 key).1).getD [])) :
      Completed (.get keyPtr keySize valuePtr valueMaxSize)
        (.get key (caller.data.storage.get (host.blake2 key).1) valuePtr)
        ((caller.setData (caller.data.setReads count)).setMemory (some (mem.store valuePtr.toNat
          (encodeVec ((caller.data.storage.get (host.blake2 key).1).getD [])))))
  | remove {keyPtr keySize count : UInt32} {key : Key}
      (readKey : caller.argument keyPtr keySize = some key)
      (counted : updateWithCheck host.overflowChecks caller.data.currNWrite caller.data.maxNWrite true =
        .ok count) :
      Completed (.remove keyPtr keySize) (.remove key)
        (caller.setData ((caller.data.setWrites count).setStorage
          (caller.data.storage.remove (host.blake2 key).1)))

theorem perform_set (keyPtr keySize valuePtr valueSize : UInt32) :
    (HostCall.set keyPtr keySize valuePtr valueSize).perform host caller =
      match caller.argument keyPtr keySize, caller.argument valuePtr valueSize with
      | some key, some value => kontractsSet host key value caller
      | _, _ => .error impossibleReading caller := by
  simp only [HostCall.perform, bind_apply, readVec_eq]
  cases caller.argument keyPtr keySize with
  | none => rfl
  | some key =>
    dsimp only
    cases caller.argument valuePtr valueSize <;> rfl

theorem perform_get (keyPtr keySize valuePtr valueMaxSize : UInt32) :
    (HostCall.get keyPtr keySize valuePtr valueMaxSize).perform host caller =
      match caller.argument keyPtr keySize with
      | some key =>
        match updateWithCheck host.overflowChecks caller.data.currNRead caller.data.maxNRead false with
        | .ok count =>
          writeVec ((caller.data.storage.get (host.blake2 key).1).getD []) valuePtr valueMaxSize
            (caller.setData (caller.data.setReads count))
        | .error why => .error why caller
      | none => .error impossibleReading caller := by
  simp only [HostCall.perform, bind_apply, readVec_eq]
  cases caller.argument keyPtr keySize with
  | none => rfl
  | some key =>
    simp only [kontractsGet_eq]
    cases updateWithCheck host.overflowChecks caller.data.currNRead caller.data.maxNRead false <;> rfl

theorem perform_remove (keyPtr keySize : UInt32) :
    (HostCall.remove keyPtr keySize).perform host caller =
      match caller.argument keyPtr keySize with
      | some key => kontractsRemove host key caller
      | none => .error impossibleReading caller := by
  simp only [HostCall.perform, bind_apply, readVec_eq]
  cases caller.argument keyPtr keySize <;> rfl

theorem Completed.event_eq {call : HostCall} {event : HostEvent} {caller' : Caller}
    (completed : Completed host caller call event caller') : call.event host caller = some event := by
  cases completed with
  | set readKey readValue => simp [HostCall.event, readKey, readValue]
  | get readKey => simp [HostCall.event, readKey]
  | remove readKey => simp [HostCall.event, readKey]

theorem Completed.perform_eq {call : HostCall} {event : HostEvent} {caller' : Caller}
    (completed : Completed host caller call event caller') : call.perform host caller = .ok () caller' := by
  cases completed with
  | set readKey readValue counted => simp only [perform_set, readKey, readValue, kontractsSet_eq, counted]
  | @get _ _ valuePtr valueMaxSize count key mem readKey counted memory room fits =>
    simp only [perform_get, readKey, counted]
    have written := writeVec_room (caller.setData (caller.data.setReads count)) _ valuePtr valueMaxSize mem
      memory room
    rwa [if_pos fits.2, if_pos fits.1] at written
  | remove readKey counted => simp only [perform_remove, readKey, kontractsRemove_eq, counted]

theorem perform_ok {call : HostCall} {caller' : Caller} (performed : call.perform host caller = .ok () caller') :
    ∃ event, Completed host caller call event caller' := by
  cases call with
  | set keyPtr keySize valuePtr valueSize =>
    rw [perform_set] at performed
    split at performed
    · rename_i key value readKey readValue
      rw [kontractsSet_eq] at performed
      split at performed
      · rename_i count counted
        obtain ⟨-, rfl⟩ := EStateM.Result.ok.inj performed
        exact ⟨_, .set readKey readValue counted⟩
      · cases performed
    · cases performed
  | get keyPtr keySize valuePtr valueMaxSize =>
    rw [perform_get] at performed
    split at performed
    · rename_i key readKey
      split at performed
      · rename_i count counted
        obtain ⟨mem, memory⟩ := argument_memory readKey
        by_cases short : valueMaxSize.toNat < ((caller.data.storage.get (host.blake2 key).1).getD []).length
        · have refused := writeVec_short (caller.setData (caller.data.setReads count)) _ valuePtr
            valueMaxSize mem memory short
          cases refused.symm.trans performed
        · have written := writeVec_room (caller.setData (caller.data.setReads count)) _ valuePtr
            valueMaxSize mem memory (Nat.not_lt.mp short)
          replace performed := written.symm.trans performed
          split at performed
          · rename_i inside
            split at performed
            · rename_i small
              obtain ⟨-, rfl⟩ := EStateM.Result.ok.inj performed
              exact ⟨_, .get readKey counted memory (Nat.not_lt.mp short) ⟨small, inside⟩⟩
            · cases performed
          · cases performed
      · cases performed
    · cases performed
  | remove keyPtr keySize =>
    rw [perform_remove] at performed
    split at performed
    · rename_i key readKey
      rw [kontractsRemove_eq] at performed
      split at performed
      · rename_i count counted
        obtain ⟨-, rfl⟩ := EStateM.Result.ok.inj performed
        exact ⟨_, .remove readKey counted⟩
      · cases performed
    · cases performed

end Calls

end KontractsProof.Executor
