import Kontracts.Executor.Panics

namespace KontractsModel.Executor

open Scale

def Memory.SameOutside (first count : ℕ) (mem mem' : Memory) : Prop :=
  mem'.size = mem.size ∧ ∀ i, i < first ∨ first + count ≤ i → mem'.byte i = mem.byte i

section Gets

variable (host : Host) (caller : Caller)

def Caller.valueVec (key : Key) : Value := (caller.data.storage.get (host.blake2 key).1).getD []

variable (keyPtr keySize valuePtr valueMaxSize : UInt32)

/-- A `get` keeps to the buffer it was offered: what it writes is in there, and what does not fit is
    refused before a byte is written. -/
structure StaysInBuffer : Prop where
  inside : ∀ mem caller', caller.memory = some mem →
    (HostCall.get keyPtr keySize valuePtr valueMaxSize).perform host caller = .ok () caller' →
    ∃ mem', caller'.memory = some mem' ∧ mem.SameOutside valuePtr.toNat valueMaxSize.toNat mem'
  refused : ∀ key, caller.argument keyPtr keySize = some key →
    valueMaxSize.toNat < (encodeVec (caller.valueVec host key)).length →
    ∃ trap caller', (HostCall.get keyPtr keySize valuePtr valueMaxSize).perform host caller =
      .error (.trap trap) caller' ∧ caller'.memory = caller.memory

def BufferFits : Prop :=
  ∀ key, caller.argument keyPtr keySize = some key →
    (encodeVec (caller.valueVec host key)).length ≤ valueMaxSize.toNat ∨
      match updateWithCheck host.overflowChecks caller.data.currNRead caller.data.maxNRead false with
      | .ok _ => valueMaxSize.toNat < (caller.valueVec host key).length
      | .error (.trap _) => True
      | .error (.panic _) => False

end Gets

end KontractsModel.Executor

namespace KontractsProof.Executor

open Scale KontractsModel.Executor

theorem store_sameOutside (mem : Memory) (first : ℕ) (source : Bytes) {count : ℕ} (fits : source.length ≤ count) :
    Memory.SameOutside first count mem (mem.store first source) := by
  refine ⟨rfl, fun i outside => ?_⟩
  simp only [Memory.store]
  split
  · rename_i above
    have past : source.length ≤ i - first := by omega
    rw [List.getElem?_eq_none past, Option.getD_none]
  · rfl

section Gets

variable {host : Host} {caller : Caller} {keyPtr keySize valuePtr valueMaxSize : UInt32} {key : Key}

theorem stays_of_refused {trap : Trap} {caller' : Caller}
    (failed : (HostCall.get keyPtr keySize valuePtr valueMaxSize).perform host caller = .error (.trap trap) caller')
    (memory : caller'.memory = caller.memory) : StaysInBuffer host caller keyPtr keySize valuePtr valueMaxSize where
  inside mem caller'' _ performed := by cases failed.symm.trans performed
  refused _ _ _ := ⟨trap, caller', failed, memory⟩

theorem stays_of_fits (readKey : caller.argument keyPtr keySize = some key)
    (fits : (encodeVec (caller.valueVec host key)).length ≤ valueMaxSize.toNat)
    (inside : ∀ mem caller', caller.memory = some mem →
      (HostCall.get keyPtr keySize valuePtr valueMaxSize).perform host caller = .ok () caller' →
      ∃ mem', caller'.memory = some mem' ∧ mem.SameOutside valuePtr.toNat valueMaxSize.toNat mem') :
    StaysInBuffer host caller keyPtr keySize valuePtr valueMaxSize where
  inside := inside
  refused key' readable large := by
    cases readKey.symm.trans readable
    exact absurd fits (Nat.not_le_of_lt large)

theorem fits_of_stays (stays : StaysInBuffer host caller keyPtr keySize valuePtr valueMaxSize)
    (readKey : caller.argument keyPtr keySize = some key)
    (untrapped : ∀ trap caller',
      (HostCall.get keyPtr keySize valuePtr valueMaxSize).perform host caller ≠ .error (.trap trap) caller') :
    (encodeVec (caller.valueVec host key)).length ≤ valueMaxSize.toNat := by
  by_contra large
  obtain ⟨trap, caller', failed, -⟩ := stays.refused key readKey (Nat.lt_of_not_le large)
  exact untrapped trap caller' failed

theorem get_counted (valuePtr valueMaxSize : UInt32) (readKey : caller.argument keyPtr keySize = some key)
    {count : UInt32} (counted :
      updateWithCheck host.overflowChecks caller.data.currNRead caller.data.maxNRead false = .ok count) :
    (HostCall.get keyPtr keySize valuePtr valueMaxSize).perform host caller =
      writeVec (caller.valueVec host key) valuePtr valueMaxSize (caller.setData (caller.data.setReads count)) := by
  simp only [perform_get, readKey, counted, Caller.valueVec]

theorem get_uncounted (valuePtr valueMaxSize : UInt32) (readKey : caller.argument keyPtr keySize = some key)
    {why : Halt} (uncounted :
      updateWithCheck host.overflowChecks caller.data.currNRead caller.data.maxNRead false = .error why) :
    (HostCall.get keyPtr keySize valuePtr valueMaxSize).perform host caller = .error why caller := by
  simp only [perform_get, readKey, uncounted]

theorem written_stays_iff {mem : Memory} {caller' : Caller} (memory : caller.memory = some mem)
    (same : caller'.memory = some mem) (readKey : caller.argument keyPtr keySize = some key)
    (room : (caller.valueVec host key).length ≤ valueMaxSize.toNat)
    (performed : (HostCall.get keyPtr keySize valuePtr valueMaxSize).perform host caller =
      writeVec (caller.valueVec host key) valuePtr valueMaxSize caller') :
    StaysInBuffer host caller keyPtr keySize valuePtr valueMaxSize ↔
      (encodeVec (caller.valueVec host key)).length ≤ valueMaxSize.toNat := by
  rw [writeVec_room caller' _ valuePtr valueMaxSize mem same room] at performed
  constructor
  · intro stays
    refine fits_of_stays stays readKey fun trap caller'' failed => ?_
    rw [performed] at failed
    split at failed
    · split at failed <;> cases failed
    · cases failed
  · intro fits
    refine stays_of_fits readKey fits fun mem' caller'' present returned => ?_
    cases memory.symm.trans present
    rw [performed] at returned
    split at returned
    · split at returned
      · obtain ⟨-, rfl⟩ := EStateM.Result.ok.inj returned
        exact ⟨_, rfl, store_sameOutside mem _ _ fits⟩
      · cases returned
    · cases returned

theorem panicked_stays_iff {why : Panic} {caller' : Caller} (readKey : caller.argument keyPtr keySize = some key)
    (failed : (HostCall.get keyPtr keySize valuePtr valueMaxSize).perform host caller = .error (.panic why) caller') :
    StaysInBuffer host caller keyPtr keySize valuePtr valueMaxSize ↔
      (encodeVec (caller.valueVec host key)).length ≤ valueMaxSize.toNat := by
  constructor
  · intro stays
    refine fits_of_stays stays readKey fun trap caller'' trapped => ?_
    cases failed.symm.trans trapped
  · intro fits
    refine stays_of_fits readKey fits fun mem caller'' _ returned => ?_
    cases failed.symm.trans returned

/-- A `get` leaves its buffer exactly where the raw value fits the declared size and its encoding does not. -/
theorem get_stays_iff :
    StaysInBuffer host caller keyPtr keySize valuePtr valueMaxSize ↔
      BufferFits host caller keyPtr keySize valueMaxSize := by
  cases readKey : caller.argument keyPtr keySize with
  | none =>
    have failed : (HostCall.get keyPtr keySize valuePtr valueMaxSize).perform host caller =
        .error impossibleReading caller := by
      simp only [perform_get, readKey]
    refine iff_of_true (stays_of_refused failed rfl) fun key readable => ?_
    cases readKey.symm.trans readable
  | some key =>
    obtain ⟨mem, memory⟩ := argument_memory readKey
    have here : BufferFits host caller keyPtr keySize valueMaxSize ↔ _ :=
      ⟨fun fits => fits key readKey, fun fits key' readable => by cases readKey.symm.trans readable; exact fits⟩
    rw [here]
    cases counted : updateWithCheck host.overflowChecks caller.data.currNRead caller.data.maxNRead false with
    | ok count =>
      have performed := get_counted valuePtr valueMaxSize readKey counted
      have same : (caller.setData (caller.data.setReads count)).memory = some mem := memory
      by_cases room : (caller.valueVec host key).length ≤ valueMaxSize.toNat
      · rw [written_stays_iff memory same readKey room performed]
        exact (or_iff_left (Nat.not_lt_of_le room)).symm
      · have short := Nat.lt_of_not_le room
        rw [writeVec_short _ _ _ _ mem same short] at performed
        exact iff_of_true (stays_of_refused performed rfl) (.inr short)
    | error why =>
      have performed := get_uncounted valuePtr valueMaxSize readKey counted
      cases why with
      | trap trap => exact iff_of_true (stays_of_refused performed rfl) (.inr True.intro)
      | panic why => rw [panicked_stays_iff readKey performed, or_false]

end Gets

def onesCaller : Caller := ⟨freshStore 1 1 BTreeMap.empty, some ⟨65536, fun _ => 1⟩⟩

theorem empty_buffer_written : ¬ StaysInBuffer localNode.toHost onesCaller 0 0 0 0 := by
  intro stays
  obtain ⟨mem', written, -, outside⟩ := stays.inside _ _ rfl rfl
  cases written
  have changed := outside 0 (.inr (Nat.le_refl 0))
  revert changed
  decide

end KontractsProof.Executor
