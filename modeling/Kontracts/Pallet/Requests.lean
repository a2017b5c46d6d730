import Kontracts.Pallet.Steps

namespace KontractsModel.Pallet

open Scale KontractsModel.Executor

/-- What the `match` on the size difference asks of the signer's currency. -/
inductive Request
  | nothing
  | unreserve (amount : ℕ)
  | reserve (amount : ℕ)
  | slash (amount : ℕ)
deriving DecidableEq

def request (overflowChecks : Bool) (x expectedModifiedStorage : Int32) : Except Abort Request :=
  if x = 0 then .ok .nothing
  else if x ≤ expectedModifiedStorage ∧ x < 0 then do
    let freed ← mulI32 overflowChecks x (-1)
    return .unreserve freed.toUInt32.toNat
  else if x ≤ expectedModifiedStorage then .ok (.reserve x.toUInt32.toNat)
  else .ok (.slash x.toUInt32.toNat)

def Request.apply (currency : Currency) (account : AccountData) : Request → Except Abort Settlement
  | .nothing => .ok (.proceed account)
  | .unreserve amount => .ok (.proceed (currency.unreserve account amount))
  | .reserve amount =>
    match currency.reserve account amount with
    | some account => .ok (.proceed account)
    | none => .error (.dispatch (.module .depositError))
  | .slash amount => .ok (.exceeded (currency.slash account amount))

section Executions

variable {Id Account : Type} (node : Node) (cfg : Config Id)

def sizeChange (code : Option (Code cfg.limits)) (storage : KontractStorage cfg.limits)
    (fuel expectedRead expectedWrite : UInt32) : Except Abort (RawKontractStorage × Int32) := do
  let some code := code | throw (.dispatch (.module .invalidCodeId))
  let oldStorageRaw := encodeStorage storage
  let oldStorageSize ← getStorageSize oldStorageRaw
  let newStorageRaw ←
    (Executor.executeCode node code.1 oldStorageRaw fuel expectedRead expectedWrite).mapError Abort.ofExit
  let newStorageSize ← getStorageSize newStorageRaw
  let x ← subI32 cfg.overflowChecks newStorageSize oldStorageSize
  return (newStorageRaw, x)

def conclude (newStorageRaw : RawKontractStorage) : Settlement → Except Abort (Verdict cfg.limits)
  | .exceeded account => .ok (.exceeded account)
  | .proceed account =>
    match decodeStorage cfg.limits newStorageRaw with
    | some storage => .ok (.committed storage account)
    | none => .error (.dispatch (.module (.executionCode .unexpectedBehavoiur)))

/-- The guest run of an execution ends well and leaves this map on the host. -/
def Leaves (code : Option (Code cfg.limits)) (storage : KontractStorage cfg.limits)
    (fuel expectedRead expectedWrite : UInt32) (final : Executor.KontractStorage) : Prop :=
  ∃ binary newStorageRaw, code = some binary ∧
    Executor.executeCode node binary.1 (encodeStorage storage) fuel expectedRead expectedWrite =
      .ok newStorageRaw ∧
    encodeKontractStorage final = .ok newStorageRaw

def executes (block : ℕ) (who : Account) (codeId : Id) (fuel expectedRead expectedWrite : UInt32)
    (expectedModifiedStorage : Int32) : Extrinsic cfg.limits Id Account :=
  ⟨block, .signed who, .executeCode codeId expectedModifiedStorage fuel expectedRead expectedWrite⟩

def asked (s : State cfg.limits Id Account) (x : Extrinsic cfg.limits Id Account) : Option Request :=
  match x.origin, x.call with
  | .signed _, .executeCode codeId expectedModifiedStorage fuel expectedRead expectedWrite =>
    match sizeChange node cfg (s.codes codeId) (s.storages codeId) fuel expectedRead expectedWrite with
    | .ok (_, x) => (request cfg.overflowChecks x expectedModifiedStorage).toOption
    | .error _ => none
  | _, _ => none

end Executions

end KontractsModel.Pallet

namespace KontractsProof.Pallet

open Scale KontractsModel KontractsModel.Executor KontractsModel.Pallet

theorem settle_request (currency : Currency) (overflowChecks : Bool) (account : AccountData)
    (x expected : Int32) :
    settle currency overflowChecks account x expected =
      request overflowChecks x expected >>= Request.apply currency account := by
  unfold settle request
  split
  · rfl
  · split
    · cases mulI32 overflowChecks x (-1) <;> rfl
    · split <;> rfl

section Amounts

theorem toUInt32_of_neg {x : Int32} (negative : x.toInt < 0) : (x.toUInt32.toNat : ℤ) = x.toInt + 2 ^ 32 := by
  have signed : x.toInt = x.toBitVec.toInt := rfl
  have unsigned : x.toUInt32.toNat = x.toBitVec.toNat := rfl
  rw [unsigned, signed, BitVec.toInt_eq_toNat_cond]
  rw [signed, BitVec.toInt_eq_toNat_cond] at negative
  split at negative
  · omega
  · rename_i high
    rw [if_neg high]
    omega

inductive Asks (before after : ℕ) (declared : ℤ) : Request → Prop
  | nothing (same : after = before) : Asks before after declared .nothing
  | unreserve (less : after < before) (within : (after : ℤ) - before ≤ declared) :
      Asks before after declared (.unreserve (before - after))
  | reserve (more : before < after) (within : (after : ℤ) - before ≤ declared) :
      Asks before after declared (.reserve (after - before))
  | slashGrown (more : before < after) (beyond : declared < (after : ℤ) - before) :
      Asks before after declared (.slash (after - before))
  | slashFreed (less : after < before) (beyond : declared < (after : ℤ) - before) :
      Asks before after declared (.slash (2 ^ 32 - (before - after)))

theorem request_asks (overflowChecks : Bool) {x : Int32} (expected : Int32) {before after : ℕ}
    (smallBefore : before < 2 ^ 31) (exact : x.toInt = after - before) :
    ∃ wanted, request overflowChecks x expected = .ok wanted ∧ Asks before after expected.toInt wanted := by
  unfold request
  by_cases same : x = 0
  · rw [zero_iff] at same
    exact ⟨.nothing, if_pos (zero_iff.mpr same), .nothing (by omega)⟩
  rw [if_neg same]
  rw [zero_iff] at same
  simp only [Int32.le_iff_toInt_le, neg_iff]
  by_cases within : x.toInt ≤ expected.toInt
  · by_cases negative : x.toInt < 0
    · obtain ⟨freed, product, value⟩ := mulI32_negated overflowChecks negative (by omega)
      have amount : freed.toUInt32.toNat = before - after := by omega
      rw [if_pos ⟨within, negative⟩, product]
      exact ⟨_, rfl, amount ▸ .unreserve (by omega) (by omega)⟩
    · have value := toUInt32_of_nonneg (x := x) (by omega)
      have amount : x.toUInt32.toNat = after - before := by omega
      rw [if_neg (fun both => negative both.2), if_pos within]
      exact ⟨_, rfl, amount ▸ .reserve (by omega) (by omega)⟩
  · rw [if_neg (fun both => within both.1), if_neg within]
    by_cases negative : x.toInt < 0
    · have value := toUInt32_of_neg negative
      have amount : x.toUInt32.toNat = 2 ^ 32 - (before - after) := by omega
      exact ⟨_, rfl, amount ▸ .slashFreed (by omega) (by omega)⟩
    · have value := toUInt32_of_nonneg (x := x) (by omega)
      have amount : x.toUInt32.toNat = after - before := by omega
      exact ⟨_, rfl, amount ▸ .slashGrown (by omega) (by omega)⟩

theorem Asks.slash_iff {before after amount : ℕ} {declared : ℤ} (asks : Asks before after declared (.slash amount))
    (smallBefore : before < 2 ^ 31) :
    amount = ((after : ℤ) - before).natAbs ↔ before < after := by
  cases asks with
  | slashGrown more beyond => omega
  | slashFreed less beyond => omega

end Amounts

section Executions

variable {Id : Type} {node : Node} {cfg : Config Id} {code : Option (Code cfg.limits)}
  {storage : KontractStorage cfg.limits} {account : AccountData} {fuel reads writes : UInt32}

theorem execution_eq (account : AccountData) (expected : Int32) :
    execution node cfg code storage account expected fuel reads writes =
      (do
        let (newStorageRaw, x) ← sizeChange node cfg code storage fuel reads writes
        let wanted ← request cfg.overflowChecks x expected
        let settlement ← wanted.apply cfg.currency account
        conclude cfg newStorageRaw settlement) := by
  unfold execution sizeChange
  cases code with
  | none => rfl
  | some code =>
    simp only [settle_request, bind_assoc, pure_bind]
    refine bind_congr fun _ => bind_congr fun raw => bind_congr fun _ => bind_congr fun _ => bind_congr fun _ =>
      bind_congr fun settlement => ?_
    cases settlement with
    | exceeded account => rfl
    | proceed account =>
      unfold conclude
      cases decodeStorage cfg.limits raw <;> rfl

theorem granted_exceeded {newStorageRaw : RawKontractStorage} {wanted : Request} {account' : AccountData} :
    (wanted.apply cfg.currency account >>= conclude cfg newStorageRaw) = .ok (.exceeded account') ↔
      ∃ amount, wanted = .slash amount ∧ account' = cfg.currency.slash account amount := by
  have proceeding : ∀ left, conclude cfg newStorageRaw (.proceed left) ≠ .ok (.exceeded account') := by
    intro left exceeds
    unfold conclude at exceeds
    cases decoded : decodeStorage cfg.limits newStorageRaw <;> simp [decoded] at exceeds
  constructor
  · intro ended
    cases wanted with
    | nothing => exact absurd ended (proceeding _)
    | unreserve amount => exact absurd ended (proceeding _)
    | reserve amount =>
      obtain ⟨settlement, granted, ended⟩ := bind_ok ended
      simp only [Request.apply] at granted
      split at granted
      · cases granted
        exact absurd ended (proceeding _)
      · cases granted
    | slash amount => exact ⟨amount, rfl, (Verdict.exceeded.inj (Except.ok.inj ended)).symm⟩
  · rintro ⟨amount, rfl, rfl⟩
    rfl

theorem granted_committed {newStorageRaw : RawKontractStorage} {wanted : Request} {account' : AccountData}
    {storage' : KontractStorage cfg.limits}
    (ended : (wanted.apply cfg.currency account >>= conclude cfg newStorageRaw) = .ok (.committed storage' account')) :
    wanted.apply cfg.currency account = .ok (.proceed account') ∧
      decodeStorage cfg.limits newStorageRaw = some storage' := by
  obtain ⟨settlement, granted, ended⟩ := bind_ok ended
  cases settlement with
  | exceeded left => cases ended
  | proceed left =>
    unfold conclude at ended
    cases decoded : decodeStorage cfg.limits newStorageRaw with
    | none => simp [decoded] at ended
    | some stored =>
      simp only [decoded, Except.ok.injEq, Verdict.committed.injEq] at ended
      obtain ⟨rfl, rfl⟩ := ended
      exact ⟨granted, rfl⟩

theorem execution_committed {expected : Int32} {account' : AccountData} {storage' : KontractStorage cfg.limits}
    (ended : execution node cfg code storage account expected fuel reads writes =
      .ok (.committed storage' account')) :
    ∃ newStorageRaw x wanted, sizeChange node cfg code storage fuel reads writes = .ok (newStorageRaw, x) ∧
      request cfg.overflowChecks x expected = .ok wanted ∧
      wanted.apply cfg.currency account = .ok (.proceed account') ∧
      decodeStorage cfg.limits newStorageRaw = some storage' := by
  rw [execution_eq] at ended
  obtain ⟨⟨newStorageRaw, x⟩, changed, ended⟩ := bind_ok ended
  obtain ⟨wanted, requested, ended⟩ := bind_ok ended
  obtain ⟨granted, decoded⟩ := granted_committed ended
  exact ⟨newStorageRaw, x, wanted, changed, requested, granted, decoded⟩

theorem leaves_size_le {binary : Code cfg.limits} {newStorageRaw : RawKontractStorage}
    {final : Executor.KontractStorage} (leaves : Leaves node cfg (some binary) storage fuel reads writes final)
    (ran : Executor.executeCode node binary.1 (encodeStorage storage) fuel reads writes = .ok newStorageRaw) :
    mapSize final ≤ newStorageRaw.length := by
  obtain ⟨_, raw, same, ran', encoded⟩ := leaves
  cases same
  obtain rfl := Except.ok.inj (ran'.symm.trans ran)
  obtain ⟨rfl, -, -⟩ := encodeKontractStorage_ok encoded
  rw [encodeMap, List.length_append]
  exact Nat.le_add_left _ _

theorem sizeChange_leaves {final : Executor.KontractStorage}
    (leaves : Leaves node cfg code storage fuel reads writes final) (smallBefore : byteSize storage < 2 ^ 31)
    (smallAfter : mapSize final < 2 ^ 31) :
    ∃ newStorageRaw x, encodeKontractStorage final = .ok newStorageRaw ∧
      sizeChange node cfg code storage fuel reads writes = .ok (newStorageRaw, x) ∧
      x.toInt = mapSize final - byteSize storage := by
  obtain ⟨binary, newStorageRaw, rfl, ran, encoded⟩ := leaves
  obtain ⟨rfl, count, -⟩ := encodeKontractStorage_ok encoded
  obtain ⟨x, subtracted, exact⟩ := subI32_sizes cfg.overflowChecks smallAfter smallBefore
  refine ⟨_, x, encoded, ?_, exact⟩
  have sized : getStorageSize (encodeMap encodeVec encodeVec final) = .ok (Int32.ofNat (mapSize final)) :=
    getStorageSize_encoded final count
  simp only [sizeChange, getStorageSize_storage, ran, Except.mapError, Bind.bind, Except.bind, sized, subtracted]
  rfl

theorem asked_eq {Account : Type} {s : State cfg.limits Id Account} {block : ℕ} {who : Account} {codeId : Id}
    {newStorageRaw : RawKontractStorage} {x expected : Int32} {wanted : Request}
    (changed : sizeChange node cfg (s.codes codeId) (s.storages codeId) fuel reads writes = .ok (newStorageRaw, x))
    (requested : request cfg.overflowChecks x expected = .ok wanted) :
    asked node cfg s (executes cfg block who codeId fuel reads writes expected) = some wanted := by
  simp only [asked, executes, changed, requested]
  rfl

/-- With sizes that fit, an execution asks for its exact size difference and ends in what it is granted. -/
theorem execution_leaves {final : Executor.KontractStorage}
    (leaves : Leaves node cfg code storage fuel reads writes final) (smallBefore : byteSize storage < 2 ^ 31)
    (smallAfter : mapSize final < 2 ^ 31) (account : AccountData) (expected : Int32) :
    ∃ newStorageRaw x wanted, encodeKontractStorage final = .ok newStorageRaw ∧
      sizeChange node cfg code storage fuel reads writes = .ok (newStorageRaw, x) ∧
      x.toInt = mapSize final - byteSize storage ∧
      request cfg.overflowChecks x expected = .ok wanted ∧
      Asks (byteSize storage) (mapSize final) expected.toInt wanted ∧
      execution node cfg code storage account expected fuel reads writes =
        (wanted.apply cfg.currency account >>= conclude cfg newStorageRaw) := by
  obtain ⟨newStorageRaw, x, encoded, changed, exact⟩ := sizeChange_leaves leaves smallBefore smallAfter
  obtain ⟨wanted, requested, asks⟩ := request_asks cfg.overflowChecks expected smallBefore exact
  refine ⟨newStorageRaw, x, wanted, encoded, changed, exact, requested, asks, ?_⟩
  rw [execution_eq, changed, ok_bind]
  simp only [requested, ok_bind]

end Executions

end KontractsProof.Pallet
