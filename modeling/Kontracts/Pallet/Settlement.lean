import Kontracts.Executor.Passes
import Kontracts.Pallet.Sizes

namespace KontractsProof.Pallet

open Scale KontractsModel KontractsModel.Executor KontractsModel.Pallet

theorem toInt_size {n : ℕ} (small : n < 2 ^ 31) : (Int32.ofNat n).toInt = n :=
  Int32.toInt_ofNat_of_lt small

theorem subI32_sizes (overflowChecks : Bool) {a b : ℕ} (smallA : a < 2 ^ 31) (smallB : b < 2 ^ 31) :
    ∃ x, subI32 overflowChecks (Int32.ofNat a) (Int32.ofNat b) = .ok x ∧ x.toInt = a - b := by
  have inside : -2 ^ 31 ≤ (a : ℤ) - b ∧ (a : ℤ) - b < 2 ^ 31 := by omega
  refine ⟨Int32.ofNat a - Int32.ofNat b, ?_, ?_⟩
  · simp only [subI32, checkedI32, toInt_size smallA, toInt_size smallB, if_pos inside]
  · rw [Int32.toInt_sub, toInt_size smallA, toInt_size smallB]
    exact Int.bmod_eq_of_le (by omega) (by omega)

theorem toUInt32_of_nonneg {x : Int32} (nonneg : 0 ≤ x.toInt) : (x.toUInt32.toNat : ℤ) = x.toInt := by
  have signed : x.toInt = x.toBitVec.toInt := rfl
  have unsigned : x.toUInt32.toNat = x.toBitVec.toNat := rfl
  rw [unsigned, signed, BitVec.toInt_eq_toNat_cond]
  rw [signed, BitVec.toInt_eq_toNat_cond] at nonneg
  have bound := x.toBitVec.isLt
  split at nonneg
  · rename_i low
    rw [if_pos low]
  · omega

theorem mulI32_negated (overflowChecks : Bool) {x : Int32} (negative : x.toInt < 0) (above : -2 ^ 31 < x.toInt) :
    ∃ freed, mulI32 overflowChecks x (-1) = .ok freed ∧ (freed.toUInt32.toNat : ℤ) = -x.toInt := by
  have minusOne : (-1 : Int32).toInt = -1 := by decide
  have inside : -2 ^ 31 ≤ x.toInt * (-1) ∧ x.toInt * (-1) < 2 ^ 31 := by omega
  have exact : (x * -1).toInt = -x.toInt := by
    rw [Int32.toInt_mul, minusOne]
    exact (Int.bmod_eq_of_le (by omega) (by omega)).trans (by omega)
  refine ⟨x * -1, ?_, ?_⟩
  · simp only [mulI32, checkedI32, minusOne, if_pos inside]
  · rw [toUInt32_of_nonneg (by omega), exact]

theorem neg_iff {x : Int32} : x < 0 ↔ x.toInt < 0 := Int32.lt_iff_toInt_lt

theorem pos_iff {x : Int32} : 0 < x ↔ 0 < x.toInt := Int32.lt_iff_toInt_lt

theorem zero_iff {x : Int32} : x = 0 ↔ x.toInt = 0 := Int32.toInt_inj.symm

section Arms

variable {currency : Currency} {overflowChecks : Bool} {account account' : AccountData} {x expected : Int32}

/-- The arms of the match on the size difference, and what each makes of the account. -/
inductive Arm (currency : Currency) (overflowChecks : Bool) (account : AccountData) (x expected : Int32) :
    Settlement → Prop
  | unchanged (same : x = 0) : Arm currency overflowChecks account x expected (.proceed account)
  | freed {freed : Int32} (negative : x < 0) (declared : x ≤ expected)
      (negated : mulI32 overflowChecks x (-1) = .ok freed) :
      Arm currency overflowChecks account x expected (.proceed (currency.unreserve account freed.toUInt32.toNat))
  | grown {account' : AccountData} (positive : 0 < x) (declared : x ≤ expected)
      (reserved : currency.reserve account x.toUInt32.toNat = some account') :
      Arm currency overflowChecks account x expected (.proceed account')
  | exceeded (moved : x ≠ 0) (beyond : ¬ x ≤ expected) :
      Arm currency overflowChecks account x expected (.exceeded (currency.slash account x.toUInt32.toNat))

theorem settle_iff {settlement : Settlement} :
    settle currency overflowChecks account x expected = .ok settlement ↔
      Arm currency overflowChecks account x expected settlement := by
  constructor
  · intro settled
    unfold settle at settled
    split at settled
    · rename_i same
      cases settled
      exact .unchanged same
    · rename_i moved
      split at settled
      · rename_i freed
        obtain ⟨amount, negated, rest⟩ := bind_ok settled
        cases rest
        exact .freed freed.2 freed.1 negated
      · rename_i notFreed
        split at settled
        · rename_i declared
          have nonneg : 0 ≤ x := Int32.not_lt.mp fun negative => notFreed ⟨declared, negative⟩
          have positive : 0 < x := Int32.lt_of_le_of_ne nonneg (Ne.symm moved)
          split at settled
          · rename_i reserved
            cases settled
            exact .grown positive declared reserved
          · cases settled
        · rename_i beyond
          cases settled
          exact .exceeded moved beyond
  · intro arm
    unfold settle
    cases arm with
    | unchanged same => rw [if_pos same]
    | freed negative declared negated =>
      rw [if_neg (Int32.ne_of_lt negative), if_pos ⟨declared, negative⟩, negated]
      rfl
    | grown positive declared reserved =>
      have notFreed : ¬ x < 0 := Int32.lt_asymm positive
      rw [if_neg (Int32.ne_of_lt positive).symm, if_neg fun both => notFreed both.2, if_pos declared, reserved]
    | exceeded moved beyond => rw [if_neg moved, if_neg fun both => beyond both.1, if_neg beyond]

inductive Settled (currency : Currency) (account : AccountData) (before after : ℕ) : AccountData → Prop
  | equal (same : after = before) : Settled currency account before after account
  | freed (less : after < before) :
      Settled currency account before after (currency.unreserve account (before - after))
  | grown {account' : AccountData} (more : before < after)
      (reserved : currency.reserve account (after - before) = some account') :
      Settled currency account before after account'

theorem settle_proceed {before after : ℕ} (smallBefore : before < 2 ^ 31) (exact : x.toInt = after - before)
    (settled : settle currency overflowChecks account x expected = .ok (.proceed account')) :
    Settled currency account before after account' := by
  cases settle_iff.mp settled with
  | unchanged same =>
    rw [zero_iff] at same
    exact .equal (by omega)
  | freed negative declared negated =>
    rw [neg_iff] at negative
    obtain ⟨amount, product, value⟩ := mulI32_negated overflowChecks negative (by omega)
    obtain rfl := Except.ok.inj (product.symm.trans negated)
    have asked : amount.toUInt32.toNat = before - after := by omega
    rw [asked]
    exact .freed (by omega)
  | grown positive declared reserved =>
    rw [pos_iff] at positive
    have value := toUInt32_of_nonneg (x := x) (by omega)
    have asked : x.toUInt32.toNat = after - before := by omega
    rw [asked] at reserved
    exact .grown (by omega) reserved

theorem settle_exceeded (settled : settle currency overflowChecks account x expected = .ok (.exceeded account')) :
    ∃ amount, account' = currency.slash account amount := by
  cases settle_iff.mp settled with
  | exceeded moved beyond => exact ⟨_, rfl⟩

end Arms

section Execution

variable {Id : Type} {node : Node} {cfg : Config Id} {code : Option (Code cfg.limits)}
  {storage storage' : KontractStorage cfg.limits} {account account' : AccountData}
  {expectedModifiedStorage : Int32} {fuel expectedRead expectedWrite : UInt32}

theorem execution_ok {verdict : Verdict cfg.limits}
    (executed : execution node cfg code storage account expectedModifiedStorage fuel expectedRead expectedWrite =
      .ok verdict) :
    ∃ binary newStorageRaw newStorageSize x settlement,
      code = some binary ∧
      Executor.executeCode node binary.1 (encodeStorage storage) fuel expectedRead expectedWrite =
        .ok newStorageRaw ∧
      getStorageSize newStorageRaw = .ok newStorageSize ∧
      subI32 cfg.overflowChecks newStorageSize (Int32.ofNat (byteSize storage)) = .ok x ∧
      settle cfg.currency cfg.overflowChecks account x expectedModifiedStorage = .ok settlement ∧
      match settlement with
      | .exceeded account' => verdict = .exceeded account'
      | .proceed account' =>
        ∃ decoded, decodeStorage cfg.limits newStorageRaw = some decoded ∧ verdict = .committed decoded account' := by
  unfold execution at executed
  cases code with
  | none => cases executed
  | some binary =>
    simp only [getStorageSize_storage] at executed
    obtain ⟨oldStorageSize, measured, executed⟩ := bind_ok executed
    cases measured
    obtain ⟨newStorageRaw, ran, executed⟩ := bind_ok executed
    obtain ⟨newStorageSize, sized, executed⟩ := bind_ok executed
    obtain ⟨x, difference, executed⟩ := bind_ok executed
    obtain ⟨settlement, settled, executed⟩ := bind_ok executed
    refine ⟨binary, newStorageRaw, newStorageSize, x, settlement, rfl, mapError_ok ran, sized, difference,
      settled, ?_⟩
    cases settlement with
    | exceeded account' => exact (Except.ok.inj executed).symm
    | proceed account' =>
      cases accepted : decodeStorage cfg.limits newStorageRaw with
      | none => simp only [accepted] at executed; cases executed
      | some decoded =>
        simp only [accepted] at executed
        exact ⟨decoded, rfl, (Except.ok.inj executed).symm⟩

theorem execution_stored
    (executed : execution node cfg code storage account expectedModifiedStorage fuel expectedRead expectedWrite =
      .ok (.committed storage' account')) :
    ∃ binary newStorageRaw x, code = some binary ∧
      Executor.executeCode node binary.1 (encodeStorage storage) fuel expectedRead expectedWrite =
        .ok newStorageRaw ∧
      Reads decodeKontractStorage newStorageRaw storage'.raw ∧
      subI32 cfg.overflowChecks (Int32.ofNat (byteSize storage')) (Int32.ofNat (byteSize storage)) = .ok x ∧
      settle cfg.currency cfg.overflowChecks account x expectedModifiedStorage = .ok (.proceed account') := by
  obtain ⟨binary, newStorageRaw, newStorageSize, x, settlement, present, ran, sized, difference, settled,
    ending⟩ := execution_ok executed
  cases settlement with
  | exceeded left => cases ending
  | proceed left =>
    obtain ⟨decoded, accepted, same⟩ := ending
    cases same
    obtain ⟨final, encoded⟩ := Executor.executeCode_encoded ran
    obtain ⟨rfl, count, reads⟩ := encodeKontractStorage_ok encoded
    obtain rfl := decodeStorage_raw reads accepted
    rw [getStorageSize_encoded _ count] at sized
    cases sized
    exact ⟨binary, _, x, present, ran, reads, difference, settled⟩

/-- A committed execution is settled for exactly the difference of the sizes. -/
theorem execution_settled (fits : SizesFit cfg.limits)
    (executed : execution node cfg code storage account expectedModifiedStorage fuel expectedRead expectedWrite =
      .ok (.committed storage' account')) :
    Settled cfg.currency account (byteSize storage) (byteSize storage') account' := by
  obtain ⟨_, _, x, _, _, _, difference, settled⟩ := execution_stored executed
  obtain ⟨x', subtracted, exact⟩ := subI32_sizes cfg.overflowChecks (byteSize_lt fits storage')
    (byteSize_lt fits storage)
  obtain rfl : x' = x := Except.ok.inj (subtracted.symm.trans difference)
  exact settle_proceed (byteSize_lt fits storage) exact settled

theorem execution_exceeded
    (executed : execution node cfg code storage account expectedModifiedStorage fuel expectedRead expectedWrite =
      .ok (.exceeded account')) : ∃ amount, account' = cfg.currency.slash account amount := by
  obtain ⟨_, _, _, x, settlement, _, _, _, _, settled, ending⟩ := execution_ok executed
  cases settlement with
  | exceeded left =>
    cases ending
    exact settle_exceeded settled
  | proceed left =>
    obtain ⟨_, _, different⟩ := ending
    cases different

end Execution

end KontractsProof.Pallet
