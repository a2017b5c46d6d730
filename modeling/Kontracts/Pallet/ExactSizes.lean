import Kontracts.Pallet.Declared

namespace KontractsModel.Pallet

open Scale KontractsModel.Executor

def entriesSize (storage : Executor.KontractStorage) : ℕ :=
  (storage.entries.map fun entry => (encodeVec entry.1).length + (encodeVec entry.2).length).sum

def Measures (raw : RawKontractStorage) (storage : Executor.KontractStorage) (size : Int32) : Prop :=
  getStorageSize raw = .ok size ∧ size.toInt = entriesSize storage

def exactRequest (difference : ℤ) : Request :=
  if difference = 0 then .nothing
  else if difference < 0 then .unreserve difference.natAbs
  else .reserve difference.natAbs

end KontractsModel.Pallet

namespace KontractsProof.Pallet

open Scale KontractsModel KontractsModel.Executor KontractsModel.Pallet

theorem mapSize_eq (storage : Executor.KontractStorage) : mapSize storage = entriesSize storage := by
  simp only [mapSize, entriesSize, encodeEntries, List.length_flatMap, List.length_append]

theorem byteSize_eq {limits : Limits} (storage : KontractStorage limits) :
    byteSize storage = entriesSize storage.raw :=
  mapSize_eq storage.raw

theorem measures {storage : Executor.KontractStorage} {raw : RawKontractStorage}
    (encoded : encodeKontractStorage storage = .ok raw) (small : mapSize storage < 2 ^ 31) :
    Measures raw storage (Int32.ofNat (mapSize storage)) := by
  obtain ⟨rfl, count, -⟩ := encodeKontractStorage_ok encoded
  refine ⟨getStorageSize_encoded storage count, ?_⟩
  rw [toInt_size small, mapSize_eq]

theorem Asks.exact {before after : ℕ} {declared : ℤ} {wanted : Request} (asks : Asks before after declared wanted)
    (mild : ∀ amount, wanted ≠ .slash amount) : wanted = exactRequest (after - before) := by
  unfold exactRequest
  cases asks with
  | nothing same => rw [if_pos (by omega)]
  | unreserve less =>
    rw [if_neg (by omega), if_pos (by omega)]
    congr 1
    omega
  | reserve more =>
    rw [if_neg (by omega), if_neg (by omega)]
    congr 1
    omega
  | slashGrown | slashFreed => exact absurd rfl (mild _)

theorem leaves_stored {Id : Type} {node : Node} {cfg : Config Id} {code : Option (Code cfg.limits)}
    {storage storage' : KontractStorage cfg.limits} {account account' : AccountData} {expected : Int32}
    {fuel reads writes : UInt32} {final : Executor.KontractStorage}
    (executed : execution node cfg code storage account expected fuel reads writes =
      .ok (.committed storage' account'))
    (leaves : Leaves node cfg code storage fuel reads writes final) : storage'.raw = final := by
  obtain ⟨binary, raw, rfl, ran, encoded⟩ := leaves
  obtain ⟨_, _, _, same, ran', read, -, -⟩ := execution_stored executed
  cases same
  obtain rfl := Except.ok.inj (ran.symm.trans ran')
  obtain ⟨-, -, reads⟩ := encodeKontractStorage_ok encoded
  exact congrArg Prod.fst (Option.some.inj (read.whole.symm.trans reads.whole))

section Executions

variable {Id Account : Type} [DecidableEq Id] [DecidableEq Account] {node : Node} {cfg : Config Id}
  {s : State cfg.limits Id Account} {block : ℕ} {who : Account} {codeId : Id} {fuel reads writes : UInt32}
  {expected : Int32}

theorem executed_leaves (fits : SizesFit cfg.limits)
    (executed : (dispatch node cfg s (executes cfg block who codeId fuel reads writes expected)).1 =
      .ok (.codeExecuted codeId who)) :
    (∃ final, Leaves node cfg (s.codes codeId) (s.storages codeId) fuel reads writes final) ∧
      ∀ final, Leaves node cfg (s.codes codeId) (s.storages codeId) fuel reads writes final →
        mapSize final < 2 ^ 31 := by
  have effect := executes_effect node s block who codeId fuel reads writes expected
  obtain ⟨storage, account, ended⟩ := effect.executed_iff.mp executed
  refine ⟨?_, fun final leaves => ?_⟩
  · obtain ⟨code, raw, _, present, ran, -⟩ := execution_stored ended
    obtain ⟨final, encoded⟩ := Executor.executeCode_encoded ran
    exact ⟨final, code, raw, present, ran, encoded⟩
  · rw [← leaves_stored ended leaves]
    exact byteSize_lt fits storage

theorem executed_exact {final : Executor.KontractStorage}
    (leaves : Leaves node cfg (s.codes codeId) (s.storages codeId) fuel reads writes final)
    (smallBefore : byteSize (s.storages codeId) < 2 ^ 31) (smallAfter : mapSize final < 2 ^ 31)
    (executed : (dispatch node cfg s (executes cfg block who codeId fuel reads writes expected)).1 =
      .ok (.codeExecuted codeId who)) :
    ∃ difference : Int32, difference.toInt = mapSize final - byteSize (s.storages codeId) ∧
      asked node cfg s (executes cfg block who codeId fuel reads writes expected) =
        some (exactRequest difference.toInt) ∧
      (exactRequest difference.toInt).apply cfg.currency (s.accounts who) =
        .ok (.proceed ((step node cfg s (executes cfg block who codeId fuel reads writes expected)).accounts who)) := by
  obtain ⟨raw, difference, wanted, changed, requested, asks, granted⟩ := executed_asks executed
  obtain ⟨_, _, _, -, changed', exact, requested', exactly, -⟩ :=
    execution_leaves leaves smallBefore smallAfter (s.accounts who) expected
  cases changed.symm.trans changed'
  cases requested.symm.trans requested'
  have mild : ∀ amount, wanted ≠ .slash amount := by
    rintro amount rfl
    cases granted
  have wanted_eq := exactly.exact mild
  rw [← exact] at wanted_eq
  subst wanted_eq
  exact ⟨difference, exact, asks, granted⟩

/-- Under the runtime's limits a committed execution is settled for the exact difference of exact sizes. -/
theorem committed_sizes_exact (runtime : cfg.limits = runtimeLimits) :
    let x := executes cfg block who codeId fuel reads writes expected
    ((dispatch node cfg s x).1 = .ok (.codeExecuted codeId who) →
      ∃ code newStorageRaw final oldStorageSize newStorageSize difference,
        s.codes codeId = some code ∧
        Executor.executeCode node code.1 (encodeStorage (s.storages codeId)) fuel reads writes = .ok newStorageRaw ∧
        encodeKontractStorage final = .ok newStorageRaw ∧
        Measures (encodeStorage (s.storages codeId)) (s.storages codeId).raw oldStorageSize ∧
        Measures newStorageRaw final newStorageSize ∧
        (∀ overflowChecks, subI32 overflowChecks newStorageSize oldStorageSize = .ok difference) ∧
        difference.toInt = newStorageSize.toInt - oldStorageSize.toInt ∧
        (difference < 0 → ∀ overflowChecks, ∃ freed, mulI32 overflowChecks difference (-1) = .ok freed ∧
          (freed.toUInt32.toNat : ℤ) = -difference.toInt) ∧
        asked node cfg s x = some (exactRequest difference.toInt) ∧
        (exactRequest difference.toInt).apply cfg.currency (s.accounts who) =
          .ok (.proceed ((step node cfg s x).accounts who))) ∧
      (∀ final, Leaves node cfg (s.codes codeId) (s.storages codeId) fuel reads writes final →
        2 ^ 31 ≤ entriesSize final → (dispatch node cfg s x).1 ≠ .ok (.codeExecuted codeId who)) ∧
      ∀ final : Executor.KontractStorage, final.len < 2 ^ 32 →
        ∃ size, getStorageSize (encodeMap encodeVec encodeVec final) = .ok size := by
  intro x
  have fits : SizesFit cfg.limits := runtime ▸ runtimeLimits_fit
  have smallBefore := byteSize_lt fits (s.storages codeId)
  refine ⟨fun executed => ?_, fun final leaves large executed => ?_, fun final count => ?_⟩
  · obtain ⟨⟨final, leaves⟩, small⟩ := executed_leaves fits executed
    have smallAfter := small final leaves
    obtain ⟨difference, exact, asks, granted⟩ := executed_exact leaves smallBefore smallAfter executed
    obtain ⟨code, raw, present, ran, encoded⟩ := leaves
    refine ⟨code, raw, final, Int32.ofNat (byteSize (s.storages codeId)), Int32.ofNat (mapSize final), difference,
      present, ran, encoded, ?_, measures encoded smallAfter, fun overflowChecks => ?_, ?_,
      fun freeing overflowChecks => ?_, asks, granted⟩
    · exact ⟨getStorageSize_storage _, by rw [toInt_size smallBefore, byteSize_eq]⟩
    · obtain ⟨other, subtracted, same⟩ := subI32_sizes overflowChecks smallAfter smallBefore
      rw [subtracted, Int32.toInt_inj.mp (same.trans exact.symm)]
    · rw [toInt_size smallBefore, toInt_size smallAfter]
      exact exact
    · exact mulI32_negated overflowChecks (neg_iff.mp freeing) (by omega)
  · have small := (executed_leaves fits executed).2 final leaves
    rw [mapSize_eq] at small
    omega
  · exact ⟨_, getStorageSize_encoded final count⟩

theorem toggling_sizes_exact :
    ∃ difference : Int32, asked localNode localConfig togglingState
        (executes localConfig 1 .alice togglingCode 10 10 10 35) = some (exactRequest difference.toInt) ∧
      (exactRequest difference.toInt).apply balances (togglingState.accounts .alice) =
        .ok (.proceed (toggledState.accounts .alice)) := by
  have executed : (dispatch localNode localConfig togglingState
      (executes localConfig 1 .alice togglingCode 10 10 10 35)).1 = .ok (.codeExecuted togglingCode .alice) := by
    decide
  obtain ⟨_, _, _, _, _, difference, -, -, -, -, -, -, -, -, settled, paid⟩ := (committed_sizes_exact rfl).1 executed
  exact ⟨difference, settled, paid⟩

end Executions

end KontractsProof.Pallet
