import Kontracts.Pallet.Penalty

namespace KontractsProof.Pallet

open Scale KontractsModel KontractsModel.Executor KontractsModel.Pallet

section Requests

theorem Asks.within {before after : ℕ} {declared : ℤ} {wanted : Request} (asks : Asks before after declared wanted)
    (mild : ∀ amount, wanted ≠ .slash amount) :
    (after : ℤ) - before ≤ declared ∨ (after : ℤ) - before = 0 := by
  cases asks with
  | nothing same => right; omega
  | unreserve less within | reserve more within => left; exact within
  | slashGrown | slashFreed => exact absurd rfl (mild _)

theorem Asks.slash {before after : ℕ} {declared : ℤ} {wanted : Request} (asks : Asks before after declared wanted)
    (beyond : declared < (after : ℤ) - before) (moved : (after : ℤ) - before ≠ 0) :
    ∃ amount, wanted = .slash amount := by
  cases asks with
  | nothing same => omega
  | unreserve less within | reserve more within => omega
  | slashGrown | slashFreed => exact ⟨_, rfl⟩

theorem Asks.reserve_eq {before after amount : ℕ} {declared : ℤ}
    (asks : Asks before after declared (.reserve amount)) : (amount : ℤ) = after - before := by
  cases asks with
  | reserve more within => omega

theorem request_mono (overflowChecks : Bool) (x : Int32) {declared larger : Int32} (ordered : declared ≤ larger) :
    request overflowChecks x larger = request overflowChecks x declared ∨
      (∃ amount, request overflowChecks x declared = .ok (.slash amount)) ∧
        ∀ amount, request overflowChecks x larger ≠ .ok (.slash amount) := by
  unfold request
  by_cases same : x = 0
  · left
    rw [if_pos same, if_pos same]
  simp only [if_neg same]
  by_cases within : x ≤ declared
  · left
    simp only [within, Int32.le_trans within ordered]
  by_cases inside : x ≤ larger
  · right
    simp only [within, inside, false_and, true_and, if_false, if_true]
    refine ⟨⟨_, rfl⟩, fun amount => ?_⟩
    split
    · cases mulI32 overflowChecks x (-1) <;> simp [Bind.bind, Except.bind, pure, Except.pure]
    · simp
  · left
    simp only [within, inside]

theorem request_reserve {overflowChecks : Bool} {x declared : Int32} {amount : ℕ}
    (requested : request overflowChecks x declared = .ok (.reserve amount)) :
    (amount : ℤ) ≤ max 0 declared.toInt := by
  unfold request at requested
  split at requested
  · cases requested
  · split at requested
    · obtain ⟨freed, -, rest⟩ := bind_ok requested
      cases rest
    · rename_i notFreed
      split at requested
      · rename_i within
        cases requested
        have nonneg : 0 ≤ x := Int32.not_lt.mp fun negative => notFreed ⟨within, negative⟩
        rw [toUInt32_of_nonneg (Int32.le_iff_toInt_le.mp nonneg)]
        exact (Int32.le_iff_toInt_le.mp within).trans (le_max_right 0 _)
      · cases requested

theorem execution_mono {Id : Type} {node : Node} {cfg : Config Id} {code : Option (Code cfg.limits)}
    {storage : KontractStorage cfg.limits} {fuel reads writes : UInt32} (account : AccountData)
    {declared larger : Int32} (ordered : declared ≤ larger) :
    execution node cfg code storage account larger fuel reads writes =
        execution node cfg code storage account declared fuel reads writes ∨
      (∃ account', execution node cfg code storage account declared fuel reads writes = .ok (.exceeded account')) ∧
      ∀ account', execution node cfg code storage account larger fuel reads writes ≠ .ok (.exceeded account') := by
  simp only [execution_eq]
  cases sizeChange node cfg code storage fuel reads writes with
  | error abort => left; simp only [error_bind]
  | ok changed =>
    obtain ⟨raw, x⟩ := changed
    simp only [ok_bind]
    rcases request_mono cfg.overflowChecks x ordered with same | ⟨⟨amount, slashed⟩, milder⟩
    · left
      rw [same]
    · right
      refine ⟨⟨cfg.currency.slash account amount, ?_⟩, fun account' exceeded => ?_⟩
      · simp only [slashed, ok_bind]
        exact granted_exceeded.mpr ⟨amount, rfl, rfl⟩
      · obtain ⟨wanted, requested, ended⟩ := bind_ok exceeded
        obtain ⟨amount', rfl, -⟩ := granted_exceeded.mp ended
        exact milder amount' requested

end Requests

section Executions

variable {Id Account : Type} [DecidableEq Id] [DecidableEq Account] {node : Node} {cfg : Config Id}
  {s : State cfg.limits Id Account} {block : ℕ} {who : Account} {codeId : Id} {fuel reads writes : UInt32}

/-- Nothing is committed beyond the declaration, unless the size stays what it was. -/
theorem committed_within_declared {final : Executor.KontractStorage} (expected : Int32)
    (leaves : Leaves node cfg (s.codes codeId) (s.storages codeId) fuel reads writes final)
    (smallBefore : byteSize (s.storages codeId) < 2 ^ 31) (smallAfter : mapSize final < 2 ^ 31) :
    let x := executes cfg block who codeId fuel reads writes expected
    let change := (mapSize final : ℤ) - byteSize (s.storages codeId)
    ((dispatch node cfg s x).1 = .ok (.codeExecuted codeId who) → change ≤ expected.toInt ∨ change = 0) ∧
      (expected.toInt < change → change ≠ 0 →
        (dispatch node cfg s x).1 = .ok (.exceededStorage codeId who) ∧
          (step node cfg s x).storages = s.storages) := by
  intro x change
  have effect := executes_effect node s block who codeId fuel reads writes expected
  obtain ⟨raw, difference, wanted, -, -, -, -, asks, ran⟩ :=
    execution_leaves leaves smallBefore smallAfter (s.accounts who) expected
  constructor
  · intro executed
    obtain ⟨storage, account, ended⟩ := effect.executed_iff.mp executed
    refine asks.within fun amount slashed => ?_
    rw [ran, slashed] at ended
    cases ended
  · intro beyond moved
    obtain ⟨amount, rfl⟩ := asks.slash beyond moved
    refine ⟨effect.exceeded_iff.mpr ⟨_, ran⟩, ?_⟩
    rw [← Function.update_eq_self codeId s.storages]
    exact effect.storages.trans (by rw [ran]; rfl)

end Executions

section Echoed

def echoing : Script := .call (.get 0 0 0 63) (.call (.set 0 0 0 1) .done)

def echoingCode : List UInt8 :=
  binary [0x41, 0x00, 0x41, 0x00, 0x41, 0x00, 0x41, 0x3f, 0x10, 0x01, 0x41, 0x00, 0x41, 0x00, 0x41, 0x00, 0x41, 0x01,
    0x10, 0x00]

theorem echoingCode_fits : echoingCode.length ≤ localConfig.limits.maxCodeSize.toNat := by decide

def echoingNode : Node := Script.node [(echoingCode, echoing)]

def emptyKeyHolds (value : Value) : Executor.KontractStorage :=
  ⟨[(List.replicate 32 0, value)], List.pairwise_singleton _ _⟩

def echoedState : State localConfig.limits Bytes Signer :=
  Runs.exec (step echoingNode localConfig) (genesis 35)
    [uploading ⟨echoingCode, echoingCode_fits⟩, executing .alice echoingCode 35]

theorem toggling_leaves :
    Leaves localNode localConfig (togglingState.codes togglingCode) (togglingState.storages togglingCode) 10 10 10
      (emptyKeyHolds [0]) :=
  ⟨⟨togglingCode, togglingCode_fits⟩, [4, 128] ++ List.replicate 32 0 ++ [4, 0], by decide,
    by decide, by decide +kernel⟩

theorem toggling_committed_within_declared :
    let x := executes localConfig 1 .alice togglingCode 10 10 10 35
    let change := (mapSize (emptyKeyHolds [0]) : ℤ) - byteSize (togglingState.storages togglingCode)
    ((dispatch localNode localConfig togglingState x).1 = .ok (.codeExecuted togglingCode Signer.alice) →
        change ≤ (35 : Int32).toInt ∨ change = 0) ∧
      ((35 : Int32).toInt < change → change ≠ 0 →
        (dispatch localNode localConfig togglingState x).1 = .ok (.exceededStorage togglingCode Signer.alice) ∧
          (step localNode localConfig togglingState x).storages = togglingState.storages) :=
  committed_within_declared 35 toggling_leaves (by decide) (by decide)

/-- The second execution replaces one stored byte by another, under a declaration to free one. -/
theorem replaced_in_place :
    Leaves echoingNode localConfig (echoedState.codes echoingCode) (echoedState.storages echoingCode) 10 10 10
        (emptyKeyHolds [4]) ∧
      byteSize (echoedState.storages echoingCode) < 2 ^ 31 ∧ mapSize (emptyKeyHolds [4]) < 2 ^ 31 ∧
      (-1 : Int32).toInt < (mapSize (emptyKeyHolds [4]) : ℤ) - byteSize (echoedState.storages echoingCode) ∧
      (dispatch echoingNode localConfig echoedState (executing .alice echoingCode (-1))).1 =
        .ok (.codeExecuted echoingCode .alice) ∧
      (step echoingNode localConfig echoedState (executing .alice echoingCode (-1))).storages echoingCode ≠
        echoedState.storages echoingCode := by
  refine ⟨⟨⟨echoingCode, echoingCode_fits⟩, [4, 128] ++ List.replicate 32 0 ++ [4, 4], ?_, ?_, ?_⟩, ?_, ?_, ?_, ?_, ?_⟩
  · decide +kernel
  · decide +kernel
  · decide +kernel
  · decide +kernel
  · decide +kernel
  · decide +kernel
  · decide +kernel
  · intro same
    have entries := congrArg (fun storage => storage.raw.entries) same
    revert entries
    decide +kernel

end Echoed

section Executions

variable {Id Account : Type} [DecidableEq Id] [DecidableEq Account] {node : Node} {cfg : Config Id}
  {s : State cfg.limits Id Account} {block : ℕ} {who : Account} {codeId : Id} {fuel reads writes : UInt32}

theorem dispatch_congr {declared larger : Int32}
    (same : execution node cfg (s.codes codeId) (s.storages codeId) (s.accounts who) larger fuel reads writes =
      execution node cfg (s.codes codeId) (s.storages codeId) (s.accounts who) declared fuel reads writes) :
    dispatch node cfg s (executes cfg block who codeId fuel reads writes larger) =
      dispatch node cfg s (executes cfg block who codeId fuel reads writes declared) := by
  simp only [dispatch, executes, Extrinsic.run, Pallet.executeCode, ensureSigned, Bind.bind, Except.bind, same]

theorem dispatch_mono {declared larger : Int32} (ordered : declared ≤ larger) :
    dispatch node cfg s (executes cfg block who codeId fuel reads writes larger) =
        dispatch node cfg s (executes cfg block who codeId fuel reads writes declared) ∨
      (dispatch node cfg s (executes cfg block who codeId fuel reads writes declared)).1 =
          .ok (.exceededStorage codeId who) ∧
        (dispatch node cfg s (executes cfg block who codeId fuel reads writes larger)).1 ≠
          .ok (.exceededStorage codeId who) := by
  have effect := executes_effect node s block who codeId fuel reads writes
  rcases execution_mono (s.accounts who) ordered with same | ⟨⟨account, slashed⟩, milder⟩
  · exact .inl (dispatch_congr same)
  · refine .inr ⟨(effect declared).exceeded_iff.mpr ⟨account, slashed⟩, fun exceeded => ?_⟩
    obtain ⟨account', ended⟩ := (effect larger).exceeded_iff.mp exceeded
    exact milder account' ended

theorem executed_asks {expected : Int32}
    (executed : (dispatch node cfg s (executes cfg block who codeId fuel reads writes expected)).1 =
      .ok (.codeExecuted codeId who)) :
    ∃ newStorageRaw difference wanted,
      sizeChange node cfg (s.codes codeId) (s.storages codeId) fuel reads writes = .ok (newStorageRaw, difference) ∧
      request cfg.overflowChecks difference expected = .ok wanted ∧
      asked node cfg s (executes cfg block who codeId fuel reads writes expected) = some wanted ∧
      wanted.apply cfg.currency (s.accounts who) =
        .ok (.proceed ((step node cfg s (executes cfg block who codeId fuel reads writes expected)).accounts who)) := by
  have effect := executes_effect node s block who codeId fuel reads writes expected
  obtain ⟨storage, account, ended⟩ := effect.executed_iff.mp executed
  obtain ⟨raw, difference, wanted, changed, requested, granted, -⟩ := execution_committed ended
  refine ⟨raw, difference, wanted, changed, requested, asked_eq changed requested, ?_⟩
  rw [granted, effect.accounts, ended, Function.update_self]
  rfl

/-- The declared change gates the settlement and never enters it. -/
theorem declaration_only_gates {declared larger : Int32} (ordered : declared ≤ larger) :
    let x : Int32 → Extrinsic cfg.limits Id Account := executes cfg block who codeId fuel reads writes
    ((dispatch node cfg s (x declared)).1 = .ok (.codeExecuted codeId who) →
        dispatch node cfg s (x larger) = dispatch node cfg s (x declared)) ∧
      ((dispatch node cfg s (x declared)).1 = .ok (.exceededStorage codeId who) →
        (dispatch node cfg s (x larger)).1 = .ok (.exceededStorage codeId who) →
        step node cfg s (x larger) = step node cfg s (x declared)) ∧
      ((dispatch node cfg s (x larger)).1 = .ok (.exceededStorage codeId who) →
        (dispatch node cfg s (x declared)).1 = .ok (.exceededStorage codeId who)) ∧
      ((dispatch node cfg s (x declared)).1 = .ok (.codeExecuted codeId who) →
        ∃ wanted, asked node cfg s (x declared) = some wanted ∧
          wanted.apply cfg.currency (s.accounts who) =
            .ok (.proceed ((step node cfg s (x declared)).accounts who)) ∧
          ∀ amount, wanted = .reserve amount → (amount : ℤ) ≤ max 0 declared.toInt ∧
            ∀ final, Leaves node cfg (s.codes codeId) (s.storages codeId) fuel reads writes final →
              byteSize (s.storages codeId) < 2 ^ 31 → mapSize final < 2 ^ 31 →
              (amount : ℤ) = mapSize final - byteSize (s.storages codeId)) := by
  intro x
  have gated : dispatch node cfg s (x larger) = dispatch node cfg s (x declared) ∨ _ := dispatch_mono ordered
  refine ⟨fun executed => ?_, fun _ exceeded => ?_, fun exceeded => ?_, fun executed => ?_⟩
  · rcases gated with same | ⟨exceeded, -⟩
    · exact same
    · cases exceeded.symm.trans executed
  · rcases gated with same | ⟨-, milder⟩
    · exact congrArg Prod.snd same
    · exact absurd exceeded milder
  · rcases gated with same | ⟨-, milder⟩
    · exact (congrArg Prod.fst same).symm.trans exceeded
    · exact absurd exceeded milder
  · obtain ⟨raw, difference, wanted, changed, requested, asks, granted⟩ := executed_asks executed
    refine ⟨wanted, asks, granted, ?_⟩
    rintro amount rfl
    refine ⟨request_reserve requested, fun final leaves smallBefore smallAfter => ?_⟩
    obtain ⟨_, _, _, -, changed', -, requested', exactly, -⟩ :=
      execution_leaves leaves smallBefore smallAfter (s.accounts who) declared
    cases changed.symm.trans changed'
    cases requested.symm.trans requested'
    exact exactly.reserve_eq

theorem toggling_declaration_gates :
    dispatch localNode localConfig togglingState (executes localConfig 1 .alice togglingCode 10 10 10 50) =
      dispatch localNode localConfig togglingState (executes localConfig 1 .alice togglingCode 10 10 10 35) :=
  (declaration_only_gates (by decide)).1 (by decide)

end Executions

end KontractsProof.Pallet
