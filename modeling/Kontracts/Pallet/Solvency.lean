import Kontracts.Pallet.Deposits

namespace KontractsModel.Pallet

section Totals

variable {limits : Limits} {Id Account : Type}

noncomputable def totalReserved (s : State limits Id Account) : ℕ := ∑ᶠ account, (s.accounts account).reserved

noncomputable def totalStored (s : State limits Id Account) : ℕ := ∑ᶠ codeId, byteSize (s.storages codeId)

end Totals

end KontractsModel.Pallet

namespace KontractsProof.Pallet

open Escrow Scale KontractsModel KontractsModel.Executor KontractsModel.Pallet

theorem book_finite {Id Account : Type} {cfg : Config Id} {s₀ : State cfg.limits Id Account}
    (empty : ∀ codeId, s₀.storages codeId = emptyStorage cfg.limits)
    (unreserved : ∀ account, (s₀.accounts account).reserved = 0) : (book cfg s₀).Finite where
  reserves := by simp [book, unreserved]
  sizes := by simp [book, empty, byteSize_empty]

section Counts

variable {Id Account : Type} [DecidableEq Id] [DecidableEq Account] {node : Node} {cfg : Config Id}

theorem drawn_counted {s : State cfg.limits Id Account} {x : Extrinsic cfg.limits Id Account}
    (slashing : ExceedsStorage node cfg s x → cfg.currency.Slashing) :
    (book cfg s).drawn (moveOf node cfg s x) = drawnFromReserve node cfg s x := by
  have taken := dispatched node s x
  unfold ExceedsStorage at slashing
  unfold moveOf drawnFromReserve
  generalize (dispatch node cfg s x).1 = result at taken slashing ⊢
  generalize step node cfg s x = s' at taken ⊢
  cases taken with
  | aborted | uploaded | deleted | upgraded => rfl
  | @exceeded block who codeId expected fuel reads writes account executed =>
    obtain ⟨amount, rfl⟩ := execution_exceeded executed
    have seized := (slashing ⟨codeId, who, rfl⟩).slash (s.accounts who) amount
    simp only [State.depositEvent_accounts, State.setAccount, Function.update_self, seized, book, Book.drawn,
      Holding.seize, Holding.held]
    omega
  | committed executed =>
    dsimp only
    split <;> rfl

theorem unpaid_counted (s : State cfg.limits Id Account) (x : Extrinsic cfg.limits Id Account) :
    (book cfg s).unpaid (moveOf node cfg s x) = unpaidRefund node cfg s x := by
  unfold moveOf unpaidRefund freedBytes
  generalize (dispatch node cfg s x).1 = result
  cases result with
  | error abort => rfl
  | ok event =>
    cases event with
    | codeExecuted codeId who =>
      dsimp only
      split
      · rename_i grown
        rw [Nat.sub_eq_zero_of_le grown, Nat.zero_sub]
        rfl
      · rfl
    | newCodeUploaded | codeDeleted | codeUpgraded | exceededStorage => rfl

theorem moveOf_mild {s : State cfg.limits Id Account} {x : Extrinsic cfg.limits Id Account}
    (mild : ¬ ExceedsStorage node cfg s x) : ¬ Book.Penalty (moveOf node cfg s x) := by
  unfold moveOf
  split
  · dsimp only
    split <;> exact id
  · rename_i codeId who exceeded
    exact absurd ⟨codeId, who, exceeded⟩ mild
  · exact id

end Counts

section Runs

variable {Id Account : Type} [DecidableEq Id] [DecidableEq Account] {node : Node} {cfg : Config Id}
  {s₀ : State cfg.limits Id Account} {xs : List (Extrinsic cfg.limits Id Account)}

theorem book_follows (fits : SizesFit cfg.limits) (reserving : cfg.currency.Reserving)
    (slashing : Runs.Always (step node cfg) (fun s x => ExceedsStorage node cfg s x → cfg.currency.Slashing)
      s₀ xs) :
    Runs.Follows (step node cfg) Book.play (book cfg) (moveOf node cfg) s₀ xs :=
  slashing.mono fun _ _ law => (book_step fits reserving law).1

theorem book_legal (fits : SizesFit cfg.limits) (reserving : cfg.currency.Reserving)
    (slashing : Runs.Always (step node cfg) (fun s x => ExceedsStorage node cfg s x → cfg.currency.Slashing)
      s₀ xs) :
    Runs.Always (step node cfg) (fun s x => (book cfg s).Legal (moveOf node cfg s x)) s₀ xs :=
  slashing.mono fun _ _ law => (book_step fits reserving law).2

theorem run_finite (fits : SizesFit cfg.limits) (reserving : cfg.currency.Reserving)
    (slashing : Runs.Always (step node cfg) (fun s x => ExceedsStorage node cfg s x → cfg.currency.Slashing)
      s₀ xs)
    (empty : ∀ codeId, s₀.storages codeId = emptyStorage cfg.limits)
    (unreserved : ∀ account, (s₀.accounts account).reserved = 0) :
    (book cfg (Runs.exec (step node cfg) s₀ xs)).Finite := by
  rw [(book_follows fits reserving slashing).exec]
  exact (book_finite empty unreserved).run _

theorem run_totals (fits : SizesFit cfg.limits) (reserving : cfg.currency.Reserving)
    (slashing : Runs.Always (step node cfg) (fun s x => ExceedsStorage node cfg s x → cfg.currency.Slashing)
      s₀ xs)
    (empty : ∀ codeId, s₀.storages codeId = emptyStorage cfg.limits)
    (unreserved : ∀ account, (s₀.accounts account).reserved = 0) :
    totalReserved (Runs.exec (step node cfg) s₀ xs) +
        Runs.tally (step node cfg) (drawnFromReserve node cfg) s₀ xs =
      totalStored (Runs.exec (step node cfg) s₀ xs) +
        Runs.tally (step node cfg) (unpaidRefund node cfg) s₀ xs := by
  have follows := book_follows fits reserving slashing
  have balance := Book.run_balance (book_finite empty unreserved)
    (follows.always (book_legal fits reserving slashing))
  have drawn := (follows.tally Book.drawn).trans
    (Runs.tally_congr (slashing.mono fun _ _ law => drawn_counted law))
  have unpaid := (follows.tally Book.unpaid).trans
    (Runs.tally_congr (Runs.always_of_forall fun s x _ => unpaid_counted s x))
  have noReserves : (book cfg s₀).reservedTotal = 0 := by simp [Book.reservedTotal, book, unreserved]
  have noSizes : (book cfg s₀).sizeTotal = 0 := by simp [Book.sizeTotal, book, empty, byteSize_empty]
  rw [← follows.exec, drawn, unpaid, noReserves, noSizes] at balance
  exact balance

/-- The deposits fall short of the stored bytes by no more than what `ExceededStorage` penalties took
    from reserved balances. -/
theorem deposits_cover_storage (limits : cfg.limits = runtimeLimits) (reserving : cfg.currency.Reserving)
    (slashing : cfg.currency.Slashing) (empty : ∀ codeId, s₀.storages codeId = emptyStorage cfg.limits)
    (unreserved : ∀ account, (s₀.accounts account).reserved = 0) :
    totalStored (Runs.exec (step node cfg) s₀ xs) ≤
        totalReserved (Runs.exec (step node cfg) s₀ xs) +
          Runs.tally (step node cfg) (drawnFromReserve node cfg) s₀ xs ∧
      (Runs.Always (step node cfg) (fun s x => drawnFromReserve node cfg s x = 0) s₀ xs →
        totalStored (Runs.exec (step node cfg) s₀ xs) ≤ totalReserved (Runs.exec (step node cfg) s₀ xs)) := by
  have fits : SizesFit cfg.limits := limits ▸ runtimeLimits_fit
  have law : Runs.Always (step node cfg) (fun s x => ExceedsStorage node cfg s x → cfg.currency.Slashing) s₀ xs :=
    Runs.always_of_forall fun _ _ _ _ => slashing
  have totals := run_totals fits reserving law empty unreserved
  refine ⟨by omega, fun covered => ?_⟩
  have none := (Runs.tally_eq_zero_iff (drawnFromReserve node cfg) s₀ xs).mpr covered
  omega

end Runs

section Slashed

def slashedRun : List (Extrinsic localConfig.limits Bytes Signer) :=
  [uploading ⟨storingCode, storingCode_fits⟩, uploading ⟨paddedStoringCode, paddedStoringCode_fits⟩,
    executing .alice storingCode 34, executing .alice paddedStoringCode 0]

abbrev slashedState : State localConfig.limits Bytes Signer :=
  Runs.exec (step localNode localConfig) (genesis 34) slashedRun

theorem slashed_reserve_uncovers_storage : totalReserved slashedState < totalStored slashedState := by
  have finite : (book localConfig slashedState).Finite :=
    run_finite runtimeLimits_fit balances_reserving (Runs.always_of_forall fun _ _ _ _ => balances_slashing)
      (fun _ => rfl) (fun _ => rfl)
  have reserves : ∀ account, (slashedState.accounts account).reserved = 0 := by
    intro account
    cases account <;> decide
  have stored : byteSize (slashedState.storages storingCode) = 34 := by decide
  have none : totalReserved slashedState = 0 := finsum_eq_zero_of_forall_eq_zero reserves
  have some : byteSize (slashedState.storages storingCode) ≤ totalStored slashedState :=
    le_total finite.sizes storingCode
  omega

theorem slashed_deposits_cover_storage :
    totalStored slashedState ≤ totalReserved slashedState +
      Runs.tally (step localNode localConfig) (drawnFromReserve localNode localConfig) (genesis 34) slashedRun :=
  (deposits_cover_storage rfl balances_reserving balances_slashing (fun _ => rfl) (fun _ => rfl)).1

end Slashed

end KontractsProof.Pallet
