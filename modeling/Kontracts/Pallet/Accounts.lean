import Kontracts.Pallet.Deposits
import Kontracts.Pallet.Penalty

namespace KontractsModel.Pallet

open Escrow KontractsModel.Executor

def Request.leaves (currency : Currency) (account : AccountData) : Request → AccountData
  | .nothing => account
  | .unreserve amount => currency.unreserve account amount
  | .reserve amount => (currency.reserve account amount).getD account
  | .slash amount => currency.slash account amount

def Request.seizes (account : AccountData) : Request → ℕ
  | .slash amount => min amount account.held
  | _ => 0

section Ledgers

variable {Id Account : Type} [DecidableEq Id] [DecidableEq Account] (node : Node) (cfg : Config Id)

def settledWho : Except Abort (Event Id Account) → Option Account
  | .ok (.codeExecuted _ who) | .ok (.exceededStorage _ who) => some who
  | _ => none

def ledger (who : Account) (s : State cfg.limits Id Account) (x : Extrinsic cfg.limits Id Account) : List Request :=
  if settledWho (dispatch node cfg s x).1 = some who then (asked node cfg s x).toList else []

def penalty (who : Account) (s : State cfg.limits Id Account) (x : Extrinsic cfg.limits Id Account) : ℕ :=
  ((ledger node cfg who s x).map (Request.seizes (s.accounts who))).sum

end Ledgers

end KontractsModel.Pallet

namespace KontractsProof.Pallet

open Escrow Scale KontractsModel KontractsModel.Executor KontractsModel.Pallet

section Requests

variable {currency : Currency} {account account' : AccountData} {wanted : Request}

theorem leaves_granted (granted : wanted.apply currency account = .ok (.proceed account')) :
    wanted.leaves currency account = account' := by
  cases wanted with
  | nothing | unreserve => simpa [Request.apply, Request.leaves] using granted
  | reserve amount =>
    simp only [Request.apply] at granted
    split at granted
    · rename_i reserved
      cases granted
      rw [Request.leaves, reserved, Option.getD_some]
    · cases granted
  | slash => cases granted

theorem leaves_held (reserving : currency.Reserving) (slashing : ∀ amount, wanted = .slash amount → currency.Slashing) :
    (wanted.leaves currency account).held + wanted.seizes account = account.held := by
  cases wanted with
  | nothing => rfl
  | unreserve amount => rw [Request.leaves, reserving.unreserve, Holding.held_release]; rfl
  | reserve amount =>
    cases reserved : currency.reserve account amount with
    | none => rw [Request.leaves, reserved]; rfl
    | some left =>
      obtain ⟨covered, rfl⟩ := reserving.reserve _ _ _ reserved
      rw [Request.leaves, reserved, Option.getD_some, Holding.held_lock covered]
      rfl
  | slash amount =>
    rw [Request.leaves, (slashing amount rfl).slash, Request.seizes]
    simp only [Holding.held, Holding.seize]
    omega

end Requests

section Steps

variable {Id Account : Type} [DecidableEq Id] [DecidableEq Account] {node : Node} {cfg : Config Id}

theorem ledger_step (node : Node) (who : Account) (s : State cfg.limits Id Account)
    (x : Extrinsic cfg.limits Id Account) :
    ledger node cfg who s x = [] ∧ (step node cfg s x).accounts who = s.accounts who ∨
      ∃ wanted, ledger node cfg who s x = [wanted] ∧
        (step node cfg s x).accounts who = wanted.leaves cfg.currency (s.accounts who) ∧
        ∀ amount, wanted = .slash amount → ExceedsStorage node cfg s x := by
  have taken := dispatched node s x
  unfold ledger ExceedsStorage
  generalize (dispatch node cfg s x).1 = result at taken ⊢
  generalize step node cfg s x = s' at taken ⊢
  cases taken with
  | aborted | uploaded | deleted | upgraded => left; simp [settledWho]
  | @exceeded block signer codeId expected fuel reads writes account executed =>
    by_cases same : signer = who
    · subst same
      rw [execution_eq] at executed
      obtain ⟨⟨raw, difference⟩, changed, executed⟩ := bind_ok executed
      obtain ⟨wanted, requested, executed⟩ := bind_ok executed
      obtain ⟨amount, rfl, rfl⟩ := granted_exceeded.mp executed
      have asks : asked node cfg s ⟨block, .signed signer, .executeCode codeId expected fuel reads writes⟩ = _ :=
        asked_eq changed requested
      refine .inr ⟨.slash amount, ?_, ?_, fun _ _ => ⟨codeId, signer, rfl⟩⟩
      · rw [settledWho, if_pos rfl, asks, Option.toList_some]
      · simp only [State.depositEvent_accounts, State.setAccount, Function.update_self, Request.leaves]
    · exact .inl ⟨if_neg fun signed => same (Option.some.inj signed),
        by simp [State.setAccount, Function.update_of_ne (Ne.symm same)]⟩
  | @committed block signer codeId expected fuel reads writes storage account executed =>
    by_cases same : signer = who
    · subst same
      obtain ⟨raw, difference, wanted, changed, requested, granted, -⟩ := execution_committed executed
      have asks : asked node cfg s ⟨block, .signed signer, .executeCode codeId expected fuel reads writes⟩ = _ :=
        asked_eq changed requested
      refine .inr ⟨wanted, ?_, ?_, ?_⟩
      · rw [settledWho, if_pos rfl, asks, Option.toList_some]
      · simp only [State.depositEvent_accounts, State.setStorage_accounts, State.setAccount, Function.update_self]
        exact (leaves_granted granted).symm
      · rintro amount rfl
        cases granted
    · exact .inl ⟨if_neg fun signed => same (Option.some.inj signed),
        by simp [State.setAccount, Function.update_of_ne (Ne.symm same)]⟩

theorem ledger_replays (who : Account) (s : State cfg.limits Id Account) (x : Extrinsic cfg.limits Id Account) :
    (ledger node cfg who s x).foldl (Request.leaves cfg.currency) (s.accounts who) =
      (step node cfg s x).accounts who := by
  rcases ledger_step node who s x with ⟨none, same⟩ | ⟨wanted, single, left, -⟩
  · rw [none, same]
    rfl
  · rw [single, left]
    rfl

theorem penalty_step (reserving : cfg.currency.Reserving) {s : State cfg.limits Id Account}
    {x : Extrinsic cfg.limits Id Account} (slashing : ExceedsStorage node cfg s x → cfg.currency.Slashing)
    (who : Account) :
    ((step node cfg s x).accounts who).held + penalty node cfg who s x = (s.accounts who).held := by
  unfold penalty
  rcases ledger_step node who s x with ⟨none, same⟩ | ⟨wanted, single, left, slashed⟩
  · rw [none, same]
    rfl
  · rw [single, left, List.map_singleton, List.sum_singleton]
    exact leaves_held reserving fun amount same => slashing (slashed amount same)

/-- The balances of an account are the replay of what its own executions were granted, in their order, over
    every run of the chain. -/
theorem account_replayed (who : Account) (s : State cfg.limits Id Account)
    (xs : List (Extrinsic cfg.limits Id Account)) :
    (Runs.exec (step node cfg) s xs).accounts who =
      (Runs.collect (step node cfg) (ledger node cfg who) s xs).foldl (Request.leaves cfg.currency)
        (s.accounts who) := by
  have preserved : ∀ past (s' : State cfg.limits Id Account) x, True →
      s'.accounts who = past.foldl (Request.leaves cfg.currency) (s.accounts who) →
      (step node cfg s' x).accounts who =
        (past ++ ledger node cfg who s' x).foldl (Request.leaves cfg.currency) (s.accounts who) := by
    intro past s' x _ replayed
    rw [List.foldl_append, ← replayed, ledger_replays]
  have start : s.accounts who = [].foldl (Request.leaves cfg.currency) (s.accounts who) := rfl
  exact Runs.exec_history _ preserved (Runs.always_of_forall fun _ _ _ => True.intro) start

/-- Money is conserved: what an account holds at the end of a run and what penalties took from it are together
    what it held at the start. -/
theorem held_accounted (reserving : cfg.currency.Reserving) {s : State cfg.limits Id Account}
    {xs : List (Extrinsic cfg.limits Id Account)}
    (slashing : Runs.Always (step node cfg) (fun s x => ExceedsStorage node cfg s x → cfg.currency.Slashing) s xs)
    (who : Account) :
    ((Runs.exec (step node cfg) s xs).accounts who).held + Runs.tally (step node cfg) (penalty node cfg who) s xs =
      (s.accounts who).held := by
  induction xs generalizing s with
  | nil => rfl
  | cons x rest ih =>
    have now := penalty_step reserving slashing.1 who
    have later := ih slashing.2
    simp only [Runs.exec_cons, Runs.tally]
    omega

end Steps

section Penalised

def penalisedRun : List (Extrinsic localConfig.limits Bytes Signer) :=
  [uploading ⟨togglingCode, togglingCode_fits⟩, executing .alice togglingCode 10, executing .bob togglingCode 35]

theorem penalised_accounted :
    ((Runs.exec (step localNode localConfig) (genesis 40) penalisedRun).accounts .alice).held +
      Runs.tally (step localNode localConfig) (penalty localNode localConfig .alice) (genesis 40) penalisedRun = 40 :=
  held_accounted balances_reserving (Runs.always_of_forall fun _ _ _ _ => balances_slashing) Signer.alice

end Penalised

end KontractsProof.Pallet
