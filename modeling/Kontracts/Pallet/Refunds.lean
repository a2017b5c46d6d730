import Kontracts.Pallet.Solvency

namespace KontractsProof.Pallet

open Escrow Scale KontractsModel KontractsModel.Executor KontractsModel.Pallet

section Moves

variable {Id Account : Type} [DecidableEq Id] [DecidableEq Account] {node : Node} {cfg : Config Id}
  {s : State cfg.limits Id Account} {x : Extrinsic cfg.limits Id Account}

theorem drawn_mild (mild : ¬ ExceedsStorage node cfg s x) : drawnFromReserve node cfg s x = 0 := by
  unfold drawnFromReserve
  split
  · rename_i codeId who exceeded
    exact absurd ⟨codeId, who, exceeded⟩ mild
  · rfl

theorem moveOf_by {payer : Account} (signed : x.call.executedId.isSome → x.origin = .signed payer)
    (mild : ¬ ExceedsStorage node cfg s x) : Book.By payer (moveOf node cfg s x) := by
  have taken := dispatched node s x
  unfold ExceedsStorage at mild
  unfold moveOf
  generalize (dispatch node cfg s x).1 = result at taken mild ⊢
  generalize step node cfg s x = s' at taken ⊢
  cases taken with
  | aborted | uploaded | deleted | upgraded => exact True.intro
  | exceeded => exact absurd ⟨_, _, rfl⟩ mild
  | committed =>
    obtain rfl := Origin.signed.inj (signed rfl)
    dsimp only
    split <;> rfl

end Moves

section Toggled

def toggledRun (freer : Signer) : List (Extrinsic localConfig.limits Bytes Signer) :=
  [uploading ⟨togglingCode, togglingCode_fits⟩, executing .alice togglingCode 35, executing freer togglingCode 0]

theorem toggled_outcome (freer : Signer) :
    Runs.Always (step localNode localConfig) (fun s x => ¬ ExceedsStorage localNode localConfig s x) (genesis 35)
        (toggledRun freer) ∧
      byteSize ((Runs.exec (step localNode localConfig) (genesis 35) (toggledRun freer)).storages togglingCode) = 0 ∧
      ((Runs.exec (step localNode localConfig) (genesis 35) (toggledRun freer)).accounts .alice).reserved =
        if freer = .alice then 0 else 35 := by
  cases freer <;> decide +kernel

theorem toggled_signed : ∀ x ∈ toggledRun .alice, x.call.executedId.isSome → x.origin = .signed .alice := by
  intro x member executed
  simp only [toggledRun, List.mem_cons, List.not_mem_nil, or_false] at member
  rcases member with rfl | rfl | rfl <;> rfl

theorem toggled_empty (freer : Signer) (codeId : Bytes) :
    (Runs.exec (step localNode localConfig) (genesis 35) (toggledRun freer)).storages codeId =
      emptyStorage localConfig.limits := by
  by_cases same : codeId = togglingCode
  · subst same
    exact eq_empty_of_byteSize (toggled_outcome freer).2.1
  · have others : ∀ x ∈ toggledRun freer, x.call.executedId ≠ some codeId := by
      intro x member executed
      simp only [toggledRun, List.mem_cons, List.not_mem_nil, or_false] at member
      rcases member with rfl | rfl | rfl
      · cases executed
      · exact same (Option.some.inj executed).symm
      · exact same (Option.some.inj executed).symm
    rw [storages_unchanged_run others]
    rfl

end Toggled

section Runs

variable {Id Account : Type} [DecidableEq Id] [DecidableEq Account] {node : Node} {cfg : Config Id}
  {s₀ : State cfg.limits Id Account} {xs : List (Extrinsic cfg.limits Id Account)}

theorem slashing_of_mild (mild : Runs.Always (step node cfg) (fun s x => ¬ ExceedsStorage node cfg s x) s₀ xs) :
    Runs.Always (step node cfg) (fun s x => ExceedsStorage node cfg s x → cfg.currency.Slashing) s₀ xs :=
  mild.mono fun _ _ none exceeds => absurd exceeds none

theorem run_held (fits : SizesFit cfg.limits) (reserving : cfg.currency.Reserving)
    (mild : Runs.Always (step node cfg) (fun s x => ¬ ExceedsStorage node cfg s x) s₀ xs) (account : Account) :
    ((Runs.exec (step node cfg) s₀ xs).accounts account).held = (s₀.accounts account).held := by
  have follows := book_follows fits reserving (slashing_of_mild mild)
  have legal := book_legal fits reserving (slashing_of_mild mild)
  have moved := Book.run_held
    (follows.always (legal.and (mild.mono fun _ _ none => moveOf_mild none))) account
  rwa [← follows.exec] at moved

theorem single_payer_deposits (limits : cfg.limits = runtimeLimits) (reserving : cfg.currency.Reserving)
    (empty : ∀ codeId, s₀.storages codeId = emptyStorage cfg.limits) {payer : Account}
    (signed : ∀ x ∈ xs, x.call.executedId.isSome → x.origin = .signed payer)
    (mild : Runs.Always (step node cfg) (fun s x => ¬ ExceedsStorage node cfg s x) s₀ xs) :
    ((Runs.exec (step node cfg) s₀ xs).accounts payer).reserved =
        (s₀.accounts payer).reserved + totalStored (Runs.exec (step node cfg) s₀ xs) ∧
      ((Runs.exec (step node cfg) s₀ xs).accounts payer).held = (s₀.accounts payer).held := by
  have fits : SizesFit cfg.limits := limits ▸ runtimeLimits_fit
  have follows := book_follows fits reserving (slashing_of_mild mild)
  have legal := book_legal fits reserving (slashing_of_mild mild)
  have only : Runs.Always (step node cfg) (fun s x => Book.By payer (moveOf node cfg s x)) s₀ xs :=
    ((Runs.always_of_forall fun _ x member => signed x member).and mild).mono
      fun _ _ both => moveOf_by both.1 both.2
  have start : Book.Backed payer (s₀.accounts payer).reserved (book cfg s₀) :=
    ⟨by simp [book, empty, byteSize_empty], by simp [Book.sizeTotal, book, empty, byteSize_empty]⟩
  have backed := start.run (follows.always (legal.and only))
  rw [← follows.exec] at backed
  exact ⟨backed.reserve, run_held fits reserving mild payer⟩

theorem toggled_single_payer :
    ((Runs.exec (step localNode localConfig) (genesis 35) (toggledRun .alice)).accounts .alice).reserved =
        0 + totalStored (Runs.exec (step localNode localConfig) (genesis 35) (toggledRun .alice)) ∧
      ((Runs.exec (step localNode localConfig) (genesis 35) (toggledRun .alice)).accounts .alice).held = 35 :=
  @single_payer_deposits _ _ _ _ localNode localConfig (genesis 35) (toggledRun .alice) rfl balances_reserving
    (fun _ => rfl) .alice toggled_signed (toggled_outcome .alice).1

/-- A refund goes to whoever frees the storage, as far as that account has a reserve. What it lacks
    stays reserved elsewhere, and nothing else does once every storage is empty. -/
theorem deposits_returned_iff (fits : SizesFit cfg.limits) (reserving : cfg.currency.Reserving)
    (empty : ∀ codeId, s₀.storages codeId = emptyStorage cfg.limits)
    (unreserved : ∀ account, (s₀.accounts account).reserved = 0)
    (mild : Runs.Always (step node cfg) (fun s x => ¬ ExceedsStorage node cfg s x) s₀ xs) :
    (∀ account, ((Runs.exec (step node cfg) s₀ xs).accounts account).held = (s₀.accounts account).held) ∧
      totalReserved (Runs.exec (step node cfg) s₀ xs) = totalStored (Runs.exec (step node cfg) s₀ xs) +
        Runs.tally (step node cfg) (unpaidRefund node cfg) s₀ xs ∧
      ((∀ codeId, (Runs.exec (step node cfg) s₀ xs).storages codeId = emptyStorage cfg.limits) →
        ((∀ account, ((Runs.exec (step node cfg) s₀ xs).accounts account).reserved = 0) ↔
          Runs.Always (step node cfg) (fun s x => unpaidRefund node cfg s x = 0) s₀ xs)) := by
  have totals := run_totals fits reserving (slashing_of_mild mild) empty unreserved
  have undrawn := (Runs.tally_eq_zero_iff (drawnFromReserve node cfg) s₀ xs).mpr
    (mild.mono fun _ _ none => drawn_mild none)
  have finite := run_finite fits reserving (slashing_of_mild mild) empty unreserved
  rw [undrawn, Nat.add_zero] at totals
  refine ⟨run_held fits reserving mild, totals, fun emptied => ?_⟩
  have stored : totalStored (Runs.exec (step node cfg) s₀ xs) = 0 :=
    finsum_eq_zero_of_forall_eq_zero fun codeId => by rw [emptied, byteSize_empty]
  rw [stored, Nat.zero_add] at totals
  -- nothing is stored, so what is still reserved is the sum of what the refunds lacked
  rw [← Runs.tally_eq_zero_iff, ← totals]
  constructor
  · intro none
    exact finsum_eq_zero_of_forall_eq_zero none
  · intro none account
    have part : ((Runs.exec (step node cfg) s₀ xs).accounts account).reserved ≤
        totalReserved (Runs.exec (step node cfg) s₀ xs) := le_total finite.reserves account
    omega

theorem toggled_deposits_returned :
    (∀ account,
        ((Runs.exec (step localNode localConfig) (genesis 35) (toggledRun .alice)).accounts account).reserved = 0) ↔
      Runs.Always (step localNode localConfig) (fun s x => unpaidRefund localNode localConfig s x = 0)
        (genesis 35) (toggledRun .alice) :=
  (@deposits_returned_iff _ _ _ _ localNode localConfig (genesis 35) (toggledRun .alice) runtimeLimits_fit
    balances_reserving (fun _ => rfl) (fun _ => rfl) (toggled_outcome .alice).1).2.2 (toggled_empty .alice)

/-- Bob frees what Alice paid for: no storage is left, and her deposit is still reserved. -/
theorem toggled_deposit_kept :
    (∀ codeId, (Runs.exec (step localNode localConfig) (genesis 35) (toggledRun .bob)).storages codeId =
        emptyStorage localConfig.limits) ∧
      Runs.Always (step localNode localConfig) (fun s x => ¬ ExceedsStorage localNode localConfig s x) (genesis 35)
        (toggledRun .bob) ∧
      ((Runs.exec (step localNode localConfig) (genesis 35) (toggledRun .bob)).accounts .alice).reserved = 35 :=
  ⟨toggled_empty .bob, (toggled_outcome .bob).1, (toggled_outcome .bob).2.2⟩

end Runs

end KontractsProof.Pallet
