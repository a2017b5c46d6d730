import Kontracts.Pallet.Steps
import Kontracts.Executor.Script

namespace KontractsModel.Pallet

open Escrow Scale KontractsModel.Executor

/-- `reserve` and `unreserve` of pallet_balances, without locks. -/
structure Currency.Reserving (currency : Currency) : Prop where
  reserve : ∀ account amount account', currency.reserve account amount = some account' →
    amount ≤ account.free ∧ account' = account.lock amount
  unreserve : ∀ account amount, currency.unreserve account amount = account.release amount

structure Currency.Slashing (currency : Currency) : Prop where
  slash : ∀ account amount, currency.slash account amount = account.seize amount

/-- pallet_balances without locks and with an existential deposit of 0. -/
def balances : Currency where
  reserve account amount := if amount ≤ account.free then some (account.lock amount) else none
  unreserve := Holding.release
  slash := Holding.seize

inductive Signer
  | alice
  | bob
deriving DecidableEq

def localConfig : Config Bytes where
  limits := runtimeLimits
  currency := balances
  hashingAlgorith := id
  overflowChecks := true

def genesis (free : ℕ) : State localConfig.limits Bytes Signer where
  codes _ := none
  storages _ := emptyStorage runtimeLimits
  accounts _ := ⟨free, 0⟩
  events := []

def freshState (cfg : Config Bytes) (free : ℕ) : State cfg.limits Bytes Signer where
  codes _ := none
  storages _ := emptyStorage cfg.limits
  accounts _ := ⟨free, 0⟩
  events := []

def uploading (code : Code localConfig.limits) : Extrinsic localConfig.limits Bytes Signer :=
  ⟨1, .signed .alice, .uploadCode code⟩

def executing (who : Signer) (codeId : Bytes) (expected : Int32) : Extrinsic localConfig.limits Bytes Signer :=
  ⟨1, .signed who, .executeCode codeId expected 10 10 10⟩

theorem storingCode_fits : storingCode.length ≤ localConfig.limits.maxCodeSize.toNat := by decide

theorem paddedStoringCode_fits : paddedStoringCode.length ≤ localConfig.limits.maxCodeSize.toNat := by decide

theorem togglingCode_fits : togglingCode.length ≤ localConfig.limits.maxCodeSize.toNat := by decide +kernel

section Amounts

variable {Id Account : Type} [DecidableEq Id] [DecidableEq Account] (node : Node) (cfg : Config Id)

def book (s : State cfg.limits Id Account) : Book Account Id :=
  ⟨s.accounts, fun codeId => byteSize (s.storages codeId)⟩

def drawnFromReserve (s : State cfg.limits Id Account) (x : Extrinsic cfg.limits Id Account) : ℕ :=
  match (dispatch node cfg s x).1 with
  | .ok (.exceededStorage _ who) =>
    (s.accounts who).reserved - ((step node cfg s x).accounts who).reserved
  | _ => 0

def freedBytes (s : State cfg.limits Id Account) (x : Extrinsic cfg.limits Id Account) : ℕ :=
  match (dispatch node cfg s x).1 with
  | .ok (.codeExecuted codeId _) =>
    byteSize (s.storages codeId) - byteSize ((step node cfg s x).storages codeId)
  | _ => 0

/-- The part of a refund that the signer's reserved balance did not cover. -/
def unpaidRefund (s : State cfg.limits Id Account) (x : Extrinsic cfg.limits Id Account) : ℕ :=
  match (dispatch node cfg s x).1 with
  | .ok (.codeExecuted _ who) => freedBytes node cfg s x - (s.accounts who).reserved
  | _ => 0

def ExceedsStorage (s : State cfg.limits Id Account) (x : Extrinsic cfg.limits Id Account) : Prop :=
  ∃ codeId who, (dispatch node cfg s x).1 = .ok (.exceededStorage codeId who)

def endsExceeded : Except Abort (Event Id Account) → Bool
  | .ok (.exceededStorage _ _) => true
  | _ => false

instance (s : State cfg.limits Id Account) (x : Extrinsic cfg.limits Id Account) :
    Decidable (ExceedsStorage node cfg s x) :=
  decidable_of_iff (endsExceeded (dispatch node cfg s x).1 = true) <| by
    unfold ExceedsStorage endsExceeded
    constructor
    · intro ends
      split at ends
      · rename_i codeId who exceeded
        exact ⟨codeId, who, exceeded⟩
      · cases ends
    · rintro ⟨codeId, who, exceeded⟩
      rw [exceeded]

def moveOf (s : State cfg.limits Id Account) (x : Extrinsic cfg.limits Id Account) : Move Account Id :=
  match (dispatch node cfg s x).1 with
  | .ok (.codeExecuted codeId who) =>
    let before := byteSize (s.storages codeId)
    let after := byteSize ((step node cfg s x).storages codeId)
    if before ≤ after then .grow who codeId (after - before) else .shrink who codeId (before - after)
  | .ok (.exceededStorage _ who) =>
    .penalise who ((s.accounts who).held - ((step node cfg s x).accounts who).held)
  | _ => .idle

end Amounts

end KontractsModel.Pallet

namespace KontractsProof.Pallet

open Escrow KontractsModel KontractsModel.Executor KontractsModel.Pallet

theorem balances_reserving : balances.Reserving where
  reserve account amount account' paid := by
    simp only [balances, Option.ite_none_right_eq_some, Option.some.injEq] at paid
    exact ⟨paid.1, paid.2.symm⟩
  unreserve _ _ := rfl

theorem balances_slashing : balances.Slashing where
  slash _ _ := rfl

section Book

theorem size_update {limits : Limits} {Id : Type} [DecidableEq Id] (storages : Id → KontractStorage limits)
    (codeId : Id) (storage : KontractStorage limits) :
    (fun id => byteSize (Function.update storages codeId storage id)) =
      Function.update (fun id => byteSize (storages id)) codeId (byteSize storage) :=
  Function.comp_update byteSize storages codeId storage

variable {Id Account : Type} [DecidableEq Id] [DecidableEq Account] {node : Node} {cfg : Config Id}

theorem book_step (fits : SizesFit cfg.limits) (reserving : cfg.currency.Reserving)
    {s : State cfg.limits Id Account} {x : Extrinsic cfg.limits Id Account}
    (slashing : ExceedsStorage node cfg s x → cfg.currency.Slashing) :
    book cfg (step node cfg s x) = (book cfg s).play (moveOf node cfg s x) ∧
      (book cfg s).Legal (moveOf node cfg s x) := by
  have taken := dispatched node s x
  unfold ExceedsStorage at slashing
  unfold moveOf
  generalize (dispatch node cfg s x).1 = result at taken slashing ⊢
  generalize step node cfg s x = s' at taken ⊢
  cases taken with
  | aborted | uploaded | deleted | upgraded => exact ⟨by simp [book, Book.play], True.intro⟩
  | @exceeded block who codeId expected fuel reads writes account executed =>
    obtain ⟨amount, rfl⟩ := execution_exceeded executed
    have seized := (slashing ⟨codeId, who, rfl⟩).slash (s.accounts who) amount
    refine ⟨?_, True.intro⟩
    simp only [book, Book.play, State.depositEvent_accounts, State.depositEvent_storages, State.setAccount,
      Function.update_self, seized, Holding.seize_taken]
  | @committed block who codeId expected fuel reads writes storage account executed =>
    have settled := execution_settled fits executed
    simp only [State.depositEvent_storages, State.setStorage, State.setAccount, Function.update_self]
    cases settled with
    | equal same =>
      rw [if_pos (by omega)]
      refine ⟨?_, by simp only [Book.Legal]; omega⟩
      simp [book, Book.play, size_update, same, Holding.lock_zero]
    | freed less =>
      rw [if_neg (by omega)]
      refine ⟨?_, by simp only [Book.Legal, book]; omega⟩
      have left : byteSize (s.storages codeId) - (byteSize (s.storages codeId) - byteSize storage) =
        byteSize storage := by omega
      simp [book, Book.play, size_update, left, reserving.unreserve]
    | grown more reserved =>
      obtain ⟨covered, rfl⟩ := reserving.reserve _ _ _ reserved
      rw [if_pos (by omega)]
      refine ⟨?_, covered⟩
      have sum : byteSize (s.storages codeId) + (byteSize storage - byteSize (s.storages codeId)) =
        byteSize storage := by omega
      simp [book, Book.play, size_update, sum]

end Book

end KontractsProof.Pallet
