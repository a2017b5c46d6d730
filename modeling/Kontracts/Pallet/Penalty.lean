import Kontracts.Pallet.Isolation
import Kontracts.Pallet.Requests

namespace KontractsModel.Pallet

open KontractsModel.Executor

variable {Id Account : Type} [DecidableEq Id] [DecidableEq Account] (node : Node) (cfg : Config Id)
  (s : State cfg.limits Id Account) (block : ℕ) (who : Account) (codeId : Id) (expected : Int32)
  (fuel reads writes : UInt32)

def ExactPenalty : Prop :=
  ∀ final, Leaves node cfg (s.codes codeId) (s.storages codeId) fuel reads writes final →
    let x := executes cfg block who codeId fuel reads writes expected
    let variation := ((mapSize final : ℤ) - byteSize (s.storages codeId)).natAbs
    (dispatch node cfg s x).1 = .ok (.exceededStorage codeId who) →
      asked node cfg s x = some (.slash variation) ∧
        (step node cfg s x).accounts who = cfg.currency.slash (s.accounts who) variation ∧
        (step node cfg s x).storages codeId = s.storages codeId

def FreesLessThanDeclared : Prop :=
  ∃ final, Leaves node cfg (s.codes codeId) (s.storages codeId) fuel reads writes final ∧
    expected.toInt < (mapSize final : ℤ) - byteSize (s.storages codeId) ∧
    mapSize final < byteSize (s.storages codeId)

end KontractsModel.Pallet

namespace KontractsProof.Pallet

open Scale KontractsModel KontractsModel.Executor KontractsModel.Pallet

section Penalties

variable {Id Account : Type} [DecidableEq Id] [DecidableEq Account] {node : Node} {cfg : Config Id}
  {s : State cfg.limits Id Account} {block : ℕ} {who : Account} {codeId : Id} {expected : Int32}
  {fuel reads writes : UInt32}

theorem executes_effect (node : Node) (s : State cfg.limits Id Account) (block : ℕ) (who : Account) (codeId : Id)
    (fuel reads writes : UInt32) (expected : Int32) :
    Effect node cfg block who codeId
      (execution node cfg (s.codes codeId) (s.storages codeId) (s.accounts who) expected fuel reads writes) s
      (dispatch node cfg s (executes cfg block who codeId fuel reads writes expected)).1
      (step node cfg s (executes cfg block who codeId fuel reads writes expected)) :=
  execute_effect node block who codeId expected fuel reads writes s

/-- The penalty is the size of the change unless less was freed than declared. -/
theorem penalty_exact_iff (smallBefore : byteSize (s.storages codeId) < 2 ^ 31)
    (smallAfter : ∀ final, Leaves node cfg (s.codes codeId) (s.storages codeId) fuel reads writes final →
      mapSize final < 2 ^ 31) :
    ExactPenalty node cfg s block who codeId expected fuel reads writes ↔
      ¬ FreesLessThanDeclared node cfg s codeId expected fuel reads writes := by
  have effect := executes_effect node s block who codeId fuel reads writes expected
  constructor
  · rintro exactly ⟨final, leaves, beyond, freed⟩
    obtain ⟨raw, x, wanted, -, changed, -, requested, asks, ran⟩ :=
      execution_leaves leaves smallBefore (smallAfter final leaves) (s.accounts who) expected
    -- the storage shrank by less than declared, so the slashed amount is a wrapped negative number
    cases asks with
    | nothing | unreserve | reserve => omega
    | slashGrown more => omega
    | slashFreed less =>
      have exceeded := effect.exceeded_iff.mpr ⟨_, ran⟩
      obtain ⟨slashed, -, -⟩ := exactly final leaves exceeded
      have amount := (asked_eq changed requested).symm.trans slashed
      simp only [Option.some.injEq, Request.slash.injEq] at amount
      omega
  · intro enough final leaves x variation exceeded
    obtain ⟨raw, difference, wanted, -, changed, -, requested, asks, ran⟩ :=
      execution_leaves leaves smallBefore (smallAfter final leaves) (s.accounts who) expected
    obtain ⟨account, ended⟩ := effect.exceeded_iff.mp exceeded
    obtain ⟨amount, rfl, rfl⟩ := granted_exceeded.mp (ran.symm.trans ended)
    have grown : byteSize (s.storages codeId) < mapSize final := by
      cases asks with
      | slashGrown more => exact more
      | slashFreed less beyond => exact absurd ⟨final, leaves, beyond, less⟩ enough
    obtain rfl := (asks.slash_iff smallBefore).mpr grown
    refine ⟨asked_eq changed requested, ?_, ?_⟩
    · rw [effect.accounts, ended, Function.update_self]
      rfl
    · rw [effect.storages, ended, Function.update_self]
      rfl

end Penalties

section Toggled

def togglingState : State localConfig.limits Bytes Signer :=
  Runs.exec (step localNode localConfig) (genesis 35) [uploading ⟨togglingCode, togglingCode_fits⟩]

def toggledState : State localConfig.limits Bytes Signer :=
  step localNode localConfig togglingState (executing .alice togglingCode 35)

theorem toggling_size {final : Executor.KontractStorage}
    (leaves : Leaves localNode localConfig (togglingState.codes togglingCode) (togglingState.storages togglingCode)
      10 10 10 final) : mapSize final < 2 ^ 31 := by
  have present : togglingState.codes togglingCode = some ⟨togglingCode, togglingCode_fits⟩ := by decide
  have ran : Executor.executeCode localNode togglingCode (encodeStorage (togglingState.storages togglingCode))
      10 10 10 = .ok ([4, 128] ++ List.replicate 32 0 ++ [4, 0]) := by
    decide
  rw [present] at leaves
  have short := leaves_size_le leaves ran
  exact Nat.lt_of_le_of_lt short (by decide)

theorem toggling_penalty_exact :
    ExactPenalty localNode localConfig togglingState 1 .alice togglingCode 0 10 10 10 :=
  (penalty_exact_iff (by decide) fun _ => toggling_size).mpr
    fun ⟨_, _, _, freed⟩ => absurd freed (Nat.not_lt_of_le (Nat.zero_le _))

theorem freed_penalty_wraps :
    ¬ ExactPenalty localNode localConfig toggledState 1 .alice togglingCode (-36) 10 10 10 := by
  intro exactly
  have leaves : Leaves localNode localConfig (toggledState.codes togglingCode) (toggledState.storages togglingCode)
      10 10 10 BTreeMap.empty :=
    ⟨⟨togglingCode, togglingCode_fits⟩, [0], by decide, by decide, by decide⟩
  obtain ⟨slashed, -, -⟩ := exactly _ leaves (by decide)
  have wrapped : asked localNode localConfig toggledState (executing .alice togglingCode (-36)) =
      some (.slash (2 ^ 32 - 35)) := by
    decide
  have different := wrapped.symm.trans slashed
  revert different
  decide

end Toggled

end KontractsProof.Pallet
