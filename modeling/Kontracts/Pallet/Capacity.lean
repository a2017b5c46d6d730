import Kontracts.Pallet.EventLog
import Mathlib.Data.Set.Card

namespace KontractsModel.Pallet

open KontractsModel.Executor

section Counts

variable {Id Account : Type} (cfg : Config Id)

noncomputable def numberOfKontracts {limits : Limits} (s : State limits Id Account) : ℕ∞ := (present s).encard

/-- The call adds an id to the kontracts: a new one, and without taking another one out. -/
def AddsKontract (s : State cfg.limits Id Account) (x : Extrinsic cfg.limits Id Account) : Prop :=
  match x.origin, x.call with
  | .signed _, .uploadCode code => cfg.hashingAlgorith code.1 ∉ present s
  | .root, .updateCode oldCodeId code => cfg.hashingAlgorith code.1 ∉ present s ∧ oldCodeId ∉ present s
  | _, _ => False

variable [DecidableEq Id] [DecidableEq Account] (node : Node)

def RefusesExcess (s : State cfg.limits Id Account) (x : Extrinsic cfg.limits Id Account) : Prop :=
  ∀ who code, x.origin = .signed who → x.call = .uploadCode code → cfg.hashingAlgorith code.1 ∉ present s →
    cfg.limits.maxNumberContracts.toNat ≤ numberOfKontracts s →
    (∃ abort, (dispatch node cfg s x).1 = .error abort) ∧ step node cfg s x = s

end Counts

end KontractsModel.Pallet

namespace KontractsProof.Pallet

open Scale KontractsModel KontractsModel.Executor KontractsModel.Pallet

theorem count_empty {limits : Limits} {Id Account : Type} {s : State limits Id Account}
    (empty : ∀ codeId, s.codes codeId = none) : numberOfKontracts s = 0 := by
  have nobody : present s = ∅ := by
    ext codeId
    simp [present, empty]
  rw [numberOfKontracts, nobody, Set.encard_empty]

section Steps

variable {Id Account : Type} [DecidableEq Id] [DecidableEq Account] {node : Node} {cfg : Config Id}
  {s : State cfg.limits Id Account} {x : Extrinsic cfg.limits Id Account}

theorem count_added (adds : AddsKontract cfg s x) :
    numberOfKontracts (step node cfg s x) = numberOfKontracts s + 1 := by
  obtain ⟨block, origin, call⟩ := x
  unfold numberOfKontracts
  rw [present_step]
  cases call with
  | uploadCode code =>
    cases origin with
    | signed who => exact Set.encard_insert_of_notMem adds
    | root | none => exact absurd adds id
  | updateCode old code =>
    cases origin with
    | root =>
      have apart : present s \ {old} = present s := Set.sdiff_singleton_eq_self adds.2
      change (insert _ (present s \ {old})).encard = _
      rw [apart, Set.encard_insert_of_notMem adds.1]
    | signed | none => exact absurd adds id
  | executeCode | deleteCode => cases origin <;> exact absurd adds id

theorem count_kept (still : ¬ AddsKontract cfg s x) :
    numberOfKontracts (step node cfg s x) ≤ numberOfKontracts s := by
  have taken := dispatched node s x
  unfold numberOfKontracts
  rw [present_step]
  generalize (dispatch node cfg s x).1 = result at taken ⊢
  generalize step node cfg s x = s' at taken
  cases taken with
  | aborted | exceeded | committed => exact le_refl _
  | uploaded block who code =>
    have held : cfg.hashingAlgorith code.1 ∈ present s := not_not.mp still
    simp only [observe, Set.insert_eq_of_mem held, le_refl]
  | deleted => exact Set.encard_le_encard Set.sdiff_subset
  | upgraded block old code =>
    simp only [observe]
    by_cases held : cfg.hashingAlgorith code.1 ∈ present s
    · exact Set.encard_le_encard (Set.insert_subset held Set.sdiff_subset)
    · by_cases named : old ∈ present s
      · exact (Set.encard_exchange held named).le
      · exact absurd ⟨held, named⟩ still

theorem count_step_iff (within : numberOfKontracts s ≤ cfg.limits.maxNumberContracts.toNat) :
    numberOfKontracts (step node cfg s x) ≤ cfg.limits.maxNumberContracts.toNat ↔
      (AddsKontract cfg s x → numberOfKontracts s < cfg.limits.maxNumberContracts.toNat) := by
  by_cases adds : AddsKontract cfg s x
  · rw [count_added adds, ENat.add_one_le_iff (ne_top_of_le_ne_top (ENat.natCast_ne_top _) within)]
    exact ⟨fun below _ => below, fun below => below adds⟩
  · exact iff_of_true ((count_kept adds).trans within) fun adds' => absurd adds' adds

theorem refuses_of_room (room : AddsKontract cfg s x → numberOfKontracts s < cfg.limits.maxNumberContracts.toNat) :
    RefusesExcess cfg node s x := by
  obtain ⟨block, origin, call⟩ := x
  rintro who code rfl rfl absent full
  exact absurd full (not_le_of_gt (room absent))

end Steps

section Runs

variable {Id Account : Type} [DecidableEq Id] [DecidableEq Account] {node : Node} {cfg : Config Id}
  {s₀ : State cfg.limits Id Account} {xs : List (Extrinsic cfg.limits Id Account)}

/-- The number of kontracts is bounded all along a run exactly where nobody adds one beyond the bound. -/
theorem kontracts_bounded_iff (empty : ∀ codeId, s₀.codes codeId = none) :
    ((∀ front back, xs = front ++ back →
          numberOfKontracts (Runs.exec (step node cfg) s₀ front) ≤ cfg.limits.maxNumberContracts.toNat) ∧
        ∀ front x back, xs = front ++ x :: back → RefusesExcess cfg node (Runs.exec (step node cfg) s₀ front) x) ↔
      Runs.Always (step node cfg)
        (fun s x => AddsKontract cfg s x → numberOfKontracts s < cfg.limits.maxNumberContracts.toNat) s₀ xs := by
  have start : numberOfKontracts s₀ ≤ cfg.limits.maxNumberContracts.toNat := by
    rw [count_empty empty]
    exact zero_le
  have each : ∀ (s : State cfg.limits Id Account) x, numberOfKontracts s ≤ cfg.limits.maxNumberContracts.toNat →
      (numberOfKontracts (step node cfg s x) ≤ cfg.limits.maxNumberContracts.toNat ↔
        (AddsKontract cfg s x → numberOfKontracts s < cfg.limits.maxNumberContracts.toNat)) :=
    fun _ _ within => count_step_iff within
  rw [Runs.prefixes_iff_always each start]
  refine and_iff_left_of_imp ?_
  rintro always front x back rfl
  exact refuses_of_room always.split

def soleConfig : Config Bytes := { localConfig with limits := { runtimeLimits with maxNumberContracts := 1 } }

def firstUpload : Extrinsic soleConfig.limits Bytes Signer :=
  ⟨1, .signed .alice, .uploadCode ⟨storingCode, storingCode_fits⟩⟩

def secondUpload : Extrinsic soleConfig.limits Bytes Signer :=
  ⟨1, .signed .alice, .uploadCode ⟨paddedStoringCode, paddedStoringCode_fits⟩⟩

theorem first_upload_bounded :
    numberOfKontracts (Runs.exec (step localNode soleConfig) (freshState soleConfig 0) [firstUpload]) ≤
      soleConfig.limits.maxNumberContracts.toNat := by
  have room : numberOfKontracts (freshState soleConfig 0) < soleConfig.limits.maxNumberContracts.toNat := by
    rw [count_empty fun _ => rfl]
    decide
  have always : Runs.Always (step localNode soleConfig)
      (fun s x => AddsKontract soleConfig s x → numberOfKontracts s < soleConfig.limits.maxNumberContracts.toNat)
      (freshState soleConfig 0) [firstUpload] :=
    ⟨fun _ => room, True.intro⟩
  exact ((kontracts_bounded_iff fun _ => rfl).mpr always).1 [firstUpload] [] rfl

theorem second_upload_accepted :
    ¬ numberOfKontracts (Runs.exec (step localNode soleConfig) (freshState soleConfig 0) [firstUpload, secondUpload]) ≤
      soleConfig.limits.maxNumberContracts.toNat := by
  have both : {storingCode, paddedStoringCode} ⊆
      present (Runs.exec (step localNode soleConfig) (freshState soleConfig 0) [firstUpload, secondUpload]) := by
    rintro codeId (rfl | rfl)
    all_goals
      simp only [present, Set.mem_ofPred_eq]
      decide
  have two := Set.encard_le_encard both
  rw [Set.encard_pair (by decide)] at two
  exact fun one => absurd (two.trans one) (by decide)

end Runs

end KontractsProof.Pallet
