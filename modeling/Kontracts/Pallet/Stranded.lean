import Kontracts.Pallet.Solvency

namespace KontractsModel.Pallet

section Codes

variable {Id Account : Type}

def Extrinsic.Installs (cfg : Config Id) (codeId : Id) (x : Extrinsic cfg.limits Id Account) : Prop :=
  match x.origin, x.call with
  | .signed _, .uploadCode code | .root, .updateCode _ code => cfg.hashingAlgorith code.1 = codeId
  | _, _ => False

def Extrinsic.Removes {limits : Limits} (codeId : Id) (x : Extrinsic limits Id Account) : Prop :=
  match x.origin, x.call with
  | .root, .deleteCode oldCodeId | .root, .updateCode oldCodeId _ => oldCodeId = codeId
  | _, _ => False

end Codes

end KontractsModel.Pallet

namespace KontractsProof.Pallet

open Scale KontractsModel KontractsModel.Executor KontractsModel.Pallet

theorem removal_executes_nothing {limits : Limits} {Id Account : Type} {x : Extrinsic limits Id Account}
    {codeId : Id} (removes : x.Removes codeId) : x.call.executedId ≠ some codeId := by
  obtain ⟨block, origin, call⟩ := x
  cases call with
  | executeCode => cases origin <;> exact absurd removes id
  | uploadCode | deleteCode | updateCode => exact Option.some_ne_none codeId ∘ Eq.symm

section Codes

variable {Id Account : Type} [DecidableEq Id] [DecidableEq Account] {node : Node} {cfg : Config Id}
  {s : State cfg.limits Id Account} {x : Extrinsic cfg.limits Id Account} {codeId : Id}

theorem failed_neither (codeId : Id) {abort : Abort} (failed : x.run node cfg s = .error abort) :
    ¬ x.Installs cfg codeId ∧ ¬ x.Removes codeId := by
  obtain ⟨block, origin, call⟩ := x
  cases call with
  | uploadCode code =>
    cases origin with
    | signed who => cases failed
    | root | none => exact ⟨id, id⟩
  | executeCode => cases origin <;> exact ⟨id, id⟩
  | deleteCode | updateCode =>
    cases origin with
    | root => cases failed
    | signed | none => exact ⟨id, id⟩

theorem codes_none_iff :
    (step node cfg s x).codes codeId = none ↔
      ¬ x.Installs cfg codeId ∧ (s.codes codeId = none ∨ x.Removes codeId) := by
  have taken := dispatched node s x
  generalize (dispatch node cfg s x).1 = result at taken
  generalize step node cfg s x = s' at taken ⊢
  cases taken with
  | aborted failed =>
    obtain ⟨notInstalled, notRemoved⟩ := failed_neither codeId failed
    simp [notInstalled, notRemoved]
  | uploaded block who code =>
    simp only [State.depositEvent_codes, State.setCode, Extrinsic.Installs, Extrinsic.Removes, or_false]
    by_cases same : codeId = cfg.hashingAlgorith code.1
    · simp [same]
    · simp [Function.update_of_ne same, Ne.symm same]
  | exceeded | committed => simp [Extrinsic.Installs, Extrinsic.Removes]
  | deleted block old =>
    simp only [State.depositEvent_codes, State.setCode, Extrinsic.Installs, Extrinsic.Removes]
    by_cases same : codeId = old
    · simp [same]
    · simp [Function.update_of_ne same, Ne.symm same]
  | upgraded block old code =>
    simp only [State.depositEvent_codes, State.setCode, Extrinsic.Installs, Extrinsic.Removes]
    by_cases same : codeId = cfg.hashingAlgorith code.1
    · simp [same]
    · by_cases named : codeId = old
      · subst named
        simp [Function.update_of_ne same, Ne.symm same]
      · simp [Function.update_of_ne same, Function.update_of_ne named, Ne.symm same, Ne.symm named]

theorem storages_without_code (absent : s.codes codeId = none) :
    (step node cfg s x).storages codeId = s.storages codeId := by
  rcases storages_step node s x codeId with same | ⟨_, _, _, _, _, _, _, -, executed⟩
  · exact same
  · obtain ⟨binary, _, _, _, _, present, -⟩ := execution_ok executed
    cases absent.symm.trans present

end Codes

section Runs

variable {Id Account : Type} [DecidableEq Id] [DecidableEq Account] {node : Node} {cfg : Config Id}
  {s : State cfg.limits Id Account} {xs : List (Extrinsic cfg.limits Id Account)} {codeId : Id}

theorem storages_kept_without_code (node : Node) (absent : s.codes codeId = none)
    (uninstalled : ∀ x ∈ xs, ¬ x.Installs cfg codeId) :
    (Runs.exec (step node cfg) s xs).storages codeId = s.storages codeId := by
  have never : Runs.Always (step node cfg) (fun _ x => ¬ x.Installs cfg codeId) s xs :=
    Runs.always_of_forall fun _ x member => uninstalled x member
  have kept := Runs.exec_invariant (fun s' => s'.codes codeId = none ∧ s'.storages codeId = s.storages codeId)
    (fun _ _ unsent both => ⟨codes_none_iff.mpr ⟨unsent, .inl both.1⟩,
      (storages_without_code both.1).trans both.2⟩) never ⟨absent, rfl⟩
  exact kept.2

theorem uninstalled_of_absent {s : State cfg.limits Id Account}
    (absent : Runs.Always (step node cfg) (fun s x => ¬ ((step node cfg s x).codes codeId).isSome) s xs) :
    ∀ x ∈ xs, ¬ x.Installs cfg codeId := by
  have never : Runs.Always (step node cfg) (fun _ x => ¬ x.Installs cfg codeId) s xs :=
    absent.mono fun _ _ gone => (codes_none_iff.mp (Option.not_isSome_iff_eq_none.mp gone)).1
  exact fun _ member => never.forall_mem member

/-- A stored kontract has its code, unless root removed that code and nobody brought it back. The
    storage is then still what it was. -/
theorem stored_present_or_removed (empty : ∀ id, s.storages id = emptyStorage cfg.limits)
    (stored : (Runs.exec (step node cfg) s xs).storages codeId ≠ emptyStorage cfg.limits) :
    ((Runs.exec (step node cfg) s xs).codes codeId).isSome ∨
      ∃ front x back, xs = front ++ x :: back ∧ ((Runs.exec (step node cfg) s front).codes codeId).isSome ∧
        x.Removes codeId ∧ (∀ y ∈ x :: back, ¬ y.Installs cfg codeId) ∧
        (Runs.exec (step node cfg) s xs).storages codeId =
          (Runs.exec (step node cfg) s front).storages codeId := by
  by_cases present : ((Runs.exec (step node cfg) s xs).codes codeId).isSome
  · exact .inl present
  · rcases Runs.last_break (fun s' : State cfg.limits Id Account => (s'.codes codeId).isSome) present with
      ⟨absent, never⟩ | ⟨front, x, back, rfl, before, after⟩
    · have kept := storages_kept_without_code node (Option.not_isSome_iff_eq_none.mp absent)
        (uninstalled_of_absent never)
      exact absurd (kept.trans (empty codeId)) stored
    · have uninstalled := uninstalled_of_absent after
      have removed := codes_none_iff.mp (Option.not_isSome_iff_eq_none.mp after.1)
      have removes : x.Removes codeId := by
        rcases removed.2 with absent | removes
        · rw [absent] at before
          cases before
        · exact removes
      refine .inr ⟨front, x, back, rfl, before, removes, uninstalled, ?_⟩
      rw [Runs.exec_append, Runs.exec_cons, storages_kept_without_code node
        (Option.not_isSome_iff_eq_none.mp after.1) fun y member => uninstalled y (List.mem_cons_of_mem _ member)]
      exact storages_unchanged (removal_executes_nothing removes)

def deletedRun : List (Extrinsic localConfig.limits Bytes Signer) :=
  [uploading ⟨storingCode, storingCode_fits⟩, executing .alice storingCode 34, ⟨1, .root, .deleteCode storingCode⟩]

theorem deleted_stored : (Runs.exec (step localNode localConfig) (genesis 34) deletedRun).storages storingCode ≠
    emptyStorage localConfig.limits := by
  intro emptied
  have size : byteSize ((Runs.exec (step localNode localConfig) (genesis 34) deletedRun).storages storingCode) =
      34 := by decide
  rw [emptied] at size
  cases size

theorem deleted_present_or_removed :
    ((Runs.exec (step localNode localConfig) (genesis 34) deletedRun).codes storingCode).isSome ∨
      ∃ front x back, deletedRun = front ++ x :: back ∧
        ((Runs.exec (step localNode localConfig) (genesis 34) front).codes storingCode).isSome ∧
        x.Removes storingCode ∧ (∀ y ∈ x :: back, ¬ y.Installs localConfig storingCode) ∧
        (Runs.exec (step localNode localConfig) (genesis 34) deletedRun).storages storingCode =
          (Runs.exec (step localNode localConfig) (genesis 34) front).storages storingCode :=
  stored_present_or_removed (fun _ => rfl) deleted_stored

theorem deleted_storage_stranded :
    (Runs.exec (step localNode localConfig) (genesis 34) deletedRun).storages storingCode ≠
        emptyStorage localConfig.limits ∧
      (Runs.exec (step localNode localConfig) (genesis 34) deletedRun).codes storingCode = none ∧
      ((Runs.exec (step localNode localConfig) (genesis 34) deletedRun).accounts .alice).reserved = 34 :=
  ⟨deleted_stored, by decide, by decide⟩

end Runs

end KontractsProof.Pallet
