import Kontracts.Pallet.Isolation
import Kontracts.Pallet.Stranded

namespace KontractsModel.Pallet

section Observer

variable {Id Account : Type}

/-- What an observer of the events takes the set of kontracts to be, event by event. -/
def observe (ids : Set Id) : Event Id Account → Set Id
  | .newCodeUploaded codeId _ => insert codeId ids
  | .codeDeleted codeId => ids \ {codeId}
  | .codeUpgraded oldCodeId newCodeId => insert newCodeId (ids \ {oldCodeId})
  | .codeExecuted _ _ | .exceededStorage _ _ => ids

def observed (log : List (Event Id Account)) : Set Id := log.foldl observe ∅

variable {limits : Limits}

def present (s : State limits Id Account) : Set Id := {codeId | (s.codes codeId).isSome}

def Call.installed : Call limits Id → Option (Code limits)
  | .uploadCode code | .updateCode _ code => some code
  | .executeCode .. | .deleteCode _ => none

def installedBy (xs : List (Extrinsic limits Id Account)) : Set (Code limits) :=
  {code | ∃ x ∈ xs, x.call.installed = some code}

end Observer

end KontractsModel.Pallet

namespace KontractsProof.Pallet

open Scale KontractsModel KontractsModel.Executor KontractsModel.Pallet

section Sets

variable {limits : Limits} {Id Account : Type} [DecidableEq Id] (s : State limits Id Account) (codeId : Id)

theorem present_setCode_some (code : Code limits) :
    present (s.setCode codeId (some code)) = insert codeId (present s) := by
  ext id
  by_cases same : id = codeId
  · simp [present, State.setCode, same]
  · simp [present, State.setCode, same]

theorem present_setCode_none : present (s.setCode codeId none) = present s \ {codeId} := by
  ext id
  by_cases same : id = codeId
  · simp [present, State.setCode, same]
  · simp [present, State.setCode, same]

theorem stored_setCode {installed : Option (Code limits)} {other : Id} {code : Code limits}
    (stored : (s.setCode codeId installed).codes other = some code) :
    other = codeId ∧ installed = some code ∨ s.codes other = some code := by
  simp only [State.setCode, Function.update_apply] at stored
  split at stored
  · rename_i same
    exact .inl ⟨same, stored⟩
  · exact .inr stored

end Sets

theorem present_congr {limits : Limits} {Id Account : Type} {s s' : State limits Id Account}
    (same : s'.codes = s.codes) : present s' = present s := by
  rw [present, same, present]

theorem observed_append {Id Account : Type} (past : List (Event Id Account)) (event : Event Id Account) :
    observed (past ++ [event]) = observe (observed past) event := by
  simp only [observed, List.foldl_append, List.foldl_cons, List.foldl_nil]

section Steps

variable {Id Account : Type} [DecidableEq Id] [DecidableEq Account] {node : Node} {cfg : Config Id}
  {s : State cfg.limits Id Account} {x : Extrinsic cfg.limits Id Account}

theorem present_step :
    present (step node cfg s x) =
      match (dispatch node cfg s x).1 with
      | .ok event => observe (present s) event
      | .error _ => present s := by
  have taken := dispatched node s x
  generalize (dispatch node cfg s x).1 = result at taken ⊢
  generalize step node cfg s x = s' at taken ⊢
  cases taken with
  | aborted => rfl
  | uploaded | deleted | upgraded =>
    rw [present_congr (State.depositEvent_codes _ _ _)]
    simp only [present_setCode_some, present_setCode_none, observe]
  | exceeded | committed => exact present_congr (by simp)

theorem events_step :
    (step node cfg s x).events = s.events ++ deposited x.block (dispatch node cfg s x).1 := by
  have taken := dispatched node s x
  generalize (dispatch node cfg s x).1 = result at taken ⊢
  generalize step node cfg s x = s' at taken ⊢
  cases taken with
  | aborted => exact (List.append_nil _).symm
  | uploaded | exceeded | committed | deleted | upgraded => rw [depositEvent_events]; rfl

theorem stored_step {codeId : Id} {code : Code cfg.limits}
    (stored : (step node cfg s x).codes codeId = some code) :
    s.codes codeId = some code ∨ x.call.installed = some code ∧ cfg.hashingAlgorith code.1 = codeId := by
  have taken := dispatched node s x
  generalize (dispatch node cfg s x).1 = result at taken
  generalize step node cfg s x = s' at taken stored
  cases taken with
  | aborted => exact .inl stored
  | exceeded | committed => left; simpa using stored
  | uploaded =>
    rw [State.depositEvent_codes] at stored
    rcases stored_setCode _ _ stored with ⟨rfl, same⟩ | before
    · cases same
      exact .inr ⟨rfl, rfl⟩
    · exact .inl before
  | deleted =>
    rw [State.depositEvent_codes] at stored
    rcases stored_setCode _ _ stored with ⟨-, same⟩ | before
    · cases same
    · exact .inl before
  | upgraded =>
    rw [State.depositEvent_codes] at stored
    rcases stored_setCode _ _ stored with ⟨rfl, same⟩ | between
    · cases same
      exact .inr ⟨rfl, rfl⟩
    · rcases stored_setCode _ _ between with ⟨-, same⟩ | before
      · cases same
      · exact .inl before

end Steps

section Runs

variable {Id Account : Type} [DecidableEq Id] [DecidableEq Account] {node : Node} {cfg : Config Id}
  {s₀ : State cfg.limits Id Account} {xs : List (Extrinsic cfg.limits Id Account)}

def emitted (node : Node) (cfg : Config Id) (s : State cfg.limits Id Account) (x : Extrinsic cfg.limits Id Account) :
    List (Event Id Account) :=
  deposited x.block (dispatch node cfg s x).1

theorem run_observed (node : Node) (empty : ∀ codeId, s₀.codes codeId = none) (positive : ∀ x ∈ xs, 0 < x.block) :
    let s := Runs.exec (step node cfg) s₀ xs
    let log := Runs.collect (step node cfg) (emitted node cfg) s₀ xs
    s.events = s₀.events ++ log ∧ observed log = present s := by
  have always : Runs.Always (step node cfg) (fun _ x => 0 < x.block) s₀ xs :=
    Runs.always_of_forall fun _ x member => positive x member
  have start : observed ([] : List (Event Id Account)) = present s₀ := by
    ext codeId
    simp [observed, present, empty]
  refine Runs.exec_history (fun past (s : State cfg.limits Id Account) =>
    s.events = s₀.events ++ past ∧ observed past = present s) ?_ always ⟨(List.append_nil _).symm, start⟩
  rintro past s x later ⟨events, seen⟩
  rw [events_step, present_step, emitted, events, List.append_assoc]
  refine ⟨rfl, ?_⟩
  cases (dispatch node cfg s x).1 with
  | error abort => rw [deposited, List.append_nil, seen]
  | ok event => rw [deposited, if_neg (Nat.pos_iff_ne_zero.mp later), observed_append, seen]

theorem run_stored (empty : ∀ codeId, s₀.codes codeId = none) {codeId : Id} {code : Code cfg.limits}
    (stored : (Runs.exec (step node cfg) s₀ xs).codes codeId = some code) :
    code ∈ installedBy xs ∧ cfg.hashingAlgorith code.1 = codeId := by
  have always : Runs.Always (step node cfg) (fun _ x => x ∈ xs) s₀ xs :=
    Runs.always_of_forall fun _ _ member => member
  refine Runs.exec_invariant
    (fun s : State cfg.limits Id Account => ∀ codeId code, s.codes codeId = some code →
      code ∈ installedBy xs ∧ cfg.hashingAlgorith code.1 = codeId) ?_ always ?_ codeId code stored
  · intro s x member holds codeId code stored
    rcases stored_step stored with before | ⟨installed, hashed⟩
    · exact holds codeId code before
    · exact ⟨⟨x, member, installed⟩, hashed⟩
  · intro codeId code stored
    rw [empty] at stored
    cases stored

theorem run_kept {s : State cfg.limits Id Account} {used : Set (Code cfg.limits)} {codeId : Id} {code : Code cfg.limits}
    (collisionFree : Set.InjOn (fun code : Code cfg.limits => cfg.hashingAlgorith code.1) used)
    (installed : ∀ x ∈ xs, ∀ code, x.call.installed = some code → code ∈ used)
    (unremoved : ∀ x ∈ xs, ¬ x.Removes codeId) (member : code ∈ used) (hashed : cfg.hashingAlgorith code.1 = codeId)
    (stored : s.codes codeId = some code) : (Runs.exec (step node cfg) s xs).codes codeId = some code := by
  have always : Runs.Always (step node cfg) (fun _ x => x ∈ xs) s xs :=
    Runs.always_of_forall fun _ _ member => member
  refine Runs.exec_invariant (fun s : State cfg.limits Id Account => s.codes codeId = some code) ?_ always stored
  intro s x submitted before
  have kept : (step node cfg s x).codes codeId ≠ none := by
    intro gone
    rcases (codes_none_iff.mp gone).2 with absent | removes
    · rw [before] at absent
      cases absent
    · exact unremoved x submitted removes
  obtain ⟨code', after⟩ := Option.ne_none_iff_exists'.mp kept
  rcases stored_step after with still | ⟨installs, rehashed⟩
  · rw [after, ← still, before]
  · have same := collisionFree (installed x submitted code' installs) member (rehashed.trans hashed.symm)
    rw [after, same]

/-- The events of a run tell exactly which kontracts there are; each is stored under its hash, and stays
    the same until root removes it by its id. -/
theorem events_determine_codes (empty : ∀ codeId, s₀.codes codeId = none) (positive : ∀ x ∈ xs, 0 < x.block) :
    (∃ log, (Runs.exec (step node cfg) s₀ xs).events = s₀.events ++ log ∧
        observed log = {codeId | ((Runs.exec (step node cfg) s₀ xs).codes codeId).isSome}) ∧
      (∀ codeId code, (Runs.exec (step node cfg) s₀ xs).codes codeId = some code →
        cfg.hashingAlgorith code.1 = codeId) ∧
      (Set.InjOn (fun code : Code cfg.limits => cfg.hashingAlgorith code.1) (installedBy xs) →
        ∀ front back codeId code, xs = front ++ back →
          (Runs.exec (step node cfg) s₀ front).codes codeId = some code → (∀ x ∈ back, ¬ x.Removes codeId) →
          (Runs.exec (step node cfg) s₀ xs).codes codeId = some code) := by
  obtain ⟨events, seen⟩ := run_observed node empty positive
  refine ⟨⟨_, events, seen⟩, fun codeId code stored => (run_stored empty stored).2, ?_⟩
  rintro collisionFree front back codeId code rfl stored unremoved
  obtain ⟨⟨x, member, installs⟩, hashed⟩ := run_stored empty stored
  rw [Runs.exec_append]
  refine run_kept collisionFree (fun y submitted code' installs' => ?_) unremoved ?_ hashed stored
  · exact ⟨y, List.mem_append_right _ submitted, installs'⟩
  · exact ⟨x, List.mem_append_left _ member, installs⟩

def upgradedRun : List (Extrinsic localConfig.limits Bytes Signer) :=
  [uploading ⟨storingCode, storingCode_fits⟩, ⟨1, .root, .updateCode [] ⟨paddedStoringCode, paddedStoringCode_fits⟩⟩,
    ⟨1, .root, .updateCode storingCode ⟨storingCode, storingCode_fits⟩⟩]

theorem upgraded_events :
    ((Runs.exec (step localNode localConfig) (genesis 0) upgradedRun).codes storingCode).isSome ∧
      ∃ log, (Runs.exec (step localNode localConfig) (genesis 0) upgradedRun).events = (genesis 0).events ++ log ∧
        observed log =
          {codeId | ((Runs.exec (step localNode localConfig) (genesis 0) upgradedRun).codes codeId).isSome} :=
  ⟨by decide, (events_determine_codes (fun _ => rfl) (by decide)).1⟩

end Runs

end KontractsProof.Pallet
