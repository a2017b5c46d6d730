import Kontracts.Library.Traces
import Kontracts.Pallet.EventLog

namespace KontractsModel.Pallet

open KontractsModel.Executor

inductive Place (Id Account : Type)
  | kontract (codeId : Id)
  | account (who : Account)
deriving DecidableEq

abbrev Place.Holds {Id Account : Type} (limits : Limits) : Place Id Account → Type
  | .kontract _ => Option (Code limits) × KontractStorage limits
  | .account _ => AccountData

def State.holds {limits : Limits} {Id Account : Type} (s : State limits Id Account) :
    (place : Place Id Account) → place.Holds limits
  | .kontract codeId => (s.codes codeId, s.storages codeId)
  | .account who => s.accounts who

def Extrinsic.places {Id Account : Type} (cfg : Config Id) (x : Extrinsic cfg.limits Id Account) :
    List (Place Id Account) :=
  match x.origin, x.call with
  | .signed _, .uploadCode code => [.kontract (cfg.hashingAlgorith code.1)]
  | .signed who, .executeCode codeId _ _ _ _ => [.kontract codeId, .account who]
  | .root, .deleteCode codeId => [.kontract codeId]
  | .root, .updateCode oldCodeId code => [.kontract oldCodeId, .kontract (cfg.hashingAlgorith code.1)]
  | _, _ => []

end KontractsModel.Pallet

namespace KontractsProof.Pallet

open Scale Traces KontractsModel KontractsModel.Executor KontractsModel.Pallet

section States

variable {limits : Limits} {Id Account : Type}

theorem holds_depositEvent (s : State limits Id Account) (block : ℕ) (event : Event Id Account)
    (place : Place Id Account) : (s.depositEvent block event).holds place = s.holds place := by
  cases place with
  | kontract codeId => simp only [State.holds, State.depositEvent_codes, State.depositEvent_storages]
  | account who => simp only [State.holds, State.depositEvent_accounts]

theorem holds_setCode [DecidableEq Id] {s s' : State limits Id Account} {oldId codeId : Id}
    (code : Option (Code limits)) (same : s.holds (.kontract oldId) = s'.holds (.kontract oldId)) :
    (s.setCode codeId code).holds (.kontract oldId) = (s'.setCode codeId code).holds (.kontract oldId) := by
  obtain ⟨present, stored⟩ := Prod.mk.inj same
  simp only [State.holds, State.setCode, Function.update_apply, present, stored]

end States

section Places

variable {Id Account : Type} [DecidableEq Id] [DecidableEq Account] {node : Node} {cfg : Config Id}

theorem places_frame (node : Node) (s : State cfg.limits Id Account) (x : Extrinsic cfg.limits Id Account)
    (place : Place Id Account) (untouched : place ∉ x.places cfg) :
    (step node cfg s x).holds place = s.holds place := by
  have taken := dispatched node s x
  generalize (dispatch node cfg s x).1 = result at taken
  generalize step node cfg s x = s' at taken ⊢
  cases taken with
  | aborted => rfl
  | uploaded | exceeded | committed | deleted | upgraded =>
    simp only [Extrinsic.places, List.mem_cons, List.not_mem_nil, or_false, not_or] at untouched
    cases place with
    | kontract codeId =>
      simp_all [State.holds, State.setCode, State.setStorage, Function.update_of_ne]
    | account who =>
      simp_all [State.holds, State.setAccount, Function.update_of_ne]

theorem places_agree (node : Node) (s s' : State cfg.limits Id Account) (x : Extrinsic cfg.limits Id Account)
    (agree : ∀ place ∈ x.places cfg, s.holds place = s'.holds place) :
    (dispatch node cfg s x).1 = (dispatch node cfg s' x).1 ∧
      ∀ place ∈ x.places cfg, (step node cfg s x).holds place = (step node cfg s' x).holds place := by
  obtain ⟨block, origin, call⟩ := x
  cases call with
  | uploadCode code =>
    cases origin with
    | root | none => exact ⟨rfl, fun _ member => by cases member⟩
    | signed who =>
      refine ⟨rfl, fun place member => ?_⟩
      obtain rfl := List.mem_singleton.mp member
      change (State.depositEvent _ _ _).holds _ = (State.depositEvent _ _ _).holds _
      rw [holds_depositEvent, holds_depositEvent]
      exact holds_setCode (some code) (agree _ member)
  | executeCode codeId expected fuel reads writes =>
    cases origin with
    | root | none => exact ⟨rfl, fun _ member => by cases member⟩
    | signed who =>
      have kontract := Prod.mk.inj (agree (.kontract codeId) List.mem_cons_self)
      have account : s.accounts who = s'.accounts who :=
        agree (.account who) (List.mem_cons_of_mem _ List.mem_cons_self)
      have effect := execute_effect node block who codeId expected fuel reads writes s
      have effect' := execute_effect node block who codeId expected fuel reads writes s'
      rw [kontract.1, kontract.2, account] at effect
      refine ⟨effect.result.trans effect'.result.symm, fun place member => ?_⟩
      rcases List.mem_cons.mp member with rfl | member
      · simp only [State.holds, effect.codes, effect.storages, effect'.codes, effect'.storages, Function.update_self,
          kontract.1, kontract.2]
      · obtain rfl := List.mem_singleton.mp member
        simp only [State.holds, effect.accounts, effect'.accounts, Function.update_self, account]
  | deleteCode codeId =>
    cases origin with
    | signed | none => exact ⟨rfl, fun _ member => by cases member⟩
    | root =>
      refine ⟨rfl, fun place member => ?_⟩
      obtain rfl := List.mem_singleton.mp member
      change (State.depositEvent _ _ _).holds _ = (State.depositEvent _ _ _).holds _
      rw [holds_depositEvent, holds_depositEvent]
      exact holds_setCode none (agree _ member)
  | updateCode oldCodeId code =>
    cases origin with
    | signed | none => exact ⟨rfl, fun _ member => by cases member⟩
    | root =>
      refine ⟨rfl, fun place member => ?_⟩
      have kontracts : ∃ codeId, place = .kontract codeId := by
        rcases List.mem_cons.mp member with rfl | member
        · exact ⟨_, rfl⟩
        · exact ⟨_, List.mem_singleton.mp member⟩
      obtain ⟨codeId, rfl⟩ := kontracts
      change (State.depositEvent _ _ _).holds _ = (State.depositEvent _ _ _).holds _
      rw [holds_depositEvent, holds_depositEvent]
      exact holds_setCode (some code) (holds_setCode none (agree _ member))

end Places

section Runs

variable {Id Account : Type} [DecidableEq Id] [DecidableEq Account] {node : Node} {cfg : Config Id}

theorem extrinsics_local (node : Node) (cfg : Config Id) :
    Local (step node cfg) (fun s x => (dispatch node cfg s x).1) (fun (s : State cfg.limits Id Account) => s.holds)
      (Extrinsic.places cfg) where
  frame := places_frame node
  reads s s' x agree := (places_agree node s s' x agree).1
  writes s s' x agree := (places_agree node s s' x agree).2

theorem events_run (node : Node) (s : State cfg.limits Id Account) (xs : List (Extrinsic cfg.limits Id Account)) :
    (Runs.exec (step node cfg) s xs).events = s.events ++
      (answers (step node cfg) (fun s x => (dispatch node cfg s x).1) s xs).flatMap
        (fun answered => deposited answered.1.block answered.2) := by
  induction xs generalizing s with
  | nil => exact (List.append_nil _).symm
  | cons x xs ih =>
    rw [Runs.exec_cons, ih, events_step, answers, Runs.collect, List.flatMap_append, List.append_assoc]
    simp only [List.flatMap_cons, List.flatMap_nil, List.append_nil]

/-- Extrinsics may be reordered in any way that keeps the order of those that touch the same kontract and of
    those that one account signs to execute: each is answered the same, and the state is the same up to
    the order of events. -/
theorem order_independent {xs ys : List (Extrinsic cfg.limits Id Account)} (perm : xs.Perm ys)
    (same : ∀ place : Place Id Account,
      seenAt (Extrinsic.places cfg) place xs = seenAt (Extrinsic.places cfg) place ys)
    (s : State cfg.limits Id Account) :
    SameUpToEventOrder (Runs.exec (step node cfg) s xs) (Runs.exec (step node cfg) s ys) ∧
      (answers (step node cfg) (fun s x => (dispatch node cfg s x).1) s xs).Perm
        (answers (step node cfg) (fun s x => (dispatch node cfg s x).1) s ys) := by
  obtain ⟨values, answered⟩ := (extrinsics_local node cfg).reorders (reorders_of_seenAt perm same) s
  refine ⟨⟨?_, ?_, ?_, ?_⟩, answered⟩
  · funext codeId
    exact congrArg Prod.fst (values (.kontract codeId))
  · funext codeId
    exact congrArg Prod.snd (values (.kontract codeId))
  · funext who
    exact values (.account who)
  · rw [events_run, events_run]
    exact List.Perm.append_left _ (answered.flatMap_right _)

def interleavedRun : List (Extrinsic localConfig.limits Bytes Signer) :=
  [executing .alice storingCode 34, executing .bob paddedStoringCode 0, executing .alice storingCode 0]

def separatedRun : List (Extrinsic localConfig.limits Bytes Signer) :=
  [executing .bob paddedStoringCode 0, executing .alice storingCode 34, executing .alice storingCode 0]

theorem interleaved_order_independent :
    SameUpToEventOrder (Runs.exec (step localNode localConfig) uploadedState interleavedRun)
      (Runs.exec (step localNode localConfig) uploadedState separatedRun) := by
  have apart : ∀ place ∈ (executing .alice storingCode 34).places localConfig,
      place ∉ (executing .bob paddedStoringCode 0).places localConfig := by decide
  have same : ∀ place : Place Bytes Signer, seenAt (Extrinsic.places localConfig) place interleavedRun =
      seenAt (Extrinsic.places localConfig) place separatedRun := by
    intro place
    by_cases alice : place ∈ (executing .alice storingCode 34).places localConfig
    · rw [interleavedRun, seenAt_touching alice, seenAt_apart (apart place alice), separatedRun,
        seenAt_apart (apart place alice), seenAt_touching alice]
    · by_cases bob : place ∈ (executing .bob paddedStoringCode 0).places localConfig
      · rw [interleavedRun, seenAt_apart alice, separatedRun, seenAt_touching bob, seenAt_touching bob,
          seenAt_apart alice]
      · rw [interleavedRun, seenAt_apart alice, seenAt_apart bob, separatedRun, seenAt_apart bob, seenAt_apart alice]
  exact (order_independent (List.Perm.swap _ _ _) same uploadedState).1

end Runs

end KontractsProof.Pallet
