import Kontracts.Library.Runs
import Kontracts.Pallet.Settlement

namespace KontractsModel.Pallet

def Call.executedId {limits : Limits} {Id : Type} : Call limits Id → Option Id
  | .executeCode codeId _ _ _ _ => some codeId
  | _ => none

end KontractsModel.Pallet

namespace KontractsProof.Pallet

open KontractsModel KontractsModel.Executor KontractsModel.Pallet

theorem executed_call {limits : Limits} {Id : Type} {call : Call limits Id} {codeId : Id}
    (executes : call.executedId = some codeId) :
    ∃ expected fuel reads writes, call = .executeCode codeId expected fuel reads writes := by
  cases call with
  | executeCode executed expected fuel reads writes =>
    cases executes
    exact ⟨expected, fuel, reads, writes, rfl⟩
  | uploadCode | deleteCode | updateCode => cases executes

section Origins

variable {Account : Type}

theorem ensureSigned_ok {origin : Origin Account} {who : Account} (signed : ensureSigned origin = .ok who) :
    origin = .signed who := by
  cases origin with
  | signed account => exact congrArg _ (Except.ok.inj signed)
  | root | none => cases signed

theorem ensureRoot_ok {origin : Origin Account} {u : Unit} (root : ensureRoot origin = .ok u) :
    origin = .root := by
  cases origin with
  | root => rfl
  | signed account | none => cases root

end Origins

section Steps

variable {Id Account : Type} [DecidableEq Id] [DecidableEq Account] (node : Node) (cfg : Config Id)

/-- Everything one extrinsic can do: the result of its call and the state after it. -/
inductive Dispatched (s : State cfg.limits Id Account) :
    Extrinsic cfg.limits Id Account → Except Abort (Event Id Account) → State cfg.limits Id Account → Prop
  | aborted {x : Extrinsic cfg.limits Id Account} {abort : Abort} (failed : x.run node cfg s = .error abort) :
      Dispatched s x (.error abort) s
  | uploaded (block : ℕ) (who : Account) (code : Code cfg.limits) :
      Dispatched s ⟨block, .signed who, .uploadCode code⟩
        (.ok (.newCodeUploaded (cfg.hashingAlgorith code.1) who))
        ((s.setCode (cfg.hashingAlgorith code.1) (some code)).depositEvent block
          (.newCodeUploaded (cfg.hashingAlgorith code.1) who))
  | exceeded {block : ℕ} {who : Account} {codeId : Id} {expected : Int32} {fuel reads writes : UInt32}
      {account : AccountData}
      (executed : execution node cfg (s.codes codeId) (s.storages codeId) (s.accounts who) expected fuel reads
        writes = .ok (.exceeded account)) :
      Dispatched s ⟨block, .signed who, .executeCode codeId expected fuel reads writes⟩
        (.ok (.exceededStorage codeId who))
        ((s.setAccount who account).depositEvent block (.exceededStorage codeId who))
  | committed {block : ℕ} {who : Account} {codeId : Id} {expected : Int32} {fuel reads writes : UInt32}
      {storage : KontractStorage cfg.limits} {account : AccountData}
      (executed : execution node cfg (s.codes codeId) (s.storages codeId) (s.accounts who) expected fuel reads
        writes = .ok (.committed storage account)) :
      Dispatched s ⟨block, .signed who, .executeCode codeId expected fuel reads writes⟩
        (.ok (.codeExecuted codeId who))
        (((s.setAccount who account).setStorage codeId storage).depositEvent block (.codeExecuted codeId who))
  | deleted (block : ℕ) (codeId : Id) :
      Dispatched s ⟨block, .root, .deleteCode codeId⟩ (.ok (.codeDeleted codeId))
        ((s.setCode codeId none).depositEvent block (.codeDeleted codeId))
  | upgraded (block : ℕ) (oldCodeId : Id) (code : Code cfg.limits) :
      Dispatched s ⟨block, .root, .updateCode oldCodeId code⟩
        (.ok (.codeUpgraded oldCodeId (cfg.hashingAlgorith code.1)))
        (((s.setCode oldCodeId none).setCode (cfg.hashingAlgorith code.1) (some code)).depositEvent block
          (.codeUpgraded oldCodeId (cfg.hashingAlgorith code.1)))

variable {node cfg}

theorem run_dispatched {s s' : State cfg.limits Id Account} {x : Extrinsic cfg.limits Id Account}
    {event : Event Id Account} (ran : x.run node cfg s = .ok (event, s')) :
    Dispatched node cfg s x (.ok event) s' := by
  obtain ⟨block, origin, call⟩ := x
  cases call with
  | uploadCode code =>
    obtain ⟨who, signed, rest⟩ := bind_ok ran
    obtain rfl := ensureSigned_ok signed
    cases rest
    exact .uploaded block who code
  | executeCode codeId expected fuel reads writes =>
    obtain ⟨who, signed, rest⟩ := bind_ok ran
    obtain rfl := ensureSigned_ok signed
    obtain ⟨verdict, executed, rest⟩ := bind_ok rest
    cases verdict with
    | exceeded account =>
      cases rest
      exact .exceeded executed
    | committed storage account =>
      cases rest
      exact .committed executed
  | deleteCode codeId =>
    obtain ⟨_, root, rest⟩ := bind_ok ran
    obtain rfl := ensureRoot_ok root
    cases rest
    exact .deleted block codeId
  | updateCode oldCodeId code =>
    obtain ⟨_, root, rest⟩ := bind_ok ran
    obtain rfl := ensureRoot_ok root
    cases rest
    exact .upgraded block oldCodeId code

theorem dispatched (node : Node) (s : State cfg.limits Id Account) (x : Extrinsic cfg.limits Id Account) :
    Dispatched node cfg s x (dispatch node cfg s x).1 (step node cfg s x) := by
  unfold step dispatch
  cases ran : x.run node cfg s with
  | error abort => exact .aborted ran
  | ok returned => exact run_dispatched ran

theorem storages_step (node : Node) (s : State cfg.limits Id Account) (x : Extrinsic cfg.limits Id Account)
    (codeId : Id) :
    (step node cfg s x).storages codeId = s.storages codeId ∨
      ∃ block who expected fuel reads writes account,
        x = ⟨block, .signed who, .executeCode codeId expected fuel reads writes⟩ ∧
        execution node cfg (s.codes codeId) (s.storages codeId) (s.accounts who) expected fuel reads writes =
          .ok (.committed ((step node cfg s x).storages codeId) account) := by
  have taken := dispatched node s x
  generalize (dispatch node cfg s x).1 = result at taken
  generalize step node cfg s x = s' at taken ⊢
  cases taken with
  | aborted => exact .inl rfl
  | uploaded | exceeded | deleted | upgraded => left; simp
  | @committed block who executedId expected fuel reads writes storage account executed =>
    by_cases same : codeId = executedId
    · subst same
      right
      refine ⟨block, who, expected, fuel, reads, writes, account, rfl, ?_⟩
      simp only [executed, State.depositEvent_storages, State.setStorage, Function.update_self]
    · left
      simp [State.setStorage, Function.update_of_ne same]

theorem storages_unchanged {s : State cfg.limits Id Account} {x : Extrinsic cfg.limits Id Account} {codeId : Id}
    (other : x.call.executedId ≠ some codeId) : (step node cfg s x).storages codeId = s.storages codeId := by
  rcases storages_step node s x codeId with same | ⟨_, _, _, _, _, _, _, rfl, -⟩
  · exact same
  · exact absurd rfl other

theorem storages_unchanged_run {s : State cfg.limits Id Account} {xs : List (Extrinsic cfg.limits Id Account)}
    {codeId : Id} (others : ∀ x ∈ xs, x.call.executedId ≠ some codeId) :
    (Runs.exec (step node cfg) s xs).storages codeId = s.storages codeId :=
  Runs.exec_invariant (fun s' : State cfg.limits Id Account => s'.storages codeId = s.storages codeId)
    (fun _ _ other same => (storages_unchanged other).trans same)
    (Runs.always_of_forall fun _ x member => others x member) rfl

end Steps

end KontractsProof.Pallet
