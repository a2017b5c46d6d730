import Kontracts.Pallet.Deposits

namespace KontractsModel.Pallet

section Effects

variable {limits : Limits} {Id Account : Type}

def storageAfter (before : KontractStorage limits) : Except Abort (Verdict limits) → KontractStorage limits
  | .ok (.committed storage _) => storage
  | _ => before

def accountAfter (before : AccountData) : Except Abort (Verdict limits) → AccountData
  | .ok (.committed _ account) | .ok (.exceeded account) => account
  | .error _ => before

def returned (codeId : Id) (who : Account) : Except Abort (Verdict limits) → Except Abort (Event Id Account)
  | .ok (.committed _ _) => .ok (.codeExecuted codeId who)
  | .ok (.exceeded _) => .ok (.exceededStorage codeId who)
  | .error abort => .error abort

def deposited (block : ℕ) : Except Abort (Event Id Account) → List (Event Id Account)
  | .ok event => if block = 0 then [] else [event]
  | .error _ => []

structure ConfinedTo (codeId : Id) (origin : Origin Account) (s s' : State limits Id Account) : Prop where
  codes : s'.codes = s.codes
  storages : ∀ id, id ≠ codeId → s'.storages id = s.storages id
  accounts : ∀ account, origin ≠ .signed account → s'.accounts account = s.accounts account

structure SameUpToEventOrder (s s' : State limits Id Account) : Prop where
  codes : s.codes = s'.codes
  storages : s.storages = s'.storages
  accounts : s.accounts = s'.accounts
  events : s.events.Perm s'.events

end Effects

end KontractsModel.Pallet

namespace KontractsProof.Pallet

open Scale KontractsModel KontractsModel.Executor KontractsModel.Pallet

section Effects

variable {limits : Limits} {Id Account : Type} (s : State limits Id Account) (block : ℕ)

theorem depositEvent_events (event : Event Id Account) :
    (s.depositEvent block event).events = s.events ++ deposited block (.ok event) := by
  unfold State.depositEvent deposited
  split
  · rw [List.append_nil]
  · rfl

end Effects

section Executions

variable {Id Account : Type} [DecidableEq Id] [DecidableEq Account] {node : Node} {cfg : Config Id}
  (s : State cfg.limits Id Account) {block : ℕ} {who : Account} {codeId : Id}

/-- An execution reads one code, one storage and one account, and all it does follows from them. -/
structure Effect (node : Node) (cfg : Config Id) (block : ℕ) (who : Account) (codeId : Id)
    (outcome : Except Abort (Verdict cfg.limits)) (s : State cfg.limits Id Account)
    (result : Except Abort (Event Id Account)) (s' : State cfg.limits Id Account) : Prop where
  result : result = returned codeId who outcome
  codes : s'.codes = s.codes
  storages : s'.storages = Function.update s.storages codeId (storageAfter (s.storages codeId) outcome)
  accounts : s'.accounts = Function.update s.accounts who (accountAfter (s.accounts who) outcome)
  events : s'.events = s.events ++ deposited block (returned codeId who outcome)

theorem execute_effect (node : Node) (block : ℕ) (who : Account) (codeId : Id) (expected : Int32)
    (fuel reads writes : UInt32) (s : State cfg.limits Id Account) :
    Effect node cfg block who codeId
      (execution node cfg (s.codes codeId) (s.storages codeId) (s.accounts who) expected fuel reads writes) s
      (dispatch node cfg s ⟨block, .signed who, .executeCode codeId expected fuel reads writes⟩).1
      (step node cfg s ⟨block, .signed who, .executeCode codeId expected fuel reads writes⟩) := by
  unfold step dispatch Extrinsic.run Pallet.executeCode
  simp only [ensureSigned, Bind.bind, Except.bind]
  cases execution node cfg (s.codes codeId) (s.storages codeId) (s.accounts who) expected fuel reads writes with
  | error abort =>
    exact ⟨rfl, rfl, (Function.update_eq_self _ _).symm, (Function.update_eq_self _ _).symm,
      (List.append_nil _).symm⟩
  | ok verdict =>
    cases verdict with
    | exceeded account =>
      simp only [returnEvent]
      refine ⟨rfl, ?_, ?_, ?_, ?_⟩
      · simp only [State.depositEvent_codes, State.setAccount_codes]
      · simp only [State.depositEvent_storages, State.setAccount_storages, storageAfter,
          Function.update_eq_self]
      · simp only [State.depositEvent_accounts, State.setAccount, accountAfter]
      · rw [depositEvent_events]
        rfl
    | committed storage account =>
      simp only [returnEvent]
      refine ⟨rfl, ?_, ?_, ?_, ?_⟩
      · simp only [State.depositEvent_codes, State.setStorage_codes, State.setAccount_codes]
      · simp only [State.depositEvent_storages, State.setStorage, State.setAccount_storages, storageAfter]
      · simp only [State.depositEvent_accounts, State.setStorage_accounts, State.setAccount, accountAfter]
      · rw [depositEvent_events]
        rfl

section Endings

variable {s} {outcome : Except Abort (Verdict cfg.limits)} {result : Except Abort (Event Id Account)}
  {s' : State cfg.limits Id Account}

theorem Effect.exceeded_iff (effect : Effect node cfg block who codeId outcome s result s') :
    result = .ok (.exceededStorage codeId who) ↔ ∃ account, outcome = .ok (.exceeded account) := by
  rw [effect.result]
  cases outcome with
  | error abort => simp [returned]
  | ok verdict => cases verdict <;> simp [returned]

theorem Effect.executed_iff (effect : Effect node cfg block who codeId outcome s result s') :
    result = .ok (.codeExecuted codeId who) ↔ ∃ storage account, outcome = .ok (.committed storage account) := by
  rw [effect.result]
  cases outcome with
  | error abort => simp [returned]
  | ok verdict => cases verdict <;> simp [returned]

end Endings

theorem execution_confined {x : Extrinsic cfg.limits Id Account} (executes : x.call.executedId = some codeId) :
    ConfinedTo codeId x.origin s (step node cfg s x) := by
  have taken := dispatched node s x
  generalize (dispatch node cfg s x).1 = result at taken
  generalize step node cfg s x = s' at taken ⊢
  cases taken with
  | aborted => exact ⟨rfl, fun _ _ => rfl, fun _ _ => rfl⟩
  | uploaded | deleted | upgraded => cases executes
  | exceeded =>
    cases executes
    refine ⟨by simp, fun _ _ => by simp, fun account other => ?_⟩
    have different : account ≠ _ := fun same => other (congrArg Origin.signed same.symm)
    simp [State.setAccount, Function.update_of_ne different]
  | committed =>
    cases executes
    refine ⟨by simp, fun id other => ?_, fun account other => ?_⟩
    · simp [State.setStorage, Function.update_of_ne other]
    · have different : account ≠ _ := fun same => other (congrArg Origin.signed same.symm)
      simp [State.setAccount, Function.update_of_ne different]

section Two

variable {s₁ : State cfg.limits Id Account} {block' : ℕ} {who' : Account} {codeId' : Id}
  {outcome outcome' : Except Abort (Verdict cfg.limits)}
  {result result' : Except Abort (Event Id Account)}

theorem effect_after (first : Effect node cfg block' who' codeId' outcome' s result' s₁)
    (kontracts : codeId ≠ codeId') (signers : who ≠ who') (block : ℕ) (expected : Int32)
    (fuel reads writes : UInt32) :
    Effect node cfg block who codeId
      (execution node cfg (s.codes codeId) (s.storages codeId) (s.accounts who) expected fuel reads writes) s₁
      (dispatch node cfg s₁ ⟨block, .signed who, .executeCode codeId expected fuel reads writes⟩).1
      (step node cfg s₁ ⟨block, .signed who, .executeCode codeId expected fuel reads writes⟩) := by
  have effect := execute_effect node block who codeId expected fuel reads writes s₁
  have storage : s₁.storages codeId = s.storages codeId := by
    rw [first.storages, Function.update_of_ne kontracts]
  have account : s₁.accounts who = s.accounts who := by rw [first.accounts, Function.update_of_ne signers]
  rwa [first.codes, storage, account] at effect

theorem effects_commute {s₂ s₁₂ s₂₁ : State cfg.limits Id Account} {r r' : Except Abort (Event Id Account)}
    (kontracts : codeId ≠ codeId') (signers : who ≠ who')
    (first : Effect node cfg block who codeId outcome s result s₁)
    (thenSecond : Effect node cfg block' who' codeId' outcome' s₁ r' s₁₂)
    (second : Effect node cfg block' who' codeId' outcome' s result' s₂)
    (thenFirst : Effect node cfg block who codeId outcome s₂ r s₂₁) : SameUpToEventOrder s₁₂ s₂₁ where
  codes := by rw [thenSecond.codes, first.codes, thenFirst.codes, second.codes]
  storages := by
    rw [thenSecond.storages, first.storages, thenFirst.storages, second.storages,
      Function.update_of_ne kontracts, Function.update_of_ne kontracts.symm, Function.update_comm kontracts]
  accounts := by
    rw [thenSecond.accounts, first.accounts, thenFirst.accounts, second.accounts,
      Function.update_of_ne signers, Function.update_of_ne signers.symm, Function.update_comm signers]
  events := by
    rw [thenSecond.events, first.events, thenFirst.events, second.events, List.append_assoc, List.append_assoc]
    exact List.Perm.append_left _ List.perm_append_comm

end Two

/-- Executions of different kontracts by different signers do not see each other. -/
theorem executions_isolated :
    (∀ (x : Extrinsic cfg.limits Id Account) (codeId : Id), x.call.executedId = some codeId →
        ConfinedTo codeId x.origin s (step node cfg s x)) ∧
      ∀ (x y : Extrinsic cfg.limits Id Account) (codeId codeId' : Id) (who who' : Account),
        x.call.executedId = some codeId → x.origin = .signed who → y.call.executedId = some codeId' →
        y.origin = .signed who' → codeId ≠ codeId' → who ≠ who' →
        (dispatch node cfg (step node cfg s y) x).1 = (dispatch node cfg s x).1 ∧
          (dispatch node cfg (step node cfg s x) y).1 = (dispatch node cfg s y).1 ∧
          SameUpToEventOrder (step node cfg (step node cfg s x) y) (step node cfg (step node cfg s y) x) := by
  refine ⟨fun _ _ executes => execution_confined s executes, ?_⟩
  rintro ⟨block, _, call⟩ ⟨block', _, call'⟩ codeId codeId' who who' executes rfl executes' rfl kontracts signers
  obtain ⟨expected, fuel, reads, writes, rfl⟩ := executed_call executes
  obtain ⟨expected', fuel', reads', writes', rfl⟩ := executed_call executes'
  have first := execute_effect node block who codeId expected fuel reads writes s
  have second := execute_effect node block' who' codeId' expected' fuel' reads' writes' s
  have thenSecond := effect_after s first kontracts.symm signers.symm block' expected' fuel' reads' writes'
  have thenFirst := effect_after s second kontracts signers block expected fuel reads writes
  exact ⟨thenFirst.result.trans first.result.symm, thenSecond.result.trans second.result.symm,
    effects_commute s kontracts signers first thenSecond second thenFirst⟩

end Executions

section Stored

def uploadedState : State localConfig.limits Bytes Signer :=
  Runs.exec (step localNode localConfig) (genesis 34)
    [uploading ⟨storingCode, storingCode_fits⟩, uploading ⟨paddedStoringCode, paddedStoringCode_fits⟩]

theorem storing_executions_isolated :
    ConfinedTo storingCode (.signed .alice) uploadedState
        (step localNode localConfig uploadedState (executing .alice storingCode 34)) ∧
      SameUpToEventOrder
        (step localNode localConfig (step localNode localConfig uploadedState (executing .alice storingCode 34))
          (executing .bob paddedStoringCode 0))
        (step localNode localConfig (step localNode localConfig uploadedState (executing .bob paddedStoringCode 0))
          (executing .alice storingCode 34)) :=
  ⟨(executions_isolated uploadedState).1 (executing .alice storingCode 34) storingCode rfl,
    ((executions_isolated uploadedState).2 (executing .alice storingCode 34) (executing .bob paddedStoringCode 0)
      storingCode paddedStoringCode .alice .bob rfl rfl rfl rfl (by decide) (by decide)).2.2⟩

end Stored

end KontractsProof.Pallet
