import Kontracts.Executor.LargerLimits
import Kontracts.Pallet.Declared

namespace KontractsModel.Pallet

open KontractsModel.Executor

section Raises

variable {Id Account : Type} [DecidableEq Id] [DecidableEq Account] (node : Node) (cfg : Config Id)

inductive Raised (s : State cfg.limits Id Account) : Extrinsic cfg.limits Id Account →
    Extrinsic cfg.limits Id Account → Prop
  | same (x : Extrinsic cfg.limits Id Account) : Raised s x x
  | committed {block : ℕ} {who : Account} {codeId : Id} {fuel reads writes fuel' reads' writes' : UInt32}
      {declared declared' : Int32}
      (executed : (dispatch node cfg s (executes cfg block who codeId fuel reads writes declared)).1 =
        .ok (.codeExecuted codeId who))
      (moreFuel : fuel ≤ fuel') (moreReads : reads ≤ reads') (moreWrites : writes ≤ writes')
      (moreDeclared : declared ≤ declared') :
      Raised s (executes cfg block who codeId fuel reads writes declared)
        (executes cfg block who codeId fuel' reads' writes' declared')
  | exceeded {block : ℕ} {who : Account} {codeId : Id} {fuel reads writes fuel' reads' writes' : UInt32}
      {declared declared' : Int32}
      (exceeded : (dispatch node cfg s (executes cfg block who codeId fuel reads writes declared)).1 =
        .ok (.exceededStorage codeId who))
      (moreFuel : fuel ≤ fuel') (moreReads : reads ≤ reads') (moreWrites : writes ≤ writes')
      (lessDeclared : declared' ≤ declared) :
      Raised s (executes cfg block who codeId fuel reads writes declared)
        (executes cfg block who codeId fuel' reads' writes' declared')

def results (s : State cfg.limits Id Account) (x : Extrinsic cfg.limits Id Account) :
    List (Except Abort (Event Id Account)) :=
  [(dispatch node cfg s x).1]

end Raises

end KontractsModel.Pallet

namespace KontractsProof.Pallet

open Scale KontractsModel KontractsModel.Executor KontractsModel.Pallet

section Executions

variable {Id : Type} {node : Node} {cfg : Config Id} {code : Option (Code cfg.limits)}
  {storage : KontractStorage cfg.limits} {fuel reads writes fuel' reads' writes' : UInt32}

theorem sizeChange_larger {changed : RawKontractStorage × Int32} (moreFuel : fuel ≤ fuel') (moreReads : reads ≤ reads')
    (moreWrites : writes ≤ writes') (ran : sizeChange node cfg code storage fuel reads writes = .ok changed) :
    sizeChange node cfg code storage fuel' reads' writes' = .ok changed := by
  cases code with
  | none => cases ran
  | some binary =>
    simp only [sizeChange, getStorageSize_storage, ok_bind] at ran ⊢
    obtain ⟨raw, returned, rest⟩ := bind_ok ran
    have longer := Executor.larger_limits_traced (Prod.ext rfl (mapError_ok returned)) moreFuel moreReads moreWrites
    have returned' : Executor.executeCode node binary.1 (encodeStorage storage) fuel' reads' writes' = .ok raw :=
      congrArg Prod.snd longer
    rw [returned']
    exact rest

theorem execution_larger {account : AccountData} {declared : Int32} {verdict : Verdict cfg.limits}
    (moreFuel : fuel ≤ fuel') (moreReads : reads ≤ reads') (moreWrites : writes ≤ writes')
    (ended : execution node cfg code storage account declared fuel reads writes = .ok verdict) :
    execution node cfg code storage account declared fuel' reads' writes' = .ok verdict := by
  rw [execution_eq] at ended ⊢
  obtain ⟨changed, ran, rest⟩ := bind_ok ended
  rw [sizeChange_larger moreFuel moreReads moreWrites ran]
  exact rest

end Executions

section Runs

variable {Id Account : Type} [DecidableEq Id] [DecidableEq Account] {node : Node} {cfg : Config Id}
  {s : State cfg.limits Id Account}

theorem dispatch_larger {block : ℕ} {who : Account} {codeId : Id} {fuel reads writes fuel' reads' writes' : UInt32}
    {declared : Int32} {verdict : Verdict cfg.limits} (moreFuel : fuel ≤ fuel') (moreReads : reads ≤ reads')
    (moreWrites : writes ≤ writes')
    (ended : execution node cfg (s.codes codeId) (s.storages codeId) (s.accounts who) declared fuel reads writes =
      .ok verdict) :
    dispatch node cfg s (executes cfg block who codeId fuel' reads' writes' declared) =
      dispatch node cfg s (executes cfg block who codeId fuel reads writes declared) := by
  have longer := execution_larger moreFuel moreReads moreWrites ended
  simp only [dispatch, executes, Extrinsic.run, Pallet.executeCode, ensureSigned, ok_bind, longer, ended]

theorem raised_dispatch {x y : Extrinsic cfg.limits Id Account} (raised : Raised node cfg s x y) :
    dispatch node cfg s y = dispatch node cfg s x := by
  cases raised with
  | same => rfl
  | @committed block who codeId fuel reads writes fuel' reads' writes' declared declared' executed moreFuel moreReads
      moreWrites moreDeclared =>
    have effect := executes_effect node s block who codeId fuel reads writes declared
    obtain ⟨storage, account, ended⟩ := effect.executed_iff.mp executed
    have larger : dispatch node cfg s (executes cfg block who codeId fuel' reads' writes' declared) = _ :=
      dispatch_larger moreFuel moreReads moreWrites ended
    have gated : dispatch node cfg s (executes cfg block who codeId fuel' reads' writes' declared') =
        dispatch node cfg s (executes cfg block who codeId fuel' reads' writes' declared) ∨ _ :=
      dispatch_mono moreDeclared
    rw [← larger] at executed ⊢
    rcases gated with same | ⟨exceeded, -⟩
    · exact same
    · cases exceeded.symm.trans executed
  | @exceeded block who codeId fuel reads writes fuel' reads' writes' declared declared' exceeded moreFuel moreReads
      moreWrites lessDeclared =>
    have effect := executes_effect node s block who codeId fuel reads writes declared
    obtain ⟨account, ended⟩ := effect.exceeded_iff.mp exceeded
    have larger : dispatch node cfg s (executes cfg block who codeId fuel' reads' writes' declared) = _ :=
      dispatch_larger moreFuel moreReads moreWrites ended
    have gated : dispatch node cfg s (executes cfg block who codeId fuel' reads' writes' declared) =
        dispatch node cfg s (executes cfg block who codeId fuel' reads' writes' declared') ∨ _ :=
      dispatch_mono lessDeclared
    rw [← larger] at exceeded ⊢
    rcases gated with same | ⟨-, milder⟩
    · exact same.symm
    · exact absurd exceeded milder

/-- Raising the limits of executions that ended well leaves the whole history as it was: every result, also of
    the calls in between, and every state. -/
theorem raised_run {xs ys : List (Extrinsic cfg.limits Id Account)}
    (raised : Runs.Paired (step node cfg) (Raised node cfg) s xs ys) :
    Runs.exec (step node cfg) s ys = Runs.exec (step node cfg) s xs ∧
      Runs.collect (step node cfg) (results node cfg) s ys = Runs.collect (step node cfg) (results node cfg) s xs := by
  have stepped : ∀ (s : State cfg.limits Id Account) x y, Raised node cfg s x y →
      step node cfg s y = step node cfg s x := fun _ _ _ pair => congrArg Prod.snd (raised_dispatch pair)
  refine ⟨raised.exec stepped, raised.collect fun s x y pair => ⟨stepped s x y pair, ?_⟩⟩
  rw [results, results, raised_dispatch pair]

end Runs

section Raises

def raisedRun (limit : UInt32) (declared : Int32) : List (Extrinsic localConfig.limits Bytes Signer) :=
  [uploading ⟨togglingCode, togglingCode_fits⟩, executes localConfig 1 .alice togglingCode limit limit limit declared,
    executing .bob togglingCode 0]

theorem toggling_raised :
    Runs.exec (step localNode localConfig) (genesis 35) (raisedRun 20 50) =
        Runs.exec (step localNode localConfig) (genesis 35) (raisedRun 10 35) ∧
      Runs.collect (step localNode localConfig) (results localNode localConfig) (genesis 35) (raisedRun 20 50) =
        Runs.collect (step localNode localConfig) (results localNode localConfig) (genesis 35) (raisedRun 10 35) :=
  raised_run (.cons (.same _)
    (.cons (.committed (by decide) (by decide) (by decide) (by decide) (by decide)) (.cons (.same _) (.nil _))))

end Raises

end KontractsProof.Pallet
