import Kontracts.Executor.Builds
import Kontracts.Pallet.ByteLimit
import Kontracts.Pallet.Outcomes
import Kontracts.Pallet.Raised

namespace KontractsModel.Pallet

open KontractsModel.Executor

abbrev Config.built {Id : Type} (cfg : Config Id) (overflowChecks : Bool) : Config Id :=
  { cfg with overflowChecks := overflowChecks }

/-- Sizes whose difference, or its negation, is no `i32`: the new one is kept to 32 bits, and negative from 2^31 on. -/
def SizesOverflow (before after : ℕ) : Prop := 2 ^ 31 ≤ after % 2 ^ 32 ∧ after % 2 ^ 32 ≤ 2 ^ 31 + before

def Overflows {Id Account : Type} (node : Node) (cfg : Config Id) (s : State cfg.limits Id Account)
    (x : Extrinsic cfg.limits Id Account) : Prop :=
  match x.origin, x.call with
  | .signed _, .executeCode codeId _ fuel reads writes =>
    ∃ final, Leaves node cfg (s.codes codeId) (s.storages codeId) fuel reads writes final ∧
      SizesOverflow (byteSize (s.storages codeId)) (mapSize final)
  | _, _ => False

end KontractsModel.Pallet

namespace KontractsProof.Pallet

open Scale KontractsModel KontractsModel.Executor KontractsModel.Pallet

section Amounts

variable {before after : ℕ}

theorem toInt_kept (n : ℕ) :
    (Int32.ofNat n).toInt = if n % 2 ^ 32 < 2 ^ 31 then (n % 2 ^ 32 : ℤ) else (n % 2 ^ 32 : ℤ) - 2 ^ 32 := by
  have size : Int32.size = 2 ^ 32 := rfl
  rw [Int32.toInt_ofNat', size, Int.bmod_def]
  split <;> split <;> omega

theorem subI32_inside (small : before < 2 ^ 31) (inside : -2 ^ 31 ≤ (Int32.ofNat after).toInt - before ∧
      (Int32.ofNat after).toInt - before < 2 ^ 31) :
    ∃ x : Int32, x.toInt = (Int32.ofNat after).toInt - before ∧
      ∀ overflowChecks, subI32 overflowChecks (Int32.ofNat after) (Int32.ofNat before) = .ok x := by
  refine ⟨Int32.ofNat after - Int32.ofNat before, ?_, fun overflowChecks => ?_⟩
  · rw [Int32.toInt_sub, toInt_size small]
    exact Int.bmod_eq_of_le (by omega) (by omega)
  · simp only [subI32, checkedI32, toInt_size small, if_pos inside]

theorem subI32_moderate (small : before < 2 ^ 31) (moderate : ¬ SizesOverflow before after) :
    ∃ x, x ≠ Int32.minValue ∧
      ∀ overflowChecks, subI32 overflowChecks (Int32.ofNat after) (Int32.ofNat before) = .ok x := by
  have kept := toInt_kept after
  have above : -2 ^ 31 < (Int32.ofNat after).toInt - before ∧ (Int32.ofNat after).toInt - before < 2 ^ 31 := by
    unfold SizesOverflow at moderate
    split at kept <;> omega
  obtain ⟨x, exact, subtracted⟩ := subI32_inside small ⟨Int.le_of_lt above.1, above.2⟩
  refine ⟨x, fun lowest => ?_, subtracted⟩
  rw [lowest, Int32.toInt_minValue] at exact
  omega

theorem subI32_overflows (small : before < 2 ^ 31) (overflows : SizesOverflow before after) :
    subI32 true (Int32.ofNat after) (Int32.ofNat before) = .error (.panic .subOverflow) ∨
      subI32 true (Int32.ofNat after) (Int32.ofNat before) = .ok Int32.minValue := by
  have kept := toInt_kept after
  obtain ⟨negative, near⟩ := overflows
  rw [if_neg (by omega)] at kept
  by_cases inside : -2 ^ 31 ≤ (Int32.ofNat after).toInt - before ∧ (Int32.ofNat after).toInt - before < 2 ^ 31
  · obtain ⟨x, exact, subtracted⟩ := subI32_inside small inside
    have lowest : x = Int32.minValue := by
      rw [← Int32.toInt_inj, exact, Int32.toInt_minValue]
      omega
    exact .inr (lowest ▸ subtracted true)
  · left
    simp only [subI32, checkedI32, toInt_size small, if_neg inside, if_true]

theorem request_moderate (first second : Bool) {x : Int32} (moderate : x ≠ Int32.minValue) (expected : Int32) :
    request first x expected = request second x expected := by
  have negated : mulI32 first x (-1) = mulI32 second x (-1) := by
    obtain ⟨freed, product⟩ := (negates_iff true x).mpr fun _ => moderate
    unfold mulI32 checkedI32 at product ⊢
    split at product
    · rename_i inside
      rw [if_pos inside, if_pos inside]
    · cases product
  unfold request
  rw [negated]

theorem request_lowest (expected : Int32) :
    request true Int32.minValue expected = .error (.panic .mulOverflow) := by
  have declared : Int32.minValue ≤ expected := Int32.minValue_le expected
  have negated : mulI32 true Int32.minValue (-1) = .error (.panic .mulOverflow) := by decide
  unfold request
  rw [if_neg (by decide), if_pos ⟨declared, by decide⟩, negated]
  rfl

theorem request_unchecked (x expected : Int32) : ∃ wanted, request false x expected = .ok wanted := by
  obtain ⟨freed, product⟩ := (negates_iff false x).mpr fun checked => by cases checked
  unfold request
  rw [product]
  split
  · exact ⟨_, rfl⟩
  · split
    · exact ⟨_, rfl⟩
    · split <;> exact ⟨_, rfl⟩

theorem subI32_unchecked (a b : Int32) : subI32 false a b = .ok (a - b) := by
  unfold subI32 checkedI32
  split <;> rfl

end Amounts

section Executions

variable {Id : Type} {node : Node} {cfg : Config Id} {code : Option (Code cfg.limits)}
  {storage : KontractStorage cfg.limits} {fuel reads writes : UInt32} {final : Executor.KontractStorage}

theorem conclude_built (overflowChecks : Bool) (raw : RawKontractStorage) (settlement : Settlement) :
    conclude (cfg.built overflowChecks) raw settlement = conclude cfg raw settlement := by
  cases settlement with
  | exceeded account => rfl
  | proceed account =>
    unfold conclude
    cases decodeStorage cfg.limits raw <;> rfl

/-- Where the builds come in: in the arithmetic on the size that the guest leaves, and nowhere else. -/
theorem execution_measured (leaves : Leaves node cfg code storage fuel reads writes final) (account : AccountData)
    (expected : Int32) :
    ∃ raw, ∀ first second,
      execution (node.built first) (cfg.built second) code storage account expected fuel reads writes = (do
        let x ← subI32 second (Int32.ofNat (mapSize final)) (Int32.ofNat (byteSize storage))
        let wanted ← request second x expected
        let settlement ← wanted.apply cfg.currency account
        conclude cfg raw settlement) := by
  obtain ⟨binary, raw, rfl, ran, encoded⟩ := leaves
  obtain ⟨rfl, count, -⟩ := encodeKontractStorage_ok encoded
  refine ⟨encodeMap encodeVec encodeVec final, fun first second => ?_⟩
  have sized : getStorageSize (encodeMap encodeVec encodeVec final) = .ok (Int32.ofNat (mapSize final)) :=
    getStorageSize_encoded final count
  rw [execution_eq]
  simp only [sizeChange, getStorageSize_storage, Executor.executeCode_built, ran, Except.mapError, ok_bind, sized,
    bind_assoc, pure_bind, conclude_built]

theorem execution_built (small : byteSize storage < 2 ^ 31)
    (moderate : ∀ final, Leaves node cfg code storage fuel reads writes final →
      ¬ SizesOverflow (byteSize storage) (mapSize final)) (first second : Bool) (account : AccountData)
    (expected : Int32) :
    execution (node.built first) (cfg.built second) code storage account expected fuel reads writes =
      execution node cfg code storage account expected fuel reads writes := by
  cases code with
  | none => rfl
  | some binary =>
    cases ran : Executor.executeCode node binary.1 (encodeStorage storage) fuel reads writes with
    | error exit =>
      have ran' := Executor.executeCode_built node first binary.1 (encodeStorage storage) fuel reads writes
      rw [execution_stopped ran]
      exact execution_stopped (ran'.trans ran)
    | ok raw =>
      obtain ⟨final, encoded⟩ := Executor.executeCode_encoded ran
      have leaves : Leaves node cfg (some binary) storage fuel reads writes final := ⟨binary, raw, rfl, ran, encoded⟩
      obtain ⟨x, higher, subtracted⟩ := subI32_moderate small (moderate final leaves)
      obtain ⟨raw', measured⟩ := execution_measured leaves account expected
      have here := measured node.overflowChecks cfg.overflowChecks
      rw [subtracted, ok_bind, request_moderate cfg.overflowChecks second higher] at here
      rw [measured, subtracted, ok_bind]
      exact here.symm

theorem granted_no_panic (raw : RawKontractStorage) (wanted : Request) (account : AccountData) (panic : Panic) :
    (wanted.apply cfg.currency account >>= conclude cfg raw) ≠ .error (.panic panic) := by
  intro panics
  rcases bind_error panics with refused | ⟨settlement, -, refused⟩
  · cases wanted with
    | reserve amount =>
      simp only [Request.apply] at refused
      split at refused <;> cases refused
    | nothing | unreserve | slash => cases refused
  · cases settlement with
    | exceeded left => cases refused
    | proceed left =>
      unfold conclude at refused
      cases decoded : decodeStorage cfg.limits raw <;> simp [decoded] at refused

theorem execution_overflows (small : byteSize storage < 2 ^ 31)
    (leaves : Leaves node cfg code storage fuel reads writes final)
    (overflows : SizesOverflow (byteSize storage) (mapSize final)) (first second : Bool) (account : AccountData)
    (expected : Int32) :
    (∃ panic, execution (node.built first) (cfg.built true) code storage account expected fuel reads writes =
        .error (.panic panic)) ∧
      ∀ panic, execution (node.built second) (cfg.built false) code storage account expected fuel reads writes ≠
        .error (.panic panic) := by
  obtain ⟨raw, measured⟩ := execution_measured leaves account expected
  rw [measured, measured]
  constructor
  · rcases subI32_overflows small overflows with overflowed | lowest
    · exact ⟨_, by rw [overflowed]; rfl⟩
    · exact ⟨_, by rw [lowest, ok_bind, request_lowest]; rfl⟩
  · intro panic panics
    obtain ⟨wanted, requested⟩ := request_unchecked
      (Int32.ofNat (mapSize final) - Int32.ofNat (byteSize storage)) expected
    rw [subI32_unchecked, ok_bind, requested, ok_bind] at panics
    exact granted_no_panic raw wanted account panic panics

end Executions

section Runs

variable {Id Account : Type} [DecidableEq Id] [DecidableEq Account] {node : Node} {cfg : Config Id}
  {s : State cfg.limits Id Account} {x : Extrinsic cfg.limits Id Account}

theorem run_built (fits : SizesFit cfg.limits) (moderate : ¬ Overflows node cfg s x) (first second : Bool) :
    x.run (node.built first) (cfg.built second) s = x.run node cfg s := by
  obtain ⟨block, origin, call⟩ := x
  cases call with
  | uploadCode | deleteCode | updateCode => rfl
  | executeCode codeId expected fuel reads writes =>
    cases origin with
    | root | none => rfl
    | signed who =>
      have each : ∀ final, Leaves node cfg (s.codes codeId) (s.storages codeId) fuel reads writes final →
          ¬ SizesOverflow (byteSize (s.storages codeId)) (mapSize final) :=
        fun final leaves overflows => moderate ⟨final, leaves, overflows⟩
      have same := execution_built (byteSize_lt fits _) each first second (s.accounts who) expected
      unfold Extrinsic.run Pallet.executeCode
      simp only [ensureSigned, ok_bind]
      rw [same]
      cases execution node cfg (s.codes codeId) (s.storages codeId) (s.accounts who) expected fuel reads writes with
      | error abort => rfl
      | ok verdict => cases verdict <;> rfl

theorem dispatch_built (fits : SizesFit cfg.limits) (moderate : ¬ Overflows node cfg s x) (first second : Bool) :
    dispatch (node.built first) (cfg.built second) s x = dispatch node cfg s x := by
  have ran := run_built fits moderate first second
  unfold dispatch
  rw [ran]
  cases x.run node cfg s <;> rfl

theorem dispatch_aborts_iff (block : ℕ) {who : Account} {codeId : Id} {expected : Int32} {fuel reads writes : UInt32}
    {abort : Abort} :
    (dispatch node cfg s ⟨block, .signed who, .executeCode codeId expected fuel reads writes⟩).1 = .error abort ↔
      execution node cfg (s.codes codeId) (s.storages codeId) (s.accounts who) expected fuel reads writes =
        .error abort := by
  rw [(execute_effect node block who codeId expected fuel reads writes s).result]
  cases execution node cfg (s.codes codeId) (s.storages codeId) (s.accounts who) expected fuel reads writes with
  | error other => simp [returned]
  | ok verdict => cases verdict <;> simp [returned]

theorem dispatch_overflows (fits : SizesFit cfg.limits) (overflows : Overflows node cfg s x) (first second : Bool) :
    (dispatch (node.built first) (cfg.built true) s x).1 ≠ (dispatch (node.built second) (cfg.built false) s x).1 := by
  obtain ⟨block, origin, call⟩ := x
  cases call with
  | uploadCode | deleteCode | updateCode => cases origin <;> exact absurd overflows id
  | executeCode codeId expected fuel reads writes =>
    cases origin with
    | root | none => exact absurd overflows id
    | signed who =>
      obtain ⟨final, leaves, overflows⟩ := overflows
      obtain ⟨⟨panic, panics⟩, other⟩ :=
        execution_overflows (byteSize_lt fits _) leaves overflows first second (s.accounts who) expected
      have checked := (dispatch_aborts_iff block).mpr panics
      intro same
      exact other panic ((dispatch_aborts_iff block).mp (same.symm.trans checked))

theorem dispatch_hosted (first second : Bool) (s : State cfg.limits Id Account)
    (x : Extrinsic cfg.limits Id Account) :
    dispatch (node.built first) cfg s x = dispatch (node.built second) cfg s x := by
  obtain ⟨block, origin, call⟩ := x
  cases call with
  | uploadCode | deleteCode | updateCode => rfl
  | executeCode codeId expected fuel reads writes =>
    unfold dispatch Extrinsic.run Pallet.executeCode execution
    simp only [Executor.executeCode_built]

theorem run_hosted (first second : Bool) (s : State cfg.limits Id Account)
    (xs : List (Extrinsic cfg.limits Id Account)) :
    Runs.collect (step (node.built first) cfg) (results (node.built first) cfg) s xs =
        Runs.collect (step (node.built second) cfg) (results (node.built second) cfg) s xs ∧
      Runs.exec (step (node.built first) cfg) s xs = Runs.exec (step (node.built second) cfg) s xs := by
  have stepped : (step (node.built first) cfg : State cfg.limits Id Account → _) = step (node.built second) cfg := by
    funext s x
    exact congrArg Prod.snd (dispatch_hosted first second s x)
  have answered : (results (node.built first) cfg : State cfg.limits Id Account → _) =
      results (node.built second) cfg := by
    funext s x
    rw [results, results, dispatch_hosted first second]
  rw [stepped, answered]
  exact ⟨rfl, rfl⟩

/-- A node whose runtime is built with overflow checks and one whose runtime is built without answer the extrinsics of
    a run alike exactly where no execution of it leaves a map of such a size, and then they reach the same state. -/
theorem builds_agree_iff (fits : SizesFit cfg.limits) (first second : Bool) (s : State cfg.limits Id Account)
    (xs : List (Extrinsic cfg.limits Id Account)) :
    (Runs.collect (step (node.built first) (cfg.built true)) (results (node.built first) (cfg.built true)) s xs =
        Runs.collect (step (node.built second) (cfg.built false)) (results (node.built second) (cfg.built false)) s xs ↔
      Runs.Always (step node cfg) (fun s x => ¬ Overflows node cfg s x) s xs) ∧
    (Runs.Always (step node cfg) (fun s x => ¬ Overflows node cfg s x) s xs →
      Runs.exec (step (node.built first) (cfg.built true)) s xs =
        Runs.exec (step (node.built second) (cfg.built false)) s xs) ∧
    (Runs.collect (step (node.built first) cfg) (results (node.built first) cfg) s xs =
        Runs.collect (step (node.built second) cfg) (results (node.built second) cfg) s xs ∧
      Runs.exec (step (node.built first) cfg) s xs = Runs.exec (step (node.built second) cfg) s xs) ∧
    ∀ code storage fuel reads writes, Executor.traced (node.built first) code storage fuel reads writes =
      Executor.traced (node.built second) code storage fuel reads writes := by
  have same : ∀ host checks (s : State cfg.limits Id Account) x, ¬ Overflows node cfg s x →
      step (node.built host) (cfg.built checks) s x = step node cfg s x :=
    fun host checks s x moderate => congrArg Prod.snd (dispatch_built fits moderate host checks)
  refine ⟨?_, fun moderate => ?_, run_hosted first second s xs, fun code storage fuel reads writes => ?_⟩
  · rw [← Runs.always_congr (same second false)]
    refine Runs.shadow_eq_iff (fun s x moderate => ?_) fun s x overflows => ?_
    · have checked := dispatch_built fits moderate first true
      have unchecked := dispatch_built fits moderate second false
      exact ⟨congrArg Prod.snd (checked.trans unchecked.symm), congrArg Prod.fst (checked.trans unchecked.symm)⟩
    · exact dispatch_overflows fits (not_not.mp overflows) first second
  · exact (Runs.exec_congr (same first true) moderate).trans (Runs.exec_congr (same second false) moderate).symm
  · rw [Executor.traced_built node first, Executor.traced_built node second]

theorem stored_builds_agree :
    Runs.collect (step (localNode.built true) (localConfig.built true))
        (results (localNode.built true) (localConfig.built true)) (genesis 34) storedRun =
      Runs.collect (step (localNode.built false) (localConfig.built false))
        (results (localNode.built false) (localConfig.built false)) (genesis 34) storedRun := by
  refine (builds_agree_iff runtimeLimits_fit true false (genesis 34) storedRun).1.mpr ⟨id, ?_, True.intro⟩
  rintro ⟨final, leaves, large, -⟩
  have ran : Executor.executeCode localNode storingCode (encodeStorage (emptyStorage localConfig.limits)) 10 10 10 =
      .ok ([4, 128] ++ List.replicate 33 0) := by
    decide
  have short := leaves_size_le leaves ran
  have small : mapSize final < 2 ^ 31 := Nat.lt_of_le_of_lt short (by decide)
  omega

end Runs

end KontractsProof.Pallet
