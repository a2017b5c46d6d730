import Kontracts.Pallet.Codecs

namespace KontractsModel.Pallet

open KontractsModel.Executor

section Executions

variable {Id Account : Type} (node : Node) (cfg : Config Id) (s : State cfg.limits Id Account)

inductive Payable (account : AccountData) (expected : Int32) : Int32 → Prop
  | unchanged : Payable account expected 0
  | freed {x : Int32} (negative : x < 0) (declared : x ≤ expected)
      (negates : cfg.overflowChecks = true → x ≠ Int32.minValue) : Payable account expected x
  | grown {x : Int32} (positive : 0 < x) (declared : x ≤ expected)
      (affords : cfg.currency.reserve account x.toUInt32.toNat ≠ none) : Payable account expected x

structure Committable (who : Account) (codeId : Id) (expected : Int32) (final : Executor.KontractStorage) : Prop where
  payable : ∃ x, subI32 cfg.overflowChecks (Int32.ofNat (mapSize final))
      (Int32.ofNat (byteSize (s.storages codeId))) = .ok x ∧ Payable cfg (s.accounts who) expected x
  count : final.len ≤ cfg.limits.maxKontracStorageSize.toNat
  entries : ∀ entry ∈ final.entries, entry.1.length ≤ cfg.limits.maxKontracStorageKeySize.toNat ∧
    entry.2.length ≤ cfg.limits.maxKontracStorageValueSize.toNat

/-- A guest that returns has written the storage past its limit in bytes, and nothing else refuses it. -/
def Oversteps (x : Extrinsic cfg.limits Id Account) : Prop :=
  match x.origin, x.call with
  | .signed who, .executeCode codeId expected fuel reads writes =>
    ∃ code raw, s.codes codeId = some code ∧
      Executor.executeCode node code.1 (encodeStorage (s.storages codeId)) fuel reads writes = .ok raw ∧
      let final := writtenStorage node.toHost (s.storages codeId).raw (executionTrace node cfg s x)
      cfg.limits.maxKontracStorageSize.toNat < mapSize final ∧ Committable cfg s who codeId expected final
  | _, _ => False

variable {cfg}

def WithinBytes (s : State cfg.limits Id Account) : Prop :=
  ∀ codeId, byteSize (s.storages codeId) ≤ cfg.limits.maxKontracStorageSize.toNat

end Executions

end KontractsModel.Pallet

namespace KontractsProof.Pallet

open Scale KontractsModel KontractsModel.Executor KontractsModel.Pallet

section Settlements

theorem negates_iff (overflowChecks : Bool) (x : Int32) :
    (∃ freed, mulI32 overflowChecks x (-1) = .ok freed) ↔ (overflowChecks = true → x ≠ Int32.minValue) := by
  have minusOne : (-1 : Int32).toInt = -1 := by decide
  have lowest : x = Int32.minValue ↔ x.toInt = -2 ^ 31 := by
    rw [← Int32.toInt_inj, Int32.toInt_minValue]
  have above := Int32.le_toInt x
  have below := Int32.toInt_lt x
  unfold mulI32 checkedI32
  rw [minusOne]
  split
  · have other : x ≠ Int32.minValue := fun same => by
      have value := lowest.mp same
      omega
    exact iff_of_true ⟨_, rfl⟩ fun _ => other
  · have same : x = Int32.minValue := lowest.mpr (by omega)
    cases overflowChecks with
    | false => exact iff_of_true ⟨_, rfl⟩ fun checked => by cases checked
    | true =>
      refine iff_of_false ?_ fun other => other rfl same
      rintro ⟨freed, product⟩
      cases product

theorem settle_proceed_iff {Id : Type} {cfg : Config Id} {account : AccountData} {x expected : Int32} :
    (∃ account', settle cfg.currency cfg.overflowChecks account x expected = .ok (.proceed account')) ↔
      Payable cfg account expected x := by
  simp only [settle_iff]
  constructor
  · rintro ⟨account', arm⟩
    cases arm with
    | unchanged same => exact same ▸ .unchanged
    | freed negative declared negated => exact .freed negative declared ((negates_iff _ x).mp ⟨_, negated⟩)
    | grown positive declared reserved => exact .grown positive declared (reserved ▸ Option.some_ne_none account')
  · intro payable
    cases payable with
    | unchanged => exact ⟨account, .unchanged rfl⟩
    | freed negative declared negates =>
      obtain ⟨amount, negated⟩ := (negates_iff _ x).mpr negates
      exact ⟨_, .freed negative declared negated⟩
    | grown positive declared affords =>
      obtain ⟨paid, reserved⟩ := Option.ne_none_iff_exists'.mp affords
      exact ⟨paid, .grown positive declared reserved⟩

end Settlements

section Executions

variable {Id : Type} {node : Node} {cfg : Config Id} {binary : Code cfg.limits} {storage : KontractStorage cfg.limits}
  {account account' : AccountData} {expected : Int32} {fuel reads writes : UInt32}

theorem executionTrace_eq {Account : Type} {s : State cfg.limits Id Account} {block : ℕ} {who : Account} {codeId : Id}
    (held : s.codes codeId = some binary) :
    executionTrace node cfg s ⟨block, .signed who, .executeCode codeId expected fuel reads writes⟩ =
      hostTrace node binary.1 (encodeStorage (s.storages codeId)) fuel reads writes := by
  simp only [executionTrace, held]

theorem execution_commits {raw : RawKontractStorage} {final : Executor.KontractStorage} {x : Int32}
    {stored : KontractStorage cfg.limits}
    (ran : Executor.executeCode node binary.1 (encodeStorage storage) fuel reads writes = .ok raw)
    (encoded : encodeKontractStorage final = .ok raw)
    (subtracted : subI32 cfg.overflowChecks (Int32.ofNat (mapSize final)) (Int32.ofNat (byteSize storage)) = .ok x)
    (settled : settle cfg.currency cfg.overflowChecks account x expected = .ok (.proceed account'))
    (accepted : decodeStorage cfg.limits raw = some stored) :
    execution node cfg (some binary) storage account expected fuel reads writes = .ok (.committed stored account') := by
  obtain ⟨rfl, count, -⟩ := encodeKontractStorage_ok encoded
  have sized : getStorageSize (encodeMap encodeVec encodeVec final) = .ok (Int32.ofNat (mapSize final)) :=
    getStorageSize_encoded final count
  simp only [execution, getStorageSize_storage, ran, Except.mapError, ok_bind, sized, subtracted, settled, accepted]
  rfl

theorem committed_committable {Account : Type} {s : State cfg.limits Id Account} {who : Account} {codeId : Id}
    {stored : KontractStorage cfg.limits}
    (executed : execution node cfg (s.codes codeId) (s.storages codeId) (s.accounts who) expected fuel reads writes =
      .ok (.committed stored account')) : Committable cfg s who codeId expected stored.raw := by
  obtain ⟨_, _, x, _, _, _, subtracted, settled⟩ := execution_stored executed
  exact ⟨⟨x, subtracted, settle_proceed_iff.mp ⟨account', settled⟩⟩, stored.raw_len,
    fun _ member => stored.raw_entries member⟩

end Executions

section Steps

variable {Id Account : Type} [DecidableEq Id] [DecidableEq Account] {node : Node} {cfg : Config Id}
  {s : State cfg.limits Id Account} {x : Extrinsic cfg.limits Id Account}

theorem oversteps_exceeds (oversteps : Oversteps node cfg s x) : ¬ WithinBytes (step node cfg s x) := by
  obtain ⟨block, origin, call⟩ := x
  cases call with
  | uploadCode | deleteCode | updateCode => cases origin <;> exact absurd oversteps id
  | executeCode codeId expected fuel reads writes =>
    cases origin with
    | root | none => exact absurd oversteps id
    | signed who =>
      obtain ⟨code, raw, held, ran, large, committable⟩ := oversteps
      obtain ⟨burned, caller, written, encoded⟩ := Executor.executeCode_tracks
        (Executor.written_tracked (s.storages codeId).raw)
        (fun module decoded ready => by rw [prepared_decoded ready]; rfl) ran
      rw [executionTrace_eq held, ← written] at large committable
      obtain ⟨difference, subtracted, payable⟩ := committable.payable
      obtain ⟨account, settled⟩ := settle_proceed_iff.mpr payable
      obtain ⟨stored, accepted⟩ := (decodeStorage_iff encoded).mpr ⟨committable.count, committable.entries⟩
      have ended := execution_commits ran encoded subtracted settled accepted
      rw [← held] at ended
      have effect := execute_effect node block who codeId expected fuel reads writes s
      have same := decodeStorage_raw (encodeKontractStorage_ok encoded).2.2 accepted
      intro within
      have after : byteSize _ ≤ _ := within codeId
      rw [effect.storages, ended, Function.update_self] at after
      rw [← same] at large
      exact absurd after (Nat.not_le_of_lt large)

theorem within_kept (within : WithinBytes s) (moderate : ¬ Oversteps node cfg s x) :
    WithinBytes (step node cfg s x) := by
  intro codeId
  rcases storages_step node s x codeId with same | ⟨block, who, expected, fuel, reads, writes, account, rfl, executed⟩
  · rw [same]
    exact within codeId
  · by_contra large
    obtain ⟨code, raw, _, held, ran, -⟩ := execution_stored executed
    obtain ⟨_, burned, caller, held', written, stored⟩ :=
      committed_tracks (Executor.written_tracked (s.storages codeId).raw) (fun _ => rfl) executed
    cases held.symm.trans held'
    refine moderate ⟨code, raw, held, ran, ?_⟩
    rw [executionTrace_eq held, ← written, stored]
    exact ⟨Nat.lt_of_not_le large, committed_committable executed⟩

end Steps

section Runs

variable {Id Account : Type} [DecidableEq Id] [DecidableEq Account] {node : Node} {cfg : Config Id}
  {s₀ : State cfg.limits Id Account} {xs : List (Extrinsic cfg.limits Id Account)}

/-- The storages stay within their limit in bytes all along a run exactly where no guest oversteps it. -/
theorem bytes_bounded_iff (empty : ∀ codeId, s₀.storages codeId = emptyStorage cfg.limits) :
    (∀ front back, xs = front ++ back → ∀ codeId,
        byteSize ((Runs.exec (step node cfg) s₀ front).storages codeId) ≤ cfg.limits.maxKontracStorageSize.toNat) ↔
      Runs.Always (step node cfg) (fun s x => ¬ Oversteps node cfg s x) s₀ xs := by
  have start : WithinBytes s₀ := by
    intro codeId
    rw [empty, byteSize_empty]
    exact Nat.zero_le _
  have each : ∀ (s : State cfg.limits Id Account) x, WithinBytes s →
      (WithinBytes (step node cfg s x) ↔ ¬ Oversteps node cfg s x) :=
    fun _ _ within => ⟨fun after oversteps => oversteps_exceeds oversteps after, within_kept within⟩
  exact Runs.prefixes_iff_always each start

theorem stored_bytes_bounded :
    byteSize ((Runs.exec (step localNode localConfig) (genesis 34) storedRun).storages storingCode) ≤
      localConfig.limits.maxKontracStorageSize.toNat := by
  have always : Runs.Always (step localNode localConfig) (fun s x => ¬ Oversteps localNode localConfig s x)
      (genesis 34) storedRun := by
    refine ⟨id, ?_, True.intro⟩
    rintro ⟨_, _, -, -, large, -⟩
    revert large
    decide
  exact (bytes_bounded_iff fun _ => rfl).mpr always storedRun [] (List.append_nil _).symm storingCode

def tinyConfig : Config Bytes := { localConfig with limits := { runtimeLimits with maxKontracStorageSize := 33 } }

def tinyRun : List (Extrinsic tinyConfig.limits Bytes Signer) :=
  [⟨1, .signed .alice, .uploadCode ⟨storingCode, storingCode_fits⟩⟩,
    executes tinyConfig 1 .alice storingCode 10 10 10 34]

theorem tiny_limit_overstepped :
    ¬ byteSize ((Runs.exec (step localNode tinyConfig) (freshState tinyConfig 34) tinyRun).storages storingCode) ≤
      tinyConfig.limits.maxKontracStorageSize.toNat := by
  decide

end Runs

end KontractsProof.Pallet
