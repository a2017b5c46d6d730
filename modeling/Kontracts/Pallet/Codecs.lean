import Kontracts.Executor.Digests
import Kontracts.Pallet.Isolation
import Kontracts.Pallet.Refinement
import Kontracts.Pallet.Requests

namespace KontractsProof.Pallet

open Scale KontractsModel KontractsModel.Executor KontractsModel.Pallet

section Codecs

variable {limits : Limits}

theorem decodeStorage_encoded (storage : KontractStorage limits) :
    decodeStorage limits (encodeMap encodeVec encodeVec storage.raw) = some storage := by
  have read := BoundedBTreeMap.decode_reads (UInt32.toNat_lt _) (UInt32.toNat_lt _) (UInt32.toNat_lt _) storage
  rw [decodeStorage, read.whole]
  rfl

theorem decodeStorage_encodeStorage (storage : KontractStorage limits) :
    decodeStorage limits (encodeStorage storage) = some storage := by
  rw [encodeStorage, BoundedBTreeMap.encode_raw]
  exact decodeStorage_encoded storage

theorem decodeStorage_iff {final : Executor.KontractStorage} {raw : RawKontractStorage}
    (encoded : encodeKontractStorage final = .ok raw) :
    (∃ stored, decodeStorage limits raw = some stored) ↔
      final.len ≤ limits.maxKontracStorageSize.toNat ∧
        ∀ entry ∈ final.entries, entry.1.length ≤ limits.maxKontracStorageKeySize.toNat ∧
          entry.2.length ≤ limits.maxKontracStorageValueSize.toNat := by
  obtain ⟨rfl, -, reads⟩ := encodeKontractStorage_ok encoded
  constructor
  · rintro ⟨stored, accepted⟩
    obtain rfl := decodeStorage_raw reads accepted
    exact ⟨stored.raw_len, fun entry member => stored.raw_entries member⟩
  · rintro ⟨count, entries⟩
    obtain ⟨stored, rfl⟩ := BoundedBTreeMap.exists_raw count entries
    exact ⟨stored, decodeStorage_encoded stored⟩

end Codecs

section Errors

theorem getStorageSize_error {raw : RawKontractStorage} {abort : Abort} (failed : getStorageSize raw = .error abort) :
    ∃ why, abort = .panic why := by
  unfold getStorageSize at failed
  split at failed <;> cases failed
  exact ⟨_, rfl⟩

theorem checkedI32_error {overflowChecks : Bool} {overflow : Panic} {exact : ℤ} {wrapped : Int32} {abort : Abort}
    (failed : checkedI32 overflowChecks overflow exact wrapped = .error abort) : abort = .panic overflow := by
  unfold checkedI32 at failed
  split at failed
  · cases failed
  · split at failed <;> cases failed
    rfl

theorem request_error {overflowChecks : Bool} {x expected : Int32} {abort : Abort}
    (failed : request overflowChecks x expected = .error abort) : ∃ why, abort = .panic why := by
  unfold request at failed
  split at failed
  · cases failed
  · split at failed
    · rcases bind_error failed with overflowed | ⟨freed, -, failed⟩
      · exact ⟨_, checkedI32_error overflowed⟩
      · cases failed
    · split at failed <;> cases failed

variable {Id : Type} {node : Node} {cfg : Config Id} {code : Option (Code cfg.limits)}
  {storage : KontractStorage cfg.limits} {account : AccountData} {expected : Int32} {fuel reads writes : UInt32}

theorem sizeChange_decodes (wrapped : ∀ name ∈ ["set", "get", "remove"], node.wasmtime.funcWrap name) :
    sizeChange node cfg code storage fuel reads writes ≠
      .error (.dispatch (.module (.executionCode .impossibleDecodingKontractStorage))) := by
  intro failed
  unfold sizeChange at failed
  cases code with
  | none => cases failed
  | some binary =>
    simp only [getStorageSize_storage, ok_bind] at failed
    rcases bind_error failed with stopped | ⟨raw, -, failed⟩
    · cases ran : Executor.executeCode node binary.1 (encodeStorage storage) fuel reads writes with
      | ok raw => rw [ran] at stopped; cases stopped
      | error exit =>
        rw [ran] at stopped
        cases exit with
        | panic why => cases stopped
        | error error =>
          cases stopped
          have listed := Executor.executeCode_error wrapped ⟨_, (storage_readable storage).whole⟩ ran
          simp [Executor.runErrors] at listed
    · rcases bind_error failed with unsized | ⟨size, -, failed⟩
      · obtain ⟨why, different⟩ := getStorageSize_error unsized
        cases different
      · rcases bind_error failed with overflowed | ⟨x, -, failed⟩
        · cases checkedI32_error overflowed
        · cases failed

theorem execution_decodes (wrapped : ∀ name ∈ ["set", "get", "remove"], node.wasmtime.funcWrap name) :
    execution node cfg code storage account expected fuel reads writes ≠
      .error (.dispatch (.module (.executionCode .impossibleDecodingKontractStorage))) := by
  intro failed
  rw [execution_eq] at failed
  rcases bind_error failed with stuck | ⟨⟨raw, x⟩, -, failed⟩
  · exact sizeChange_decodes wrapped stuck
  rcases bind_error failed with overflowed | ⟨wanted, -, failed⟩
  · obtain ⟨why, different⟩ := request_error overflowed
    cases different
  rcases bind_error failed with refused | ⟨settlement, -, failed⟩
  · cases wanted with
    | nothing | unreserve | slash => cases refused
    | reserve amount =>
      simp only [Request.apply] at refused
      split at refused <;> cases refused
  · cases settlement with
    | exceeded account => cases failed
    | proceed account =>
      unfold conclude at failed
      cases decoded : decodeStorage cfg.limits raw <;> simp [decoded] at failed

end Errors

section Steps

variable {Id Account : Type} [DecidableEq Id] [DecidableEq Account] {node : Node} {cfg : Config Id}
  {s s₀ : State cfg.limits Id Account}

theorem dispatch_decodes (wrapped : ∀ name ∈ ["set", "get", "remove"], node.wasmtime.funcWrap name)
    (s : State cfg.limits Id Account) (x : Extrinsic cfg.limits Id Account) :
    (dispatch node cfg s x).1 ≠
      .error (.dispatch (.module (.executionCode .impossibleDecodingKontractStorage))) := by
  obtain ⟨block, origin, call⟩ := x
  intro failed
  cases call with
  | uploadCode | deleteCode | updateCode => cases origin <;> cases failed
  | executeCode codeId expected fuel reads writes =>
    cases origin with
    | root | none => cases failed
    | signed who =>
      have effect := execute_effect node block who codeId expected fuel reads writes s
      rw [effect.result] at failed
      unfold returned at failed
      split at failed <;> cases failed
      rename_i stopped
      exact execution_decodes wrapped stopped

theorem step_digested (digested : ∀ codeId, Executor.Digested (s.storages codeId).raw)
    (x : Extrinsic cfg.limits Id Account) (codeId : Id) :
    Executor.Digested ((step node cfg s x).storages codeId).raw := by
  rcases storages_step node s x codeId with same | ⟨_, _, _, _, _, _, _, -, executed⟩
  · rw [same]
    exact digested codeId
  · obtain ⟨binary, burned, caller, -, holds, stored⟩ :=
      committed_tracks Executor.digested_tracked (fun _ => digested codeId) executed
    rw [← stored]
    exact holds

theorem run_digested (empty : ∀ codeId, s₀.storages codeId = emptyStorage cfg.limits)
    (xs : List (Extrinsic cfg.limits Id Account)) (codeId : Id) :
    Executor.Digested ((Runs.exec (step node cfg) s₀ xs).storages codeId).raw := by
  have start : ∀ codeId, Executor.Digested (s₀.storages codeId).raw := by
    intro codeId key value present
    rw [empty] at present
    cases present
  have kept : ∀ (s : State cfg.limits Id Account) x, (∀ codeId, Executor.Digested (s.storages codeId).raw) →
      ∀ codeId, Executor.Digested ((step node cfg s x).storages codeId).raw :=
    fun _ x digested => step_digested digested x
  exact Runs.exec_preserves kept xs start codeId

/-- The pallet's bounded codec and the executor's plain one agree in both directions, and the key bound
    of the pallet never decides between them. -/
theorem codecs_agree (wrapped : ∀ name ∈ ["set", "get", "remove"], node.wasmtime.funcWrap name)
    (empty : ∀ codeId, s₀.storages codeId = emptyStorage cfg.limits) (xs : List (Extrinsic cfg.limits Id Account)) :
    (∀ storage : KontractStorage cfg.limits, decodeKontractStorage (encodeStorage storage) = some (storage.raw, [])) ∧
      (∀ (s : State cfg.limits Id Account) (x : Extrinsic cfg.limits Id Account), (dispatch node cfg s x).1 ≠
        .error (.dispatch (.module (.executionCode .impossibleDecodingKontractStorage)))) ∧
      (∀ final raw, encodeKontractStorage final = .ok raw →
        ((∃ stored, decodeStorage cfg.limits raw = some stored) ↔
          final.len ≤ cfg.limits.maxKontracStorageSize.toNat ∧
            ∀ entry ∈ final.entries, entry.1.length ≤ cfg.limits.maxKontracStorageKeySize.toNat ∧
              entry.2.length ≤ cfg.limits.maxKontracStorageValueSize.toNat) ∧
        ∀ stored, decodeStorage cfg.limits raw = some stored → stored.raw = final) ∧
      (∀ codeId, ∀ entry ∈ ((Runs.exec (step node cfg) s₀ xs).storages codeId).raw.entries, entry.1.length = 32) ∧
      (32 ≤ cfg.limits.maxKontracStorageKeySize.toNat → ∀ codeId code fuel reads writes raw final,
        Executor.executeCode node code (encodeStorage ((Runs.exec (step node cfg) s₀ xs).storages codeId)) fuel reads
          writes = .ok raw →
        encodeKontractStorage final = .ok raw →
        ((∃ stored, decodeStorage cfg.limits raw = some stored) ↔
          final.len ≤ cfg.limits.maxKontracStorageSize.toNat ∧
            ∀ entry ∈ final.entries, entry.2.length ≤ cfg.limits.maxKontracStorageValueSize.toNat)) := by
  refine ⟨fun storage => (storage_readable storage).whole, dispatch_decodes wrapped, fun final raw encoded => ?_,
    fun codeId entry member => ?_, ?_⟩
  · exact ⟨decodeStorage_iff encoded, fun stored accepted => decodeStorage_raw (encodeKontractStorage_ok encoded).2.2
      accepted⟩
  · exact run_digested empty xs codeId entry.1 entry.2 ((BTreeMap.get_iff_mem _ _ _).mpr member)
  · intro room codeId code fuel reads writes raw final ran encoded
    obtain ⟨burned, caller, digested, encoded'⟩ := Executor.executeCode_tracks Executor.digested_tracked
      (fun module decoded ready => by
        rw [prepared_decoded ready]
        exact run_digested empty xs codeId) ran
    obtain rfl := encodeKontractStorage_injective encoded' encoded
    rw [decodeStorage_iff encoded]
    refine and_congr_right fun _ => forall₂_congr fun entry member => and_iff_right ?_
    rw [digested entry.1 entry.2 ((BTreeMap.get_iff_mem _ _ _).mpr member)]
    exact room

theorem stored_codecs_agree :
    ((Runs.exec (step localNode localConfig) (genesis 34) storedRun).storages storingCode).raw.entries ≠ [] ∧
      ∀ entry ∈ ((Runs.exec (step localNode localConfig) (genesis 34) storedRun).storages storingCode).raw.entries,
        entry.1.length = 32 :=
  ⟨by decide, (codecs_agree (fun _ _ => rfl) (fun _ => rfl) storedRun).2.2.2.1 storingCode⟩

end Steps

end KontractsProof.Pallet
