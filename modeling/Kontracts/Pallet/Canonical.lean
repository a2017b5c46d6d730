import Kontracts.Pallet.Codecs
import Kontracts.Pallet.Declared

namespace KontractsModel.Pallet

open KeyValue Scale KontractsModel.Executor

section Outputs

variable {limits : Limits} (node : Node) (code : Bytes) (storage : KontractStorage limits) (fuel reads writes : UInt32)

def leftUnder : Table Bytes Value :=
  replay storage.raw.get (digestWrites node.toHost (hostTrace node code (encodeStorage storage) fuel reads writes))

def OnlyReads : Prop :=
  ∀ event ∈ hostTrace node code (encodeStorage storage) fuel reads writes, event.write = none

end Outputs

end KontractsModel.Pallet

namespace KontractsProof.Pallet

open Scale KeyValue KontractsModel KontractsModel.Executor KontractsModel.Pallet

section Outputs

variable {limits : Limits} {node node' : Node} {code code' : Bytes} {storage : KontractStorage limits}
  {fuel reads writes fuel' reads' writes' : UInt32} {raw raw' : RawKontractStorage}

theorem returned_leftUnder
    (returned : Executor.executeCode node code (encodeStorage storage) fuel reads writes = .ok raw) :
    ∃ final, final.get = leftUnder node code storage fuel reads writes ∧ encodeKontractStorage final = .ok raw := by
  obtain ⟨burned, caller, replays, encoded⟩ := Executor.executeCode_tracks (Executor.replays_tracked storage.raw)
    (fun module decoded ready => by rw [prepared_decoded ready]; rfl) returned
  exact ⟨caller.data.storage, replays, encoded⟩

theorem returned_eq (returned : Executor.executeCode node code (encodeStorage storage) fuel reads writes = .ok raw)
    (returned' : Executor.executeCode node' code' (encodeStorage storage) fuel' reads' writes' = .ok raw')
    (same : leftUnder node code storage fuel reads writes = leftUnder node' code' storage fuel' reads' writes') :
    raw = raw' := by
  obtain ⟨final, left, encoded⟩ := returned_leftUnder returned
  obtain ⟨final', left', encoded'⟩ := returned_leftUnder returned'
  have equal : final = final' :=
    BTreeMap.ext_get fun digest => congrFun (left.trans (same.trans left'.symm)) digest
  subst equal
  exact Except.ok.inj (encoded.symm.trans encoded')

theorem returned_unchanged
    (returned : Executor.executeCode node code (encodeStorage storage) fuel reads writes = .ok raw)
    (unchanged : leftUnder node code storage fuel reads writes = storage.raw.get) : raw = encodeStorage storage := by
  obtain ⟨final, left, encoded⟩ := returned_leftUnder returned
  have equal : final = storage.raw := BTreeMap.ext_get fun digest => congrFun (left.trans unchanged) digest
  rw [(encodeKontractStorage_ok encoded).1, equal, encodeStorage, BoundedBTreeMap.encode_raw]

theorem only_reads_leftUnder (reading : OnlyReads node code storage fuel reads writes) :
    leftUnder node code storage fuel reads writes = storage.raw.get := by
  rw [leftUnder, Executor.digestWrites_only_reads reading, replay_nil]

end Outputs

section Executions

variable {Id : Type} {cfg : Config Id} {node : Node} {storage : KontractStorage cfg.limits}
  {fuel reads writes : UInt32}

theorem subI32_self (overflowChecks : Bool) (size : Int32) : subI32 overflowChecks size size = .ok 0 := by
  have inside : -2 ^ 31 ≤ size.toInt - size.toInt ∧ size.toInt - size.toInt < 2 ^ 31 := by omega
  simp only [subI32, checkedI32, if_pos inside, Int32.sub_self]

theorem unchanged_execution {binary : Code cfg.limits}
    (returned : Executor.executeCode node binary.1 (encodeStorage storage) fuel reads writes =
      .ok (encodeStorage storage)) (account : AccountData) (expected : Int32) :
    sizeChange node cfg (some binary) storage fuel reads writes = .ok (encodeStorage storage, 0) ∧
      execution node cfg (some binary) storage account expected fuel reads writes =
        .ok (.committed storage account) := by
  have changed : sizeChange node cfg (some binary) storage fuel reads writes = .ok (encodeStorage storage, 0) := by
    simp only [sizeChange, getStorageSize_storage, returned, Except.mapError, ok_bind, subI32_self]
    rfl
  refine ⟨changed, ?_⟩
  have requested : request cfg.overflowChecks 0 expected = .ok .nothing := rfl
  simp only [execution_eq, changed, ok_bind, requested, Request.apply, conclude, decodeStorage_encodeStorage]

end Executions

/-- The bytes an execution returns depend on what it leaves under every digest and on nothing else; if
    that is what was there before, they are the bytes it was given and nothing is settled. -/
theorem output_canonical {Id : Type} {cfg : Config Id} {node : Node} {code : Bytes}
    {storage : KontractStorage cfg.limits} {fuel reads writes : UInt32} {raw : RawKontractStorage}
    (returned : Executor.executeCode node code (encodeStorage storage) fuel reads writes = .ok raw) :
    (∀ node' code' fuel' reads' writes' raw',
      Executor.executeCode node' code' (encodeStorage storage) fuel' reads' writes' = .ok raw' →
      ((∀ digest, leftUnder node code storage fuel reads writes digest =
          leftUnder node' code' storage fuel' reads' writes' digest) → raw = raw') ∧
        (node'.toHost = node.toHost →
          Rearranged node.toHost (hostTrace node code (encodeStorage storage) fuel reads writes)
            (hostTrace node' code' (encodeStorage storage) fuel' reads' writes') → raw = raw')) ∧
      (OnlyReads node code storage fuel reads writes ∨
          (∀ digest, leftUnder node code storage fuel reads writes digest = storage.raw.get digest) →
        raw = encodeStorage storage ∧
          ∀ binary : Code cfg.limits, binary.1 = code → ∀ account expected,
            sizeChange node cfg (some binary) storage fuel reads writes = .ok (encodeStorage storage, 0) ∧
              execution node cfg (some binary) storage account expected fuel reads writes =
                .ok (.committed storage account)) := by
  refine ⟨fun node' code' fuel' reads' writes' raw' returned' => ⟨fun same => ?_, fun host rearranged => ?_⟩,
    fun neutral => ?_⟩
  · exact returned_eq returned returned' (funext same)
  · refine returned_eq returned returned' ?_
    simp only [leftUnder, host]
    exact Executor.rearranged_replay rearranged _
  · have unchanged : leftUnder node code storage fuel reads writes = storage.raw.get := by
      rcases neutral with reading | cancelled
      · exact only_reads_leftUnder reading
      · exact funext cancelled
    obtain rfl := returned_unchanged returned unchanged
    refine ⟨rfl, ?_⟩
    rintro binary rfl account expected
    exact unchanged_execution returned account expected

section Echoed

def echoedStorage : KontractStorage localConfig.limits :=
  (step echoingNode localConfig echoedState (executing .alice echoingCode 0)).storages echoingCode

theorem echoed_held :
    encodeStorage echoedStorage = [4, 128] ++ List.replicate 32 0 ++ [4, 4] ∧
      echoedStorage.raw.get (echoingNode.hashed []) = some [4] := by
  decide +kernel

theorem echoed_unchanged (digest : Bytes) :
    leftUnder echoingNode echoingCode echoedStorage 10 10 10 digest = echoedStorage.raw.get digest := by
  have trace : hostTrace echoingNode echoingCode (encodeStorage echoedStorage) 10 10 10 =
      [.get [] (some [4]) 0, .set [] [4]] := by
    rw [echoed_held.1]
    decide
  rw [leftUnder, trace]
  change Function.update echoedStorage.raw.get (echoingNode.hashed []) (some [4]) digest = _
  rw [← echoed_held.2, Function.update_eq_self]

theorem echoed_canonical :
    [4, 128] ++ List.replicate 32 0 ++ [4, 4] = encodeStorage echoedStorage ∧
      execution echoingNode localConfig (some ⟨echoingCode, echoingCode_fits⟩) echoedStorage ⟨0, 0⟩ (-100) 10 10 10 =
        .ok (.committed echoedStorage ⟨0, 0⟩) := by
  have returned : Executor.executeCode echoingNode echoingCode (encodeStorage echoedStorage) 10 10 10 =
      .ok ([4, 128] ++ List.replicate 32 0 ++ [4, 4]) := by
    rw [echoed_held.1]
    decide
  have canonical := (output_canonical returned).2 (.inr echoed_unchanged)
  exact ⟨canonical.1, (canonical.2 ⟨echoingCode, echoingCode_fits⟩ rfl ⟨0, 0⟩ (-100)).2⟩

end Echoed

end KontractsProof.Pallet
