import Kontracts.Pallet.Codecs
import Kontracts.Pallet.Declared

namespace KontractsModel.Pallet

open KontractsModel.Executor

/-- The settlement of a change between two sizes, in exact integers. -/
def settlement (currency : Currency) (account : AccountData) (before after : ℕ) (declared : ℤ) :
    Except Abort Settlement :=
  if after = before then .ok (.proceed account)
  else if declared < (after : ℤ) - before then
    -- the size that was not freed as declared is slashed modulo 2^32
    .ok (.exceeded (currency.slash account (if before < after then after - before else 2 ^ 32 - (before - after))))
  else if after < before then .ok (.proceed (currency.unreserve account (before - after)))
  else
    match currency.reserve account (after - before) with
    | some account => .ok (.proceed account)
    | none => .error (.dispatch (.module .depositError))

def replaced {limits : Limits} (currency : Currency) (account : AccountData) (before after : KontractStorage limits)
    (declared : ℤ) : Except Abort (Verdict limits) :=
  match settlement currency account (byteSize before) (byteSize after) declared with
  | .ok (.proceed account) => .ok (.committed after account)
  | .ok (.exceeded account) => .ok (.exceeded account)
  | .error abort => .error abort

def Storable (limits : Limits) (final : Executor.KontractStorage) : Prop :=
  final.len ≤ limits.maxKontracStorageSize.toNat ∧ ∀ entry ∈ final.entries,
    entry.1.length ≤ limits.maxKontracStorageKeySize.toNat ∧ entry.2.length ≤ limits.maxKontracStorageValueSize.toNat

/-- Room for a map of so many entries, with a digest for each key and values up to this length. -/
structure HasRoom (limits : Limits) (count length : ℕ) : Prop where
  entries : count ≤ limits.maxKontracStorageSize.toNat
  digests : 32 ≤ limits.maxKontracStorageKeySize.toNat
  values : length ≤ limits.maxKontracStorageValueSize.toNat

inductive Concludes (limits : Limits) (final : Executor.KontractStorage) :
    Except Abort Settlement → Except Abort (Verdict limits) → Prop
  | stored (account : AccountData) (storage : KontractStorage limits) (same : storage.raw = final) :
      Concludes limits final (.ok (.proceed account)) (.ok (.committed storage account))
  | refused (account : AccountData) (unstorable : ¬ Storable limits final) :
      Concludes limits final (.ok (.proceed account))
        (.error (.dispatch (.module (.executionCode .unexpectedBehavoiur))))
  | exceeded (account : AccountData) :
      Concludes limits final (.ok (.exceeded account)) (.ok (.exceeded account))
  | unpaid (abort : Abort) : Concludes limits final (.error abort) (.error abort)

section Executions

variable {Id : Type} (node : Node) (cfg : Config Id)

inductive Executed (code : Option (Code cfg.limits)) (storage : KontractStorage cfg.limits) (account : AccountData)
    (declared : ℤ) (fuel reads writes : UInt32) : Except Abort (Verdict cfg.limits) → Prop
  | absent (missing : code = none) :
      Executed code storage account declared fuel reads writes (.error (.dispatch (.module .invalidCodeId)))
  | stopped {binary : Code cfg.limits} {exit : Exit} (present : code = some binary)
      (ran : Executor.executeCode node binary.1 (encodeStorage storage) fuel reads writes = .error exit) :
      Executed code storage account declared fuel reads writes (.error (.ofExit exit))
  | left {final : Executor.KontractStorage} {outcome : Except Abort (Verdict cfg.limits)}
      (leaves : Leaves node cfg code storage fuel reads writes final)
      (concludes : Concludes cfg.limits final
        (settlement cfg.currency account (byteSize storage) (mapSize final) declared) outcome) :
      Executed code storage account declared fuel reads writes outcome

end Executions

end KontractsModel.Pallet

namespace KontractsProof.Pallet

open Scale KontractsModel KontractsModel.Executor KontractsModel.Pallet

section Settlements

theorem Asks.settlement {before after : ℕ} {declared : ℤ} {wanted : Request} (asks : Asks before after declared wanted)
    (currency : Currency) (account : AccountData) :
    wanted.apply currency account = settlement currency account before after declared := by
  unfold KontractsModel.Pallet.settlement
  cases asks with
  | nothing same => rw [if_pos same]; rfl
  | unreserve less within => rw [if_neg (by omega), if_neg (by omega), if_pos less]; rfl
  | reserve more within => rw [if_neg (by omega), if_neg (by omega), if_neg (by omega)]; rfl
  | slashGrown more beyond => rw [if_neg (by omega), if_pos beyond, if_pos more]; rfl
  | slashFreed less beyond => rw [if_neg (by omega), if_pos beyond, if_neg (by omega)]; rfl

theorem storable_iff {limits : Limits} {final : Executor.KontractStorage} :
    Storable limits final ↔ ∃ storage : KontractStorage limits, storage.raw = final := by
  constructor
  · rintro ⟨count, entries⟩
    exact BoundedBTreeMap.exists_raw count entries
  · rintro ⟨storage, rfl⟩
    exact ⟨storage.raw_len, fun _ member => storage.raw_entries member⟩

theorem storable_of_room {limits : Limits} {count length : ℕ} (room : HasRoom limits count length)
    {final : Executor.KontractStorage} (few : final.len ≤ count)
    (each : ∀ entry ∈ final.entries, entry.1.length = 32 ∧ entry.2.length ≤ length) : Storable limits final := by
  refine ⟨few.trans room.entries, fun entry member => ?_⟩
  obtain ⟨digest, short⟩ := each entry member
  exact ⟨digest ▸ room.digests, short.trans room.values⟩

variable {Id : Type} {cfg : Config Id} {final : Executor.KontractStorage}

theorem concludes_iff {newStorageRaw : RawKontractStorage} (encoded : encodeKontractStorage final = .ok newStorageRaw)
    (settled : Except Abort Settlement) (outcome : Except Abort (Verdict cfg.limits)) :
    Concludes cfg.limits final settled outcome ↔ (settled >>= conclude cfg newStorageRaw) = outcome := by
  have reads := (encodeKontractStorage_ok encoded).2.2
  have accepts : (∃ stored, decodeStorage cfg.limits newStorageRaw = some stored) ↔ Storable cfg.limits final :=
    decodeStorage_iff encoded
  constructor
  · intro concludes
    cases concludes with
    | stored account storage same =>
      have same' : encodeMap encodeVec encodeVec storage.raw = newStorageRaw := by
        rw [same]
        exact (encodeKontractStorage_ok encoded).1.symm
      have decoded := decodeStorage_encoded storage
      rw [same'] at decoded
      simp only [ok_bind, conclude, decoded]
    | refused account unstorable =>
      have rejected : decodeStorage cfg.limits newStorageRaw = none := by
        by_contra accepted
        exact unstorable (accepts.mp (Option.ne_none_iff_exists'.mp accepted))
      simp only [ok_bind, conclude, rejected]
    | exceeded | unpaid => rfl
  · rintro rfl
    cases settled with
    | error abort => exact .unpaid abort
    | ok settled =>
      cases settled with
      | exceeded account => exact .exceeded account
      | proceed account =>
        simp only [ok_bind, conclude]
        cases decoded : decodeStorage cfg.limits newStorageRaw with
        | none =>
          refine .refused account fun storable => ?_
          obtain ⟨storage, accepted⟩ := accepts.mpr storable
          cases decoded.symm.trans accepted
        | some storage => exact .stored account storage (decodeStorage_raw reads decoded)

end Settlements

section Executions

variable {Id : Type} {node : Node} {cfg : Config Id} {code : Option (Code cfg.limits)}
  {storage before after : KontractStorage cfg.limits} {account : AccountData} {expected : Int32}
  {fuel reads writes : UInt32}

theorem execution_stopped {binary : Code cfg.limits} {exit : Exit}
    (ran : Executor.executeCode node binary.1 (encodeStorage storage) fuel reads writes = .error exit) :
    execution node cfg (some binary) storage account expected fuel reads writes = .error (.ofExit exit) := by
  rw [execution_eq]
  simp only [sizeChange, getStorageSize_storage, ran, Except.mapError, ok_bind, error_bind]

theorem execution_concludes {final : Executor.KontractStorage}
    (leaves : Leaves node cfg code storage fuel reads writes final) (smallBefore : byteSize storage < 2 ^ 31)
    (smallAfter : mapSize final < 2 ^ 31) (account : AccountData) (expected : Int32)
    (outcome : Except Abort (Verdict cfg.limits)) :
    Concludes cfg.limits final (settlement cfg.currency account (byteSize storage) (mapSize final) expected.toInt)
        outcome ↔
      execution node cfg code storage account expected fuel reads writes = outcome := by
  obtain ⟨raw, x, wanted, encoded, -, -, -, asks, ran⟩ :=
    execution_leaves leaves smallBefore smallAfter account expected
  rw [concludes_iff encoded, ran, asks.settlement]

theorem execution_replaces (leaves : Leaves node cfg code before fuel reads writes after.raw)
    (smallBefore : byteSize before < 2 ^ 31) (smallAfter : byteSize after < 2 ^ 31) (account : AccountData)
    (expected : Int32) :
    execution node cfg code before account expected fuel reads writes =
      replaced cfg.currency account before after expected.toInt := by
  refine (execution_concludes leaves smallBefore smallAfter account expected _).mp ?_
  unfold replaced
  change Concludes cfg.limits after.raw (settlement cfg.currency account (byteSize before) (byteSize after) _) _
  cases settlement cfg.currency account (byteSize before) (byteSize after) expected.toInt with
  | error abort => exact .unpaid abort
  | ok settled =>
    cases settled with
    | proceed account => exact .stored account after rfl
    | exceeded account => exact .exceeded account

theorem executed_exactly (smallBefore : byteSize storage < 2 ^ 31)
    (smallAfter : ∀ final, Leaves node cfg code storage fuel reads writes final → mapSize final < 2 ^ 31)
    (outcome : Except Abort (Verdict cfg.limits)) :
    Executed node cfg code storage account expected.toInt fuel reads writes outcome ↔
      execution node cfg code storage account expected fuel reads writes = outcome := by
  constructor
  · intro executed
    cases executed with
    | absent missing => subst missing; rfl
    | stopped present ran => subst present; exact execution_stopped ran
    | left leaves concludes =>
      have concluded := execution_concludes leaves smallBefore (smallAfter _ leaves) account expected outcome
      exact concluded.mp concludes
  · intro ended
    cases code with
    | none => exact ended ▸ .absent rfl
    | some binary =>
      cases ran : Executor.executeCode node binary.1 (encodeStorage storage) fuel reads writes with
      | error exit =>
        subst ended
        rw [execution_stopped ran]
        exact .stopped rfl ran
      | ok raw =>
        obtain ⟨final, encoded⟩ := Executor.executeCode_encoded ran
        have leaves : Leaves node cfg (some binary) storage fuel reads writes final := ⟨binary, raw, rfl, ran, encoded⟩
        have concluded := execution_concludes leaves smallBefore (smallAfter final leaves) account expected outcome
        exact .left leaves (concluded.mpr ended)

end Executions

section Calls

variable {Id Account : Type} [DecidableEq Id] [DecidableEq Account] {node : Node} {cfg : Config Id}
  {s : State cfg.limits Id Account} {codeId : Id} {fuel reads writes : UInt32}

/-- A signed call to execute a kontract does what the exact settlement of the map that its guest leaves says:
    the result, the stored map, the signer's account and the events all follow from one outcome. -/
theorem execute_code_exact (runtime : cfg.limits = runtimeLimits)
    (smallAfter : ∀ final, Leaves node cfg (s.codes codeId) (s.storages codeId) fuel reads writes final →
      mapSize final < 2 ^ 31) (block : ℕ) (who : Account) (expected : Int32) :
    ∃ outcome, (∀ outcome', Executed node cfg (s.codes codeId) (s.storages codeId) (s.accounts who) expected.toInt fuel
          reads writes outcome' ↔ outcome = outcome') ∧
      Effect node cfg block who codeId outcome s
        (dispatch node cfg s (executes cfg block who codeId fuel reads writes expected)).1
        (step node cfg s (executes cfg block who codeId fuel reads writes expected)) := by
  have fits : SizesFit cfg.limits := runtime ▸ runtimeLimits_fit
  exact ⟨_, executed_exactly (byteSize_lt fits _) smallAfter,
    executes_effect node s block who codeId fuel reads writes expected⟩

theorem settlement_error {currency : Currency} {account : AccountData} {before after : ℕ} {declared : ℤ} {abort : Abort}
    (unpaid : settlement currency account before after declared = .error abort) :
    abort = .dispatch (.module .depositError) := by
  unfold settlement at unpaid
  split at unpaid
  · cases unpaid
  · split at unpaid
    · cases unpaid
    · split at unpaid
      · cases unpaid
      · split at unpaid
        · cases unpaid
        · cases unpaid
          rfl

theorem settlement_proceeds_iff {currency : Currency} (reserving : currency.Reserving)
    (granting : ∀ account amount, amount ≤ account.free → (currency.reserve account amount).isSome)
    (account : AccountData) (before after : ℕ) (declared : ℤ) :
    (∃ account', settlement currency account before after declared = .ok (.proceed account')) ↔
      ((after : ℤ) - before ≤ declared ∨ after = before) ∧ after ≤ before + account.free := by
  unfold settlement
  by_cases same : after = before
  · rw [if_pos same]
    exact ⟨fun _ => ⟨.inr same, by omega⟩, fun _ => ⟨account, rfl⟩⟩
  rw [if_neg same]
  by_cases beyond : declared < (after : ℤ) - before
  · rw [if_pos beyond]
    refine ⟨fun ⟨_, different⟩ => (by cases different), fun ⟨within, _⟩ => ?_⟩
    rcases within with within | still
    · exact absurd within (not_le.mpr beyond)
    · exact absurd still same
  rw [if_neg beyond]
  by_cases less : after < before
  · rw [if_pos less]
    exact ⟨fun _ => ⟨.inl (not_lt.mp beyond), by omega⟩, fun _ => ⟨_, rfl⟩⟩
  rw [if_neg less]
  constructor
  · rintro ⟨account', settled⟩
    split at settled
    · rename_i reserved
      have covered := (reserving.reserve _ _ _ reserved).1
      exact ⟨.inl (not_lt.mp beyond), by omega⟩
    · cases settled
  · rintro ⟨-, covered⟩
    obtain ⟨account', reserved⟩ := Option.isSome_iff_exists.mp (granting account (after - before) (by omega))
    exact ⟨account', by rw [reserved]⟩

/-- A call goes through exactly where the map that its guest leaves fits the storage, its growth was declared and
    its signer can pay for it. -/
theorem commits_iff (reserving : cfg.currency.Reserving)
    (granting : ∀ account amount, amount ≤ account.free → (cfg.currency.reserve account amount).isSome)
    {final : Executor.KontractStorage}
    (leaves : Leaves node cfg (s.codes codeId) (s.storages codeId) fuel reads writes final)
    (smallBefore : byteSize (s.storages codeId) < 2 ^ 31) (smallAfter : mapSize final < 2 ^ 31) (block : ℕ)
    (who : Account) (expected : Int32) :
    (dispatch node cfg s (executes cfg block who codeId fuel reads writes expected)).1 =
        .ok (.codeExecuted codeId who) ↔
      Storable cfg.limits final ∧
        ((mapSize final : ℤ) - byteSize (s.storages codeId) ≤ expected.toInt ∨
          mapSize final = byteSize (s.storages codeId)) ∧
        mapSize final ≤ byteSize (s.storages codeId) + (s.accounts who).free := by
  have effect := executes_effect node s block who codeId fuel reads writes expected
  have concludes := execution_concludes leaves smallBefore smallAfter (s.accounts who) expected
  rw [effect.executed_iff, storable_iff,
    ← settlement_proceeds_iff reserving granting (s.accounts who) (byteSize (s.storages codeId)) (mapSize final)
      expected.toInt]
  constructor
  · rintro ⟨storage, account, ended⟩
    have concluded := (concludes _).mpr ended
    generalize settlement cfg.currency (s.accounts who) (byteSize (s.storages codeId)) (mapSize final) expected.toInt =
      settled at concluded ⊢
    cases concluded with
    | stored _ _ same => exact ⟨⟨storage, same⟩, account, rfl⟩
  · rintro ⟨⟨storage, same⟩, account, settled⟩
    refine ⟨storage, account, (concludes _).mp ?_⟩
    rw [settled]
    exact .stored account storage same

theorem balances_granting (account : AccountData) (amount : ℕ) (covered : amount ≤ account.free) :
    (balances.reserve account amount).isSome := by
  simp only [balances, if_pos covered, Option.isSome_some]

theorem toggling_commits_iff :
    (dispatch localNode localConfig togglingState
        (executes localConfig 1 Signer.alice togglingCode 10 10 10 34)).1 = .ok (.codeExecuted togglingCode .alice) ↔
      Storable localConfig.limits (emptyKeyHolds [0]) ∧
        ((mapSize (emptyKeyHolds [0]) : ℤ) - byteSize (togglingState.storages togglingCode) ≤ (34 : Int32).toInt ∨
          mapSize (emptyKeyHolds [0]) = byteSize (togglingState.storages togglingCode)) ∧
        mapSize (emptyKeyHolds [0]) ≤
          byteSize (togglingState.storages togglingCode) + (togglingState.accounts .alice).free :=
  commits_iff balances_reserving balances_granting toggling_leaves (by decide) (by decide) 1 .alice 34

theorem toggling_exact :
    ∃ outcome, (∀ outcome', Executed localNode localConfig (togglingState.codes togglingCode)
          (togglingState.storages togglingCode) (togglingState.accounts .alice) (35 : Int32).toInt 10 10 10 outcome' ↔
        outcome = outcome') ∧
      Effect localNode localConfig 1 .alice togglingCode outcome togglingState
        (dispatch localNode localConfig togglingState (executing .alice togglingCode 35)).1 toggledState :=
  execute_code_exact rfl (fun _ => toggling_size) 1 .alice 35

end Calls

end KontractsProof.Pallet
