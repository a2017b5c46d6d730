import Kontracts.Guest.PlainMap
import Kontracts.Pallet.Samples

namespace KontractsModel.Pallet

open Scale KeyValue KontractsModel.Executor KontractsModel.Guest

def meant (kontract : Kontract Unit) (map : Table Key Value) (budget : ℕ × ℕ) : Option (Table Key Value) :=
  match kontract.run meaning ⟨map, budget.1, budget.2⟩ with
  | .ok (_, plain) => some plain.table
  | .error _ => none

/-- The bytes that a map takes: 33 for the digest of a key and one for the length of its value. -/
def mapBytes (keys : Finset Key) (map : Table Key Value) : ℕ :=
  ∑ key ∈ keys, (map key).elim 0 (fun value => 34 + value.length)

def documented {Id Account : Type} (codeId : Id) (who : Account) : List (Except Abort (Event Id Account)) :=
  [.ok (.codeExecuted codeId who), .ok (.exceededStorage codeId who), .error (.dispatch (.module .invalidCodeId)),
    .error (.dispatch (.module .depositError)), .error (failed .outOfFuel), .error (failed .outOfReads),
    .error (failed .outOfWrites), .error (failed .wasmPanic)]

end KontractsModel.Pallet

namespace KontractsProof.Pallet

open Scale KeyValue KontractsModel KontractsModel.Executor KontractsModel.Guest KontractsModel.Guest.WasmTest
  KontractsModel.Pallet KontractsProof.Guest

section Storages

variable {host : Host} {keys : Finset Key} {map : Table Key Value} {limits : Limits}

theorem mirrors_storable (room : HasRoom limits keys.card 63) {final : Executor.KontractStorage}
    (mirrors : Mirrors host keys final.get map) : Storable limits final := by
  have held : ∀ entry ∈ final.entries, final.get entry.1 = some entry.2 :=
    fun entry member => (BTreeMap.get_iff_mem final entry.1 entry.2).mpr member
  have digests : ∀ entry ∈ final.entries, entry.1 ∈ keys.image host.hashed := fun entry member =>
    Finset.mem_image.mpr (mirrors.digests _ _ (held entry member))
  refine storable_of_room room ((BTreeMap.len_le_card digests).trans Finset.card_image_le) fun entry member => ?_
  obtain ⟨key, -, digest⟩ := mirrors.digests _ _ (held entry member)
  exact ⟨digest ▸ (host.blake2 key).2, Nat.le_of_lt_succ (mirrors.short _ _ (held entry member))⟩

theorem mirrors_size (distinct : Set.InjOn host.hashed keys) {final : Executor.KontractStorage}
    (mirrors : Mirrors host keys final.get map) : mapSize final = mapBytes keys map := by
  have digests : ∀ entry ∈ final.entries, entry.1 ∈ keys.image host.hashed := fun entry member =>
    Finset.mem_image.mpr (mirrors.digests _ _ ((BTreeMap.get_iff_mem final entry.1 entry.2).mpr member))
  have each : ∀ key ∈ keys, (final.get (host.hashed key)).elim 0
      (fun value => (encodeVec (host.hashed key)).length + (encodeVec value).length) =
        (map key).elim 0 (fun value => 34 + value.length) := by
    intro key member
    rw [← mirrors.same key member]
    cases stored : final.get (host.hashed key) with
    | none => rfl
    | some value =>
      have length : (host.hashed key).length = 32 := (host.blake2 key).2
      have short := mirrors.short _ _ stored
      simp only [Option.elim_some]
      rw [encodeVec_length_small _ (by omega), encodeVec_length_small _ short, length]
      omega
  have entries := BTreeMap.sum_entries final
    (fun digest value => (encodeVec digest).length + (encodeVec value).length) digests
  rw [mapSize_eq, entriesSize, entries, Finset.sum_image distinct]
  exact Finset.sum_congr rfl each

end Storages

theorem replaced_documented {Id Account : Type} {limits : Limits} (currency : Currency) (account : AccountData)
    (before after : KontractStorage limits) (declared : ℤ) (codeId : Id) (who : Account) :
    returned codeId who (replaced currency account before after declared) ∈ documented codeId who := by
  unfold replaced
  cases ended : settlement currency account (byteSize before) (byteSize after) declared with
  | error abort =>
    rw [settlement_error ended]
    simp [documented, returned]
  | ok settled => cases settled <;> simp [documented, returned]

section Steps

variable {Id Account : Type} [DecidableEq Id] [DecidableEq Account] {node : Node} {cfg : Config Id} {codeId : Id}
  {kontract : Kontract Unit} {keys : Finset Key} {map : Table Key Value} {s : State cfg.limits Id Account}

/-- A call does what its kontract means: it fails for the same reason, or stores what the map becomes, settled
    for the difference of what the two maps take. -/
inductive Honours (node : Node) (cfg : Config Id) (keys : Finset Key) (s : State cfg.limits Id Account)
    (map : Table Key Value) (block : ℕ) (who : Account) (codeId : Id) (expected : Int32)
    (x : Extrinsic cfg.limits Id Account) : Except Failure (Unit × Sandbox) → Prop
  | error (error : ExecutionErrors) (failed : dispatch node cfg s x = (.error (failed error), s)) :
      Honours node cfg keys s map block who codeId expected x (.error (.error error))
  | ok (after : KontractStorage cfg.limits) (plain : Sandbox)
      (mirrors : Mirrors node.toHost keys after.raw.get plain.table)
      (sizeBefore : byteSize (s.storages codeId) = mapBytes keys map)
      (sizeAfter : byteSize after = mapBytes keys plain.table)
      (effect : Effect node cfg block who codeId
        (replaced cfg.currency (s.accounts who) (s.storages codeId) after expected.toInt) s
        (dispatch node cfg s x).1 (step node cfg s x)) :
      Honours node cfg keys s map block who codeId expected x (.ok ((), plain))

theorem careful_honoured (fits : SizesFit cfg.limits) (room : HasRoom cfg.limits keys.card 63)
    {binary : Code cfg.limits}
    (compiled : Compiled node binary.1 kontract) (present : s.codes codeId = some binary)
    (distinct : Set.InjOn node.hashed keys) (careful : Careful keys kontract)
    (mirrors : Mirrors node.toHost keys (s.storages codeId).raw.get map) (reads writes : UInt32) :
    ∃ needed, ∀ (block : ℕ) (who : Account) (fuel : UInt32) (expected : Int32),
      let x := executes cfg block who codeId fuel reads writes expected
      (fuel.toNat < needed → dispatch node cfg s x = (.error (failed .outOfFuel), s)) ∧
      (needed ≤ fuel.toNat → Honours node cfg keys s map block who codeId expected x
        (kontract.run meaning ⟨map, reads.toNat, writes.toNat⟩)) := by
  obtain ⟨needed, executes⟩ := kontract_execution compiled present (s.storages codeId) reads writes
  refine ⟨needed, fun block who fuel expected => ?_⟩
  obtain ⟨short, enough⟩ := executes (s.accounts who) fuel expected
  refine ⟨fun few => executes_stopped (short few), fun funded => ?_⟩
  have ends := enough funded
  have alike := careful_run distinct careful mirrors reads.toNat writes.toNat
  generalize kontract.run (serving node.toHost) ⟨(s.storages codeId).raw.get, _, _⟩ = outcome at ends alike
  generalize ran : kontract.run meaning ⟨map, _, _⟩ = meant at alike ⊢
  cases alike with
  | error same =>
    subst same
    cases ends with
    | error error stopped => exact .error error (executes_stopped stopped)
    | hostPanic panic stopped =>
      have listed := meaning_error ran
      simp at listed
  | ok mirrored =>
    cases ends with
    | left final box left leaves =>
      have kept : Mirrors node.toHost keys final.get _ := left ▸ mirrored.mirrors
      obtain ⟨after, rfl⟩ := storable_iff.mp (mirrors_storable room kept)
      have effect := executes_effect node s block who codeId fuel reads writes expected
      rw [execution_replaces (leaves (byteSize_lt fits after)) (byteSize_lt fits _) (byteSize_lt fits after)] at effect
      exact .ok after _ kept (mirrors_size distinct mirrors) (mirrors_size distinct kept) effect

end Steps

section Runs

variable {Id Account : Type} [DecidableEq Id] [DecidableEq Account] {node : Node} {cfg : Config Id} {codeId : Id}
  {kontract : Kontract Unit} {keys : Finset Key} {map : Table Key Value} {s₀ : State cfg.limits Id Account}

-- a careful kontract is deployed, and nothing but its map is stored
variable (deploys : Deploys node cfg codeId kontract) (hashed : Hashed cfg s₀) (distinct : Set.InjOn node.hashed keys)
  (careful : Careful keys kontract) (start : Mirrors node.toHost keys (s₀.storages codeId).raw.get map)
  (xs : List (Extrinsic cfg.limits Id Account))

include deploys hashed distinct careful start

theorem mirrored_run : Hashed cfg (Runs.exec (step node cfg) s₀ xs) ∧
    ∃ map', (Runs.collect (step node cfg) (budgets node cfg codeId) s₀ xs).foldlM (meant kontract) map = some map' ∧
      Mirrors node.toHost keys ((Runs.exec (step node cfg) s₀ xs).storages codeId).raw.get map' := by
  have begun : Hashed cfg s₀ ∧ ∃ map', ([] : List (ℕ × ℕ)).foldlM (meant kontract) map = some map' ∧
      Mirrors node.toHost keys (s₀.storages codeId).raw.get map' := ⟨hashed, map, rfl, start⟩
  refine Runs.exec_history (fun past (s : State cfg.limits Id Account) => Hashed cfg s ∧
    ∃ map', past.foldlM (meant kontract) map = some map' ∧
      Mirrors node.toHost keys (s.storages codeId).raw.get map') ?_
    (Runs.always_of_forall fun _ _ _ => True.intro) begun
  rintro past s x - ⟨hashed, map', replayed, mirrors⟩
  refine ⟨hashed_step hashed x, ?_⟩
  rw [List.foldlM_append, replayed, Option.bind_eq_bind, Option.bind_some]
  rcases kontract_step deploys hashed x with ⟨none, same⟩ | ⟨reads, writes, box, budget, ran, left⟩
  · rw [none, same]
    exact ⟨map', rfl, mirrors⟩
  · have alike := careful_run distinct careful mirrors reads writes
    rw [ran] at alike
    generalize meaningRan : kontract.run meaning ⟨map', reads, writes⟩ = outcome at alike
    cases alike with
    | ok mirrored =>
      refine ⟨_, ?_, left ▸ mirrored.mirrors⟩
      rw [budget, List.foldlM_cons, meant, meaningRan]
      rfl

/-- The storage of a careful kontract is, over every run of the chain, what a host stores for the map that its
    source computes, run once for each committed execution, and takes what can be told from that map. -/
theorem meaning_kept :
    ∃ map', (Runs.collect (step node cfg) (budgets node cfg codeId) s₀ xs).foldlM (meant kontract) map = some map' ∧
      Mirrors node.toHost keys ((Runs.exec (step node cfg) s₀ xs).storages codeId).raw.get map' ∧
      byteSize ((Runs.exec (step node cfg) s₀ xs).storages codeId) = mapBytes keys map' := by
  obtain ⟨-, map', replayed, mirrors⟩ := mirrored_run deploys hashed distinct careful start xs
  exact ⟨map', replayed, mirrors, mirrors_size distinct mirrors⟩

-- the limits have room for its map
variable (fits : SizesFit cfg.limits) (room : HasRoom cfg.limits keys.card 63)

include fits room

theorem careful_answers (block : ℕ) (who : Account) (fuel reads writes : UInt32) (expected : Int32) :
    (dispatch node cfg (Runs.exec (step node cfg) s₀ xs)
      (executes cfg block who codeId fuel reads writes expected)).1 ∈ documented codeId who := by
  obtain ⟨kept, map', -, mirrors⟩ := mirrored_run deploys hashed distinct careful start xs
  generalize Runs.exec (step node cfg) s₀ xs = s at kept mirrors ⊢
  cases present : s.codes codeId with
  | none =>
    have stopped : execution node cfg (s.codes codeId) (s.storages codeId) (s.accounts who) expected fuel reads writes =
        .error (.dispatch (.module .invalidCodeId)) := by
      rw [present]
      rfl
    rw [executes_stopped stopped]
    simp [documented]
  | some binary =>
    have compiled := deploys binary (kept codeId binary present)
    obtain ⟨needed, answers⟩ := careful_honoured fits room compiled present distinct careful mirrors reads writes
    obtain ⟨short, enough⟩ := answers block who fuel expected
    by_cases funded : needed ≤ fuel.toNat
    · have honours := enough funded
      generalize ran : kontract.run meaning _ = outcome at honours
      cases honours with
      | error error stopped =>
        rw [stopped]
        have listed := meaning_error ran
        simp only [List.mem_cons, Failure.error.injEq, List.not_mem_nil, or_false] at listed
        rcases listed with rfl | rfl | rfl <;> simp [documented]
      | ok after plain _ _ _ effect =>
        rw [effect.result]
        exact replaced_documented _ _ _ _ _ codeId who
    · rw [short (by omega)]
      simp [documented]

end Runs

section Chain

theorem sampleKeys_distinct : Set.InjOn write8BNode.hashed sampleKeys := by
  intro key member key' member' same
  simp only [sampleKeys, Finset.coe_insert, Finset.coe_singleton, Set.mem_insert_iff, Set.mem_singleton_iff]
    at member member'
  rcases member with rfl | rfl <;> rcases member' with rfl | rfl <;> revert same <;> decide

theorem write8B_careful : Careful sampleKeys write8B :=
  have known : (write8B, [Write.set (encodeVecU32 [1, 2, 3]) (encodeVecU32 [4, 5, 6])]) ∈ samples :=
    List.mem_cons_self
  samples_careful known

theorem write8B_meant :
    ∃ map, (Runs.collect (step write8BNode localConfig) (budgets write8BNode localConfig write8BCode) (genesis 47)
        write8BRun).foldlM (meant write8B) emptyTable = some map ∧
      Mirrors write8BNode.toHost sampleKeys
        ((Runs.exec (step write8BNode localConfig) (genesis 47) write8BRun).storages write8BCode).raw.get map ∧
      byteSize ((Runs.exec (step write8BNode localConfig) (genesis 47) write8BRun).storages write8BCode) =
        mapBytes sampleKeys map :=
  meaning_kept write8B_compiled (genesis_hashed 47) sampleKeys_distinct write8B_careful (Mirrors.empty _ _) write8BRun

theorem collantzKey_distinct : Set.InjOn collantzNode.hashed ({encodeU32 1} : Finset Key) := by
  rw [Finset.coe_singleton]
  exact Set.injOn_singleton _ _

theorem collantz_answers :
    (dispatch collantzNode localConfig (Runs.exec (step collantzNode localConfig) (genesis 38) collantzRun)
      (executes localConfig 1 Signer.bob collantzCode 1000 1 1 0)).1 ∈ documented collantzCode .bob := by
  exact careful_answers collantz_compiled (genesis_hashed 38) collantzKey_distinct (collantz_careful false)
    (Mirrors.empty _ _) collantzRun runtimeLimits_fit (local_room (by decide) (by decide)) 1 .bob 1000 1 1 0

end Chain

end KontractsProof.Pallet
