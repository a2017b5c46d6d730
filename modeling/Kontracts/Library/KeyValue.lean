import Kontracts.Library.BTreeMap
import Mathlib.Data.Set.Function

namespace KeyValue

abbrev Table (K V : Type) := K → Option V

inductive Write (K V : Type)
  | set (key : K) (value : V)
  | remove (key : K)

variable {K V D : Type}

def emptyTable : Table K V := fun _ => none

def Write.key : Write K V → K
  | .set key _ | .remove key => key

def Write.value : Write K V → Option V
  | .set _ value => some value
  | .remove _ => none

def Write.rename (rename : K → D) : Write K V → Write D V
  | .set key value => .set (rename key) value
  | .remove key => .remove (rename key)

@[simp] theorem Write.rename_key (rename : K → D) (write : Write K V) :
    (write.rename rename).key = rename write.key := by
  cases write <;> rfl

@[simp] theorem Write.rename_value (rename : K → D) (write : Write K V) :
    (write.rename rename).value = write.value := by
  cases write <;> rfl

section Writes

variable [DecidableEq K]

def Write.apply (table : Table K V) : Write K V → Table K V
  | .set key value => Function.update table key (some value)
  | .remove key => Function.update table key none

def replay (table : Table K V) (writes : List (Write K V)) : Table K V := writes.foldl Write.apply table

@[simp] theorem replay_nil (table : Table K V) : replay table [] = table := rfl

theorem replay_cons (table : Table K V) (write : Write K V) (rest : List (Write K V)) :
    replay table (write :: rest) = replay (write.apply table) rest := rfl

theorem replay_append (table : Table K V) (front back : List (Write K V)) :
    replay table (front ++ back) = replay (replay table front) back := by
  simp only [replay, List.foldl_append]

theorem Write.apply_get (table : Table K V) (write : Write K V) (other : K) :
    write.apply table other = if other = write.key then write.value else table other := by
  cases write with
  | set key value => exact Function.update_apply table key (some value) other
  | remove key => exact Function.update_apply table key none other

theorem Write.apply_comm {first second : Write K V} (apart : first.key ≠ second.key) (table : Table K V) :
    second.apply (first.apply table) = first.apply (second.apply table) := by
  funext other
  simp only [Write.apply_get]
  by_cases here : other = first.key
  · have missed : other ≠ second.key := fun same => apart (here.symm.trans same)
    simp only [if_neg missed, if_pos here]
  · simp only [if_neg here]

theorem replay_agree {table table' : Table K V} {key : K} (same : ∀ other, other ≠ key → table other = table' other)
    (writes : List (Write K V)) : ∀ other, other ≠ key → replay table writes other = replay table' writes other := by
  induction writes generalizing table table' with
  | nil => exact same
  | cons write rest ih =>
    refine ih fun other different => ?_
    rw [Write.apply_get, Write.apply_get, same other different]

/-- A write that a later one to the same key overwrites leaves no trace, whatever happens in between. -/
theorem replay_overwritten {earlier later : Write K V} (same : later.key = earlier.key) (table : Table K V)
    (between : List (Write K V)) :
    replay (earlier.apply table) (between ++ [later]) = replay table (between ++ [later]) := by
  rw [replay_append, replay_append]
  funext other
  change later.apply _ other = later.apply _ other
  rw [Write.apply_get, Write.apply_get]
  split
  · rfl
  · rename_i different
    refine replay_agree (fun here elsewhere => ?_) between other (same ▸ different)
    rw [Write.apply_get, if_neg elsewhere]

theorem replay_unwritten {key : K} {writes : List (Write K V)} (unwritten : ∀ write ∈ writes, write.key ≠ key)
    (table : Table K V) : replay table writes key = table key := by
  induction writes generalizing table with
  | nil => rfl
  | cons write rest ih =>
    have here := unwritten write List.mem_cons_self
    rw [replay_cons, ih fun later member => unwritten later (List.mem_cons_of_mem _ member), Write.apply_get,
      if_neg here.symm]

theorem replay_written {key : K} {writes : List (Write K V)} (written : ∃ write ∈ writes, write.key = key)
    (table table' : Table K V) : replay table writes key = replay table' writes key := by
  induction writes generalizing table table' with
  | nil =>
    obtain ⟨write, member, -⟩ := written
    cases member
  | cons write rest ih =>
    rw [replay_cons, replay_cons]
    by_cases later : ∃ write ∈ rest, write.key = key
    · exact ih later _ _
    · have last : write.key = key := by
        obtain ⟨write', member, same⟩ := written
        rcases List.mem_cons.mp member with rfl | member
        · exact same
        · exact absurd ⟨write', member, same⟩ later
      have unwritten : ∀ write ∈ rest, write.key ≠ key := fun write member same => later ⟨write, member, same⟩
      rw [replay_unwritten unwritten, replay_unwritten unwritten, Write.apply_get, Write.apply_get, if_pos last.symm,
        if_pos last.symm]

theorem replay_idempotent (table : Table K V) (writes : List (Write K V)) :
    replay (replay table writes) writes = replay table writes := by
  funext key
  by_cases written : ∃ write ∈ writes, write.key = key
  · exact replay_written written _ _
  · exact replay_unwritten (fun write member same => written ⟨write, member, same⟩) _

end Writes

section Renaming

variable [LinearOrder D]

def Agrees (rename : K → D) (keys : Set K) (m : BTreeMap D V) (table : Table K V) : Prop :=
  ∀ key ∈ keys, m.get (rename key) = table key

/-- The map holds the table with every key renamed, and nothing else. -/
structure Represents (rename : K → D) (keys : Set K) (m : BTreeMap D V) (table : Table K V) : Prop where
  get : Agrees rename keys m table
  renamed : ∀ d value, m.get d = some value → ∃ key ∈ keys, rename key = d
  outside : ∀ key, key ∉ keys → table key = none

def Write.applyTo (rename : K → D) (m : BTreeMap D V) : Write K V → BTreeMap D V
  | .set key value => m.insert (rename key) value
  | .remove key => m.remove (rename key)

variable {rename : K → D} {keys : Set K} {m : BTreeMap D V} {table : Table K V}

theorem Represents.empty (rename : K → D) (keys : Set K) :
    Represents rename keys (BTreeMap.empty : BTreeMap D V) emptyTable where
  get _ _ := rfl
  renamed _ _ present := by cases present
  outside _ _ := rfl

theorem Write.applyTo_get (rename : K → D) (m : BTreeMap D V) (write : Write K V) (d : D) :
    (write.applyTo rename m).get d = if d = rename write.key then write.value else m.get d := by
  cases write with
  | set key value => exact BTreeMap.get_insert m (rename key) value d
  | remove key => exact BTreeMap.get_remove m (rename key) d

theorem Write.applyTo_replays [DecidableEq D] (rename : K → D) (m : BTreeMap D V) (write : Write K V) :
    (write.applyTo rename m).get = (write.rename rename).apply m.get := by
  funext d
  rw [Write.applyTo_get, Write.apply_get, Write.rename_key, Write.rename_value]
  by_cases same : d = rename write.key
  · rw [if_pos same, if_pos same]
  · rw [if_neg same, if_neg same]

theorem Agrees.apply [DecidableEq K] (agrees : Agrees rename keys m table) (injective : Set.InjOn rename keys)
    (write : Write K V) (used : write.key ∈ keys) :
    Agrees rename keys (write.applyTo rename m) (write.apply table) := by
  intro other member
  have renamed : rename other = rename write.key ↔ other = write.key := injective.eq_iff member used
  rw [Write.applyTo_get, Write.apply_get, agrees other member]
  simp only [renamed]

theorem Represents.apply [DecidableEq K] (represents : Represents rename keys m table)
    (injective : Set.InjOn rename keys) (write : Write K V) (used : write.key ∈ keys) :
    Represents rename keys (write.applyTo rename m) (write.apply table) where
  get := represents.get.apply injective write used
  renamed d found present := by
    by_cases same : d = rename write.key
    · exact ⟨write.key, used, same.symm⟩
    · rw [Write.applyTo_get, if_neg same] at present
      exact represents.renamed d found present
  outside other unused := by
    have different : other ≠ write.key := fun same => unused (same ▸ used)
    rw [Write.apply_get, if_neg different]
    exact represents.outside other unused

theorem Represents.exact (represents : Represents rename keys m table) (d : D) (value : V) :
    m.get d = some value ↔ ∃ key, rename key = d ∧ table key = some value := by
  constructor
  · intro present
    obtain ⟨key, member, rfl⟩ := represents.renamed d value present
    exact ⟨key, rfl, (represents.get key member).symm.trans present⟩
  · rintro ⟨key, rfl, held⟩
    by_cases member : key ∈ keys
    · exact (represents.get key member).trans held
    · rw [represents.outside key member] at held
      cases held

end Renaming

end KeyValue
