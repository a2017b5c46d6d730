import Mathlib.Algebra.BigOperators.Group.Finset.Piecewise
import Mathlib.Algebra.GroupWithZero.Nat
import Mathlib.Data.Finset.Card
import Mathlib.Data.List.Induction
import Mathlib.Data.List.Lex
import Mathlib.Data.List.Sort
import Mathlib.Order.Hom.Basic

instance instLinearOrderUInt8 : LinearOrder UInt8 where
  le_refl := UInt8.le_refl
  le_trans _ _ _ := UInt8.le_trans
  le_antisymm _ _ := UInt8.le_antisymm
  le_total := UInt8.le_total
  lt_iff_le_not_ge a b := by
    rw [UInt8.not_le]
    exact ⟨fun less => ⟨UInt8.le_of_lt less, less⟩, fun both => both.2⟩
  toDecidableLE := inferInstance
  toDecidableEq := inferInstance
  toDecidableLT := inferInstance

/-- An ordered map as its iteration order shows it: entries with strictly increasing keys. -/
structure BTreeMap (K V : Type*) [LinearOrder K] where
  entries : List (K × V)
  sorted : entries.Pairwise (fun a b => a.1 < b.1)

namespace BTreeMap

variable {K V : Type*} [LinearOrder K]

def insertEntry (key : K) (value : V) : List (K × V) → List (K × V)
  | [] => [(key, value)]
  | entry :: rest =>
    if key < entry.1 then (key, value) :: entry :: rest
    else if key = entry.1 then (key, value) :: rest
    else entry :: insertEntry key value rest

theorem mem_insertEntry {key : K} {value : V} {entries : List (K × V)} {entry : K × V}
    (member : entry ∈ insertEntry key value entries) : entry = (key, value) ∨ entry ∈ entries := by
  induction entries with
  | nil => left; simpa [insertEntry] using member
  | cons head tail ih =>
    simp only [insertEntry] at member
    split at member
    · simpa using member
    · split at member
      · rcases List.mem_cons.mp member with same | member
        · left; exact same
        · right; exact List.mem_cons_of_mem _ member
      · rcases List.mem_cons.mp member with same | member
        · right; rw [same]; exact List.mem_cons_self
        · exact (ih member).imp_right (List.mem_cons_of_mem _)

theorem sorted_insertEntry (key : K) (value : V) {entries : List (K × V)}
    (sorted : entries.Pairwise (fun a b => a.1 < b.1)) :
    (insertEntry key value entries).Pairwise (fun a b => a.1 < b.1) := by
  induction entries with
  | nil => simp [insertEntry]
  | cons head tail ih =>
    obtain ⟨above, tailSorted⟩ := List.pairwise_cons.mp sorted
    simp only [insertEntry]
    split
    · rename_i below
      refine List.pairwise_cons.mpr ⟨?_, sorted⟩
      intro entry member
      rcases List.mem_cons.mp member with rfl | member
      · exact below
      · exact below.trans (above entry member)
    · rename_i notBelow
      split
      · rename_i same
        exact List.pairwise_cons.mpr ⟨fun entry member => same ▸ above entry member, tailSorted⟩
      · rename_i different
        refine List.pairwise_cons.mpr ⟨?_, ih tailSorted⟩
        intro entry member
        rcases mem_insertEntry member with rfl | member
        · exact lt_of_le_of_ne (not_lt.mp notBelow) (Ne.symm different)
        · exact above entry member

def empty : BTreeMap K V := ⟨[], List.Pairwise.nil⟩

def len (m : BTreeMap K V) : ℕ := m.entries.length

def get (m : BTreeMap K V) (key : K) : Option V := m.entries.lookup key

def insert (m : BTreeMap K V) (key : K) (value : V) : BTreeMap K V :=
  ⟨insertEntry key value m.entries, sorted_insertEntry key value m.sorted⟩

def remove (m : BTreeMap K V) (key : K) : BTreeMap K V :=
  ⟨m.entries.filter (fun entry => entry.1 ≠ key), m.sorted.filter _⟩

/-- Collecting an iterator: a later pair with the same key wins. -/
def ofList (entries : List (K × V)) : BTreeMap K V :=
  entries.foldl (fun m entry => m.insert entry.1 entry.2) empty

theorem lookup_cons_if (entry : K × V) (entries : List (K × V)) (key : K) :
    (entry :: entries).lookup key = if key = entry.1 then some entry.2 else entries.lookup key := by
  rw [List.lookup_cons]
  by_cases same : key = entry.1
  · simp [same]
  · have missed : (key == entry.1) = false := by simpa using same
    simp [same, missed]

theorem lookup_iff_mem {entries : List (K × V)} (sorted : entries.Pairwise (fun a b => a.1 < b.1))
    (key : K) (value : V) : entries.lookup key = some value ↔ (key, value) ∈ entries := by
  induction entries with
  | nil => simp
  | cons head tail ih =>
    obtain ⟨above, tailSorted⟩ := List.pairwise_cons.mp sorted
    rw [lookup_cons_if, List.mem_cons]
    split
    · rename_i same
      have absent : (key, value) ∉ tail :=
        fun member => lt_irrefl _ (same ▸ above (key, value) member)
      simp only [Prod.ext_iff, same, true_and, Option.some.injEq, eq_comm, iff_self_or]
      exact fun member => absurd (same ▸ member) absent
    · rename_i different
      simp [ih tailSorted, Prod.ext_iff, different]

theorem get_iff_mem (m : BTreeMap K V) (key : K) (value : V) :
    m.get key = some value ↔ (key, value) ∈ m.entries :=
  lookup_iff_mem m.sorted key value

theorem lookup_insertEntry (key : K) (value : V) (entries : List (K × V)) (other : K) :
    (insertEntry key value entries).lookup other =
      if other = key then some value else entries.lookup other := by
  induction entries with
  | nil => simp [insertEntry, lookup_cons_if]
  | cons head tail ih =>
    simp only [insertEntry]
    split
    · simp [lookup_cons_if]
    · split
      · rename_i equal
        by_cases same : other = key <;> simp [lookup_cons_if, same, ← equal]
      · rename_i different
        rw [lookup_cons_if, ih, lookup_cons_if]
        by_cases found : other = head.1
        · have apart : ¬ other = key := fun same => different (same.symm.trans found)
          simp [found, found ▸ apart]
        · simp [found]

theorem get_insert (m : BTreeMap K V) (key : K) (value : V) (other : K) :
    (m.insert key value).get other = if other = key then some value else m.get other :=
  lookup_insertEntry key value m.entries other

theorem get_remove (m : BTreeMap K V) (key other : K) :
    (m.remove key).get other = if other = key then none else m.get other := by
  ext value
  rw [get_iff_mem]
  by_cases same : other = key
  · simp [remove, same]
  · simp [remove, same, get_iff_mem]

theorem ext_get {left right : BTreeMap K V} (same : ∀ key, left.get key = right.get key) :
    left = right := by
  have nodup (m : BTreeMap K V) : m.entries.Nodup := by
    refine m.sorted.imp ?_
    intro a b less equal
    exact less.ne (congrArg Prod.fst equal)
  have permuted : left.entries.Perm right.entries := by
    refine (List.perm_ext_iff_of_nodup (nodup left) (nodup right)).mpr ?_
    rintro ⟨key, value⟩
    rw [← get_iff_mem, ← get_iff_mem, same key]
  have equal : left.entries = right.entries :=
    permuted.eq_of_pairwise (fun _ _ _ _ below above => absurd below (lt_asymm above))
      left.sorted right.sorted
  cases left
  cases right
  simpa using equal

theorem sum_lookup (size : K → V → ℕ) {entries : List (K × V)} (sorted : entries.Pairwise (fun a b => a.1 < b.1))
    {keys : Finset K} (within : ∀ entry ∈ entries, entry.1 ∈ keys) :
    (entries.map fun entry => size entry.1 entry.2).sum =
      ∑ key ∈ keys, (entries.lookup key).elim 0 (size key) := by
  induction entries with
  | nil => simp
  | cons head tail ih =>
    obtain ⟨above, tailSorted⟩ := List.pairwise_cons.mp sorted
    have absent : tail.lookup head.1 = none := by
      cases found : tail.lookup head.1 with
      | none => rfl
      | some value => exact absurd (above _ ((lookup_iff_mem tailSorted _ _).mp found)) (lt_irrefl _)
    have split : ∀ key ∈ keys, ((head :: tail).lookup key).elim 0 (size key) =
        (if key = head.1 then size head.1 head.2 else 0) + (tail.lookup key).elim 0 (size key) := by
      intro key _
      rw [lookup_cons_if]
      by_cases here : key = head.1
      · rw [here, if_pos rfl, if_pos rfl, absent]
        rfl
      · rw [if_neg here, if_neg here, Nat.zero_add]
    rw [List.map_cons, List.sum_cons, ih tailSorted fun entry member => within entry (List.mem_cons_of_mem _ member),
      Finset.sum_congr rfl split, Finset.sum_add_distrib, Finset.sum_ite_eq', if_pos (within head List.mem_cons_self)]

theorem sum_entries (m : BTreeMap K V) (size : K → V → ℕ) {keys : Finset K}
    (within : ∀ entry ∈ m.entries, entry.1 ∈ keys) :
    (m.entries.map fun entry => size entry.1 entry.2).sum = ∑ key ∈ keys, (m.get key).elim 0 (size key) :=
  sum_lookup size m.sorted within

theorem len_le_card {m : BTreeMap K V} {keys : Finset K} (within : ∀ entry ∈ m.entries, entry.1 ∈ keys) :
    m.len ≤ keys.card := by
  have distinct : (m.entries.map Prod.fst).Nodup := List.pairwise_map.mpr (m.sorted.imp fun less => less.ne)
  have included : (m.entries.map Prod.fst).toFinset ⊆ keys := by
    intro key member
    obtain ⟨entry, held, rfl⟩ := List.mem_map.mp (List.mem_toFinset.mp member)
    exact within entry held
  have count := Finset.card_le_card included
  rwa [List.toFinset_card_of_nodup distinct, List.length_map] at count

theorem ofList_append (entries : List (K × V)) (entry : K × V) :
    ofList (entries ++ [entry]) = (ofList entries).insert entry.1 entry.2 := by
  simp [ofList, List.foldl_append]

theorem insertEntry_last {key : K} {value : V} {entries : List (K × V)}
    (largest : ∀ entry ∈ entries, entry.1 < key) :
    insertEntry key value entries = entries ++ [(key, value)] := by
  induction entries with
  | nil => rfl
  | cons head tail ih =>
    have below := largest head List.mem_cons_self
    have rest := ih fun entry member => largest entry (List.mem_cons_of_mem _ member)
    simp [insertEntry, below.not_gt, below.ne', rest]

theorem ofList_entries (m : BTreeMap K V) : ofList m.entries = m := by
  obtain ⟨entries, sorted⟩ := m
  induction entries using List.reverseRecOn with
  | nil => rfl
  | append_singleton init last ih =>
    obtain ⟨initSorted, _, largest⟩ := List.pairwise_append.mp sorted
    rw [ofList_append]
    rw [show ofList init = ⟨init, initSorted⟩ from ih initSorted]
    simp only [insert, mk.injEq]
    exact insertEntry_last fun entry member => largest entry member last (by simp)

def mapKeys {K' V' : Type*} [LinearOrder K'] (rename : K → K') (increasing : StrictMono rename)
    (change : V → V') (m : BTreeMap K V) : BTreeMap K' V' :=
  ⟨m.entries.map (fun entry => (rename entry.1, change entry.2)),
    List.pairwise_map.mpr (m.sorted.imp fun less => increasing less)⟩

theorem insertEntry_map {K' V' : Type*} [LinearOrder K'] {rename : K → K'}
    (increasing : StrictMono rename) (change : V → V') (key : K) (value : V) (entries : List (K × V)) :
    insertEntry (rename key) (change value) (entries.map (Prod.map rename change)) =
      (insertEntry key value entries).map (Prod.map rename change) := by
  induction entries with
  | nil => rfl
  | cons head tail ih =>
    simp only [List.map_cons, insertEntry, Prod.map_fst, increasing.lt_iff_lt,
      increasing.injective.eq_iff, ih]
    split
    · simp
    · split <;> simp

theorem mapKeys_ofList {K' V' : Type*} [LinearOrder K'] {rename : K → K'}
    (increasing : StrictMono rename) (change : V → V') (entries : List (K × V)) :
    (ofList entries).mapKeys rename increasing change = ofList (entries.map (Prod.map rename change)) := by
  induction entries using List.reverseRecOn with
  | nil => rfl
  | append_singleton init last ih =>
    rw [List.map_append, List.map_singleton, ofList_append, ofList_append, ← ih]
    simp only [mapKeys, insert, mk.injEq]
    exact (insertEntry_map increasing change last.1 last.2 (ofList init).entries).symm

end BTreeMap
