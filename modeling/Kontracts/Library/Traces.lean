import Kontracts.Library.Runs
import Mathlib.Data.List.Perm.Basic

namespace Traces

open Runs

section Reorderings

variable {X : Type} {independent : X → X → Prop}

/-- Swaps of independent neighbours. -/
inductive Reorders (independent : X → X → Prop) : List X → List X → Prop
  | refl (xs : List X) : Reorders independent xs xs
  | swap (front : List X) {x y : X} (back : List X) (apart : independent x y) :
      Reorders independent (front ++ x :: y :: back) (front ++ y :: x :: back)
  | trans {xs ys zs : List X} (first : Reorders independent xs ys) (second : Reorders independent ys zs) :
      Reorders independent xs zs

theorem Reorders.cons {xs ys : List X} (head : X) (reorders : Reorders independent xs ys) :
    Reorders independent (head :: xs) (head :: ys) := by
  induction reorders with
  | refl xs => exact .refl _
  | swap front back apart => exact .swap (head :: front) back apart
  | trans _ _ first second => exact .trans first second

theorem Reorders.to_front {x : X} {front : List X} (back : List X) (apart : ∀ y ∈ front, independent x y) :
    Reorders independent (x :: (front ++ back)) (front ++ x :: back) := by
  induction front with
  | nil => exact .refl _
  | cons head front ih =>
    have later := ih fun y member => apart y (List.mem_cons_of_mem _ member)
    exact .trans (.swap [] (front ++ back) (apart head List.mem_cons_self)) (later.cons head)

end Reorderings

section Resources

variable {X ρ : Type} [DecidableEq ρ] (touches : X → List ρ)

def Apart (x y : X) : Prop := ∀ r ∈ touches x, r ∉ touches y

def seenAt (r : ρ) (xs : List X) : List X := xs.filter (fun x => decide (r ∈ touches x))

variable {touches} {r : ρ} {x : X} {xs ys front back : List X}

theorem seenAt_append : seenAt touches r (xs ++ ys) = seenAt touches r xs ++ seenAt touches r ys :=
  List.filter_append xs ys

theorem seenAt_touching (touched : r ∈ touches x) : seenAt touches r (x :: xs) = x :: seenAt touches r xs :=
  List.filter_cons_of_pos (decide_eq_true touched)

theorem seenAt_apart (untouched : r ∉ touches x) : seenAt touches r (x :: xs) = seenAt touches r xs :=
  List.filter_cons_of_neg (by simpa using untouched)

theorem seenAt_none (untouched : ∀ y ∈ xs, r ∉ touches y) : seenAt touches r xs = [] :=
  List.filter_eq_nil_iff.mpr fun y member => by simpa using untouched y member

theorem apart_of_first (first : x ∉ front)
    (same : ∀ r, seenAt touches r (x :: xs) = seenAt touches r (front ++ x :: back)) :
    ∀ y ∈ front, Apart touches x y := by
  intro y member r touched touched'
  have inside : y ∈ seenAt touches r front := List.mem_filter.mpr ⟨member, decide_eq_true touched'⟩
  obtain ⟨z, rest, whole⟩ := List.exists_cons_of_ne_nil (List.ne_nil_of_mem inside)
  have heads := same r
  rw [seenAt_touching touched, seenAt_append, whole, List.cons_append] at heads
  obtain ⟨rfl, -⟩ := List.cons.inj heads
  have head : x ∈ seenAt touches r front := whole ▸ List.mem_cons_self
  exact first (List.mem_filter.mp head).1

/-- Permutations that keep the order of the inputs at every resource are reorderings. -/
theorem reorders_of_seenAt (perm : xs.Perm ys) (same : ∀ r, seenAt touches r xs = seenAt touches r ys) :
    Reorders (Apart touches) xs ys := by
  induction xs generalizing ys with
  | nil =>
    obtain rfl := List.nil_perm.mp perm
    exact .refl []
  | cons x xs ih =>
    obtain ⟨front, back, rfl, first⟩ := List.eq_append_cons_of_mem (perm.subset List.mem_cons_self)
    have apart := apart_of_first first same
    have rest : xs.Perm (front ++ back) := List.Perm.cons_inv (perm.trans List.perm_middle)
    refine .trans ((ih rest fun r => ?_).cons x) (.to_front back apart)
    have here := same r
    by_cases touched : r ∈ touches x
    · have before : seenAt touches r front = [] := seenAt_none fun y member => apart y member r touched
      rw [seenAt_touching touched, seenAt_append, seenAt_touching touched, before] at here
      rw [seenAt_append, before]
      exact (List.cons.inj here).2
    · rwa [seenAt_apart touched, seenAt_append, seenAt_apart touched, ← seenAt_append] at here

end Resources

section Machines

variable {S X ρ R : Type} {V : ρ → Type} {step : S → X → S} {observe : S → X → R} {value : S → (r : ρ) → V r}
  {touches : X → List ρ} {s s' : S} {x y : X}

structure Local (step : S → X → S) (observe : S → X → R) (value : S → (r : ρ) → V r) (touches : X → List ρ) :
    Prop where
  frame : ∀ s x r, r ∉ touches x → value (step s x) r = value s r
  reads : ∀ s s' x, (∀ r ∈ touches x, value s r = value s' r) → observe s x = observe s' x
  writes : ∀ s s' x, (∀ r ∈ touches x, value s r = value s' r) →
    ∀ r ∈ touches x, value (step s x) r = value (step s' x) r

abbrev answers (step : S → X → S) (observe : S → X → R) : S → List X → List (X × R) :=
  collect step (fun s x => [(x, observe s x)])

theorem Local.step_congr (isLocal : Local step observe value touches) (same : ∀ r, value s r = value s' r) (x : X)
    (r : ρ) :
    value (step s x) r = value (step s' x) r := by
  by_cases touched : r ∈ touches x
  · exact isLocal.writes s s' x (fun r _ => same r) r touched
  · rw [isLocal.frame s x r touched, isLocal.frame s' x r touched, same]

theorem Local.exec_congr (isLocal : Local step observe value touches) (same : ∀ r, value s r = value s' r)
    (xs : List X) :
    (∀ r, value (exec step s xs) r = value (exec step s' xs) r) ∧
      answers step observe s xs = answers step observe s' xs := by
  induction xs generalizing s s' with
  | nil => exact ⟨same, rfl⟩
  | cons x xs ih =>
    obtain ⟨values, rest⟩ := ih (isLocal.step_congr same x)
    refine ⟨values, ?_⟩
    rw [answers, collect, collect, isLocal.reads s s' x fun r _ => same r]
    exact congrArg _ rest

theorem Local.after_apart (isLocal : Local step observe value touches) (apart : Apart touches x y) (s : S) :
    observe (step s y) x = observe s x ∧ ∀ r ∈ touches x, value (step (step s y) x) r = value (step s x) r := by
  have same : ∀ r ∈ touches x, value (step s y) r = value s r := fun r touched => isLocal.frame s y r (apart r touched)
  exact ⟨isLocal.reads _ _ x same, isLocal.writes _ _ x same⟩

theorem Local.commute (isLocal : Local step observe value touches) (apart : Apart touches x y) (s : S) :
    (∀ r, value (step (step s x) y) r = value (step (step s y) x) r) ∧
      observe (step s y) x = observe s x ∧ observe (step s x) y = observe s y := by
  have apart' : Apart touches y x := fun r touched touched' => apart r touched' touched
  obtain ⟨unseen, first⟩ := isLocal.after_apart apart s
  obtain ⟨unseen', second⟩ := isLocal.after_apart apart' s
  refine ⟨fun r => ?_, unseen, unseen'⟩
  by_cases touched : r ∈ touches x
  · rw [first r touched, isLocal.frame _ y r (apart r touched)]
  · rw [isLocal.frame _ x r touched]
    by_cases touched' : r ∈ touches y
    · exact second r touched'
    · rw [isLocal.frame _ y r touched', isLocal.frame _ x r touched, isLocal.frame _ y r touched']

/-- A reordered run ends with the same values, and answers every input the same. -/
theorem Local.reorders {xs ys : List X} (isLocal : Local step observe value touches)
    (reorders : Reorders (Apart touches) xs ys) (s : S) :
    (∀ r, value (exec step s xs) r = value (exec step s ys) r) ∧
      (answers step observe s xs).Perm (answers step observe s ys) := by
  induction reorders generalizing s with
  | refl xs => exact ⟨fun _ => rfl, List.Perm.refl _⟩
  | @swap front x y back apart =>
    obtain ⟨same, unseen, unseen'⟩ := isLocal.commute apart (exec step s front)
    obtain ⟨values, rest⟩ := isLocal.exec_congr same back
    refine ⟨fun r => ?_, ?_⟩
    · rw [exec_append, exec_append]
      exact values r
    · rw [answers, collect_append, collect_append]
      refine List.Perm.append_left _ ?_
      simp only [collect, List.cons_append, List.nil_append, unseen, unseen']
      rw [show collect step (fun s x => [(x, observe s x)]) _ back = _ from rest]
      exact List.Perm.swap _ _ _
  | trans _ _ first second =>
    exact ⟨fun r => ((first s).1 r).trans ((second s).1 r), (first s).2.trans (second s).2⟩

end Machines

end Traces
