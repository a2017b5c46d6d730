import Mathlib.Data.Nat.Notation

namespace Metered

/-- What a state does next: end for free, or burn one unit of fuel and then go on or end. -/
inductive Step (S L R : Type)
  | stop (result : R)
  | burn (after : Except R (Option L × S))

def Step.ending {S L R : Type} : Step S L R → Option R
  | .stop result => some result
  | .burn _ => none

inductive End (R : Type)
  | stopped (result : R) (left : ℕ)
  | exhausted

variable {S L R : Type}

def run (step : S → Step S L R) : ℕ → S → List L × End R
  | 0, s =>
    match step s with
    | .stop result => ([], .stopped result 0)
    | .burn _ => ([], .exhausted)
  | fuel + 1, s =>
    match step s with
    | .stop result => ([], .stopped result (fuel + 1))
    | .burn (.error result) => ([], .stopped result fuel)
    | .burn (.ok (label, next)) =>
      let rest := run step fuel next
      (label.toList ++ rest.1, rest.2)

section Unfolding

variable {step : S → Step S L R} {s : S}

theorem run_stop {result : R} (taken : step s = .stop result) (fuel : ℕ) :
    run step fuel s = ([], .stopped result fuel) := by
  cases fuel <;> simp only [run, taken]

theorem run_fault {result : R} (taken : step s = .burn (.error result)) (fuel : ℕ) :
    run step (fuel + 1) s = ([], .stopped result fuel) := by
  simp only [run, taken]

theorem run_spent {after : Except R (Option L × S)} (taken : step s = .burn after) :
    run step 0 s = ([], .exhausted) := by
  simp only [run, taken]

theorem run_move {label : Option L} {next : S} (taken : step s = .burn (.ok (label, next))) (fuel : ℕ) :
    run step (fuel + 1) s = (label.toList ++ (run step fuel next).1, (run step fuel next).2) := by
  simp only [run, taken]

theorem ending_some {taken : Step S L R} {result : R} : taken.ending = some result ↔ taken = .stop result := by
  cases taken <;> simp [Step.ending]

theorem ending_none {taken : Step S L R} : taken.ending = none ↔ ∃ after, taken = .burn after := by
  cases taken <;> simp [Step.ending]

end Unfolding

inductive Reaches (step : S → Step S L R) : ℕ → S → List L → S → Prop
  | refl (s : S) : Reaches step 0 s [] s
  | step {n : ℕ} {s next last : S} {label : Option L} {labels : List L}
      (first : step s = .burn (.ok (label, next))) (rest : Reaches step n next labels last) :
      Reaches step (n + 1) s (label.toList ++ labels) last

section Prefixes

variable {step : S → Step S L R}

theorem Reaches.tracks (inv : ℕ → List L → S → Prop)
    (preserved : ∀ n labels s label next, step s = .burn (.ok (label, next)) →
      inv n labels s → inv (n + 1) (labels ++ label.toList) next)
    {n burned : ℕ} {s last : S} {labels past : List L} (reached : Reaches step n s labels last)
    (start : inv burned past s) : inv (burned + n) (past ++ labels) last := by
  induction reached generalizing burned past with
  | refl => simpa using start
  | @step n s next last label labels first rest ih =>
    have later := ih (preserved burned past s label next first start)
    rw [List.append_assoc] at later
    rwa [Nat.add_assoc, Nat.add_comm 1 n] at later

theorem Reaches.preserves {inv : S → Prop}
    (preserved : ∀ s label next, step s = .burn (.ok (label, next)) → inv s → inv next) {n : ℕ} {s last : S}
    {labels : List L} (reached : Reaches step n s labels last) (start : inv s) : inv last := by
  induction reached with
  | refl => exact start
  | step first rest ih => exact ih (preserved _ _ _ first start)

theorem Reaches.run_eq {n : ℕ} {s last : S} {labels : List L} (reached : Reaches step n s labels last)
    (fuel : ℕ) :
    run step (n + fuel) s = (labels ++ (run step fuel last).1, (run step fuel last).2) := by
  induction reached with
  | refl => simp
  | @step n s next last label labels first rest ih =>
    rw [Nat.add_right_comm, run_move first]
    simp only [ih, List.append_assoc]

inductive Ended (step : S → Step S L R) (fuel n : ℕ) (last : S) : End R → Prop
  | stop {result : R} (here : step last = .stop result) (enough : n ≤ fuel) :
      Ended step fuel n last (.stopped result (fuel - n))
  | fault {result : R} (here : step last = .burn (.error result)) (enough : n < fuel) :
      Ended step fuel n last (.stopped result (fuel - n - 1))
  | exhausted {after : Except R (Option L × S)} (here : step last = .burn after) (spent : n = fuel) :
      Ended step fuel n last .exhausted

theorem ended_add (extra : ℕ) {fuel n : ℕ} {last : S} {ending : End R} :
    Ended step (fuel + extra) (n + extra) last ending ↔ Ended step fuel n last ending := by
  constructor
  · intro ended
    cases ended with
    | stop here enough =>
      rw [Nat.add_sub_add_right]
      exact .stop here (by omega)
    | fault here enough =>
      rw [Nat.add_sub_add_right]
      exact .fault here (by omega)
    | exhausted here spent => exact .exhausted here (by omega)
  · intro ended
    cases ended with
    | stop here enough =>
      rw [← Nat.add_sub_add_right fuel extra n]
      exact .stop here (by omega)
    | fault here enough =>
      rw [← Nat.add_sub_add_right fuel extra n]
      exact .fault here (by omega)
    | exhausted here spent => exact .exhausted here (by omega)

theorem Reaches.run_ended {fuel n : ℕ} {s last : S} {labels : List L} {ending : End R}
    (reached : Reaches step n s labels last) (ended : Ended step fuel n last ending) :
    run step fuel s = (labels, ending) := by
  cases ended with
  | stop here enough =>
    obtain ⟨rest, rfl⟩ := Nat.exists_eq_add_of_le enough
    rw [reached.run_eq, Nat.add_sub_cancel_left, run_stop here, List.append_nil]
  | fault here enough =>
    obtain ⟨rest, rfl⟩ := Nat.exists_eq_add_of_lt enough
    have returned : n + rest + 1 - n - 1 = rest := by omega
    rw [Nat.add_assoc, reached.run_eq, run_fault here, List.append_nil, ← Nat.add_assoc, returned]
  | exhausted here spent =>
    subst spent
    have ran := reached.run_eq 0
    rwa [run_spent here, List.append_nil] at ran

theorem run_reaches (step : S → Step S L R) (fuel : ℕ) (s : S) :
    ∃ n last, Reaches step n s (run step fuel s).1 last ∧ Ended step fuel n last (run step fuel s).2 := by
  induction fuel generalizing s with
  | zero =>
    cases taken : step s with
    | stop result =>
      rw [run_stop taken]
      exact ⟨0, s, .refl s, .stop taken (Nat.le_refl 0)⟩
    | burn after =>
      rw [run_spent taken]
      exact ⟨0, s, .refl s, .exhausted taken rfl⟩
  | succ fuel ih =>
    cases taken : step s with
    | stop result =>
      rw [run_stop taken]
      exact ⟨0, s, .refl s, .stop taken (Nat.zero_le _)⟩
    | burn after =>
      cases after with
      | error result =>
        rw [run_fault taken]
        exact ⟨0, s, .refl s, .fault taken (Nat.succ_pos _)⟩
      | ok next =>
        obtain ⟨label, next⟩ := next
        obtain ⟨n, last, reached, ended⟩ := ih next
        rw [run_move taken]
        exact ⟨n + 1, last, .step taken reached, (ended_add 1).mpr ended⟩

end Prefixes

theorem run_more_fuel {step : S → Step S L R} (extra : ℕ) {fuel left : ℕ} {s : S} {labels : List L}
    {result : R} (stopped : run step fuel s = (labels, .stopped result left)) :
    run step (fuel + extra) s = (labels, .stopped result (left + extra)) := by
  obtain ⟨n, last, reached, ended⟩ := run_reaches step fuel s
  rw [stopped] at reached ended
  simp only at reached ended
  generalize ending : End.stopped result left = final at ended
  cases ended with
  | stop here enough =>
    cases ending
    have surplus : fuel + extra - n = fuel - n + extra := by omega
    rw [← surplus]
    exact reached.run_ended (.stop here (by omega))
  | fault here enough =>
    cases ending
    have surplus : fuel + extra - n - 1 = fuel - n - 1 + extra := by omega
    rw [← surplus]
    exact reached.run_ended (.fault here (by omega))
  | exhausted => cases ending

section Endings

variable {step : S → Step S L R} {s : S}

/-- A run that ends by itself: the fuel it needs, the labels it emits and how it ends. -/
def Takes (step : S → Step S L R) (s : S) (needed : ℕ) (labels : List L) (result : R) : Prop :=
  ∀ left, run step (needed + left) s = (labels, .stopped result left)

theorem takes_stop {result : R} (taken : step s = .stop result) : Takes step s 0 [] result := by
  intro left
  rw [Nat.zero_add, run_stop taken]

theorem takes_fault {result : R} (taken : step s = .burn (.error result)) : Takes step s 1 [] result := by
  intro left
  rw [Nat.add_comm, run_fault taken]

theorem Takes.after_move {label : Option L} {next : S} {needed : ℕ} {labels : List L} {result : R}
    (taken : step s = .burn (.ok (label, next))) (rest : Takes step next needed labels result) :
    Takes step s (needed + 1) (label.toList ++ labels) result := by
  intro left
  rw [Nat.add_right_comm, run_move taken, rest left]

theorem Takes.exhausted {needed fuel : ℕ} {labels : List L} {result : R} (takes : Takes step s needed labels result)
    (short : fuel < needed) : (run step fuel s).2 = .exhausted := by
  cases ended : (run step fuel s).2 with
  | exhausted => rfl
  | stopped other left =>
    obtain ⟨missing, rfl⟩ := Nat.exists_eq_add_of_lt short
    have longer := run_more_fuel (missing + 1) (Prod.ext rfl ended)
    have whole := takes 0
    rw [Nat.add_zero, Nat.add_assoc, longer] at whole
    have spent := (End.stopped.inj (congrArg Prod.snd whole)).2
    omega

/-- A run takes a certain amount of fuel and ends by itself, or exhausts whatever it is given. -/
theorem takes_or_exhausts (step : S → Step S L R) (s : S) :
    (∃ needed labels result, Takes step s needed labels result) ∨ ∀ fuel, (run step fuel s).2 = .exhausted := by
  by_cases stops : ∃ fuel result left, (run step fuel s).2 = .stopped result left
  · obtain ⟨fuel, result, left, stopped⟩ := stops
    obtain ⟨n, last, reached, ended⟩ := run_reaches step fuel s
    rw [stopped] at ended
    generalize ending : End.stopped result left = final at ended
    cases ended with
    | @stop ends here enough =>
      have takes : Takes step s n (run step fuel s).1 ends := fun left => by
        have ran := reached.run_ended (.stop here (Nat.le_add_right n left))
        rwa [Nat.add_sub_cancel_left] at ran
      exact .inl ⟨n, _, _, takes⟩
    | @fault ends here enough =>
      have takes : Takes step s (n + 1) (run step fuel s).1 ends := fun left => by
        have ran := reached.run_ended (.fault here (show n < n + 1 + left by omega))
        have rest : n + 1 + left - n - 1 = left := by omega
        rwa [rest] at ran
      exact .inl ⟨n + 1, _, _, takes⟩
    | exhausted => cases ending
  · right
    intro fuel
    cases ended : (run step fuel s).2 with
    | exhausted => rfl
    | stopped result left => exact absurd ⟨fuel, result, left, ended⟩ stops

theorem Takes.last {needed : ℕ} {labels : List L} {result : R} (takes : Takes step s needed labels result) :
    ∃ last, step last = .stop result ∨ step last = .burn (.error result) := by
  obtain ⟨n, last, -, ended⟩ := run_reaches step (needed + 0) s
  rw [takes 0] at ended
  generalize ending : End.stopped result 0 = final at ended
  cases ended with
  | stop here =>
    obtain ⟨rfl, -⟩ := End.stopped.inj ending
    exact ⟨last, .inl here⟩
  | fault here =>
    obtain ⟨rfl, -⟩ := End.stopped.inj ending
    exact ⟨last, .inr here⟩
  | exhausted => cases ending

theorem exhausts_of_moves {inv : S → Prop}
    (moves : ∀ s, inv s → ∃ label next, step s = .burn (.ok (label, next)) ∧ inv next) (start : inv s) (fuel : ℕ) :
    (run step fuel s).2 = .exhausted := by
  induction fuel generalizing s with
  | zero =>
    obtain ⟨label, next, taken, -⟩ := moves s start
    rw [run_spent taken]
  | succ fuel ih =>
    obtain ⟨label, next, taken, still⟩ := moves s start
    rw [run_move taken]
    exact ih still

end Endings

section Agreement

variable {first second : S → Step S L R}

theorem run_agree (ends : ∀ s, (second s).ending = (first s).ending) {fuel : ℕ} {s : S}
    (same : ∀ n labels last, Reaches first n s labels last → n < fuel → second last = first last) :
    run second fuel s = run first fuel s := by
  induction fuel generalizing s with
  | zero =>
    have ended := ends s
    cases taken : first s with
    | stop result =>
      rw [taken] at ended
      rw [run_stop taken, run_stop (ending_some.mp ended)]
    | burn after =>
      rw [taken] at ended
      obtain ⟨after', taken'⟩ := ending_none.mp ended
      rw [run_spent taken, run_spent taken']
  | succ fuel ih =>
    have here := same 0 [] s (.refl s) (Nat.succ_pos fuel)
    cases taken : first s with
    | stop result => rw [run_stop taken, run_stop (here.trans taken)]
    | burn after =>
      cases after with
      | error result => rw [run_fault taken, run_fault (here.trans taken)]
      | ok moved =>
        obtain ⟨label, next⟩ := moved
        have rest := ih (s := next) fun n labels last reached within =>
          same (n + 1) _ last (.step taken reached) (Nat.succ_lt_succ within)
        rw [run_move taken, run_move (here.trans taken), rest]

end Agreement

section Lockstep

variable {T R' : Type}

/-- The second machine makes the moves of the first, as long as the first does not end badly. -/
structure Lockstep (first : S → Step S L R) (second : T → Step T L R') (related : S → T → Prop)
    (matched : R → R' → Prop) (good : R → Prop) : Prop where
  stop : ∀ s t result, related s t → first s = .stop result → good result →
    ∃ result', second t = .stop result' ∧ matched result result'
  move : ∀ s t label next, related s t → first s = .burn (.ok (label, next)) →
    ∃ next', second t = .burn (.ok (label, next')) ∧ related next next'
  fault : ∀ s t result, related s t → first s = .burn (.error result) → good result →
    ∃ result', second t = .burn (.error result') ∧ matched result result'

theorem Lockstep.run {first : S → Step S L R} {second : T → Step T L R'} {related : S → T → Prop}
    {matched : R → R' → Prop} {good : R → Prop}
    (pair : Lockstep first second related matched good) {fuel left : ℕ} {s : S} {t : T}
    {labels : List L} {result : R} (start : related s t) (fine : good result)
    (stopped : run first fuel s = (labels, .stopped result left)) :
    ∃ result', Metered.run second fuel t = (labels, .stopped result' left) ∧ matched result result' := by
  induction fuel generalizing s t labels with
  | zero =>
    cases taken : first s with
    | stop ended =>
      rw [run_stop taken] at stopped
      cases stopped
      obtain ⟨result', here, same⟩ := pair.stop s t result start taken fine
      exact ⟨result', run_stop here 0, same⟩
    | burn after => simp [Metered.run, taken] at stopped
  | succ fuel ih =>
    cases taken : first s with
    | stop ended =>
      rw [run_stop taken] at stopped
      cases stopped
      obtain ⟨result', here, same⟩ := pair.stop s t result start taken fine
      exact ⟨result', run_stop here (fuel + 1), same⟩
    | burn after =>
      cases after with
      | error ended =>
        rw [run_fault taken] at stopped
        cases stopped
        obtain ⟨result', here, same⟩ := pair.fault s t result start taken fine
        exact ⟨result', run_fault here left, same⟩
      | ok moved =>
        obtain ⟨label, next⟩ := moved
        obtain ⟨next', here, still⟩ := pair.move s t label next start taken
        rw [run_move taken] at stopped
        obtain ⟨rfl, ending⟩ := Prod.mk.inj stopped
        obtain ⟨result', ran, same⟩ := ih still (Prod.ext rfl ending)
        refine ⟨result', ?_, same⟩
        rw [run_move here, ran]

theorem Lockstep.run_exhausted {first : S → Step S L R} {second : T → Step T L R'} {related : S → T → Prop}
    {matched : R → R' → Prop} {good : R → Prop}
    (pair : Lockstep first second related matched good)
    (pays : ∀ s t after, related s t → first s = .burn after → ∃ after', second t = .burn after') {fuel : ℕ} {s : S}
    {t : T} (start : related s t) (spent : (Metered.run first fuel s).2 = .exhausted) :
    (Metered.run second fuel t).2 = .exhausted := by
  induction fuel generalizing s t with
  | zero =>
    cases taken : first s with
    | stop ended =>
      rw [run_stop taken] at spent
      cases spent
    | burn after =>
      obtain ⟨after', paid⟩ := pays s t after start taken
      rw [run_spent paid]
  | succ fuel ih =>
    cases taken : first s with
    | stop ended =>
      rw [run_stop taken] at spent
      cases spent
    | burn after =>
      cases after with
      | error ended =>
        rw [run_fault taken] at spent
        cases spent
      | ok moved =>
        obtain ⟨label, next⟩ := moved
        obtain ⟨next', here, still⟩ := pair.move s t label next start taken
        rw [run_move taken] at spent
        rw [run_move here]
        exact ih still spent

end Lockstep

end Metered
