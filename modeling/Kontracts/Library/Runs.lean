import Mathlib.Data.Nat.Notation

namespace Runs

variable {S X : Type} (step : S → X → S)

def exec (s : S) (inputs : List X) : S := inputs.foldl step s

/-- A condition on each input and the state it arrives in, all along a run. -/
def Always (holds : S → X → Prop) : S → List X → Prop
  | _, [] => True
  | s, input :: rest => holds s input ∧ Always holds (step s input) rest

instance decidableAlways (holds : S → X → Prop) [each : ∀ s input, Decidable (holds s input)] :
    ∀ s inputs, Decidable (Always step holds s inputs)
  | _, [] => .isTrue True.intro
  | s, input :: rest => @instDecidableAnd _ _ (each s input) (decidableAlways holds (step s input) rest)

def tally (count : S → X → ℕ) : S → List X → ℕ
  | _, [] => 0
  | s, input :: rest => count s input + tally count (step s input) rest

def collect {E : Type} (emit : S → X → List E) : S → List X → List E
  | _, [] => []
  | s, input :: rest => emit s input ++ collect emit (step s input) rest

variable {step}

@[simp] theorem exec_nil (s : S) : exec step s [] = s := rfl

@[simp] theorem exec_cons (s : S) (input : X) (rest : List X) :
    exec step s (input :: rest) = exec step (step s input) rest := rfl

theorem exec_append (s : S) (front back : List X) :
    exec step s (front ++ back) = exec step (exec step s front) back := by
  simp [exec, List.foldl_append]

theorem collect_append {E : Type} (emit : S → X → List E) (s : S) (front back : List X) :
    collect step emit s (front ++ back) = collect step emit s front ++ collect step emit (exec step s front) back := by
  induction front generalizing s with
  | nil => rfl
  | cons head front ih => rw [List.cons_append, collect, collect, ih, List.append_assoc, exec_cons]

theorem Always.split {holds : S → X → Prop} {s : S} {front back : List X} {input : X}
    (always : Always step holds s (front ++ input :: back)) : holds (exec step s front) input := by
  induction front generalizing s with
  | nil => exact always.1
  | cons head front ih => exact ih always.2

theorem Always.mono {holds weaker : S → X → Prop} (implied : ∀ s input, holds s input → weaker s input)
    {s : S} {inputs : List X} (always : Always step holds s inputs) : Always step weaker s inputs := by
  induction inputs generalizing s with
  | nil => exact always
  | cons head tail ih => exact ⟨implied _ _ always.1, ih always.2⟩

theorem Always.and {left right : S → X → Prop} {s : S} {inputs : List X}
    (first : Always step left s inputs) (second : Always step right s inputs) :
    Always step (fun s input => left s input ∧ right s input) s inputs := by
  induction inputs generalizing s with
  | nil => exact True.intro
  | cons head tail ih => exact ⟨⟨first.1, second.1⟩, ih first.2 second.2⟩

theorem always_of_forall {holds : S → X → Prop} {s : S} {inputs : List X}
    (each : ∀ s, ∀ input ∈ inputs, holds s input) : Always step holds s inputs := by
  induction inputs generalizing s with
  | nil => exact True.intro
  | cons head tail ih =>
    exact ⟨each _ head List.mem_cons_self,
      ih fun s input member => each s input (List.mem_cons_of_mem _ member)⟩

theorem tally_congr {count count' : S → X → ℕ} {s : S} {inputs : List X}
    (same : Always step (fun s input => count s input = count' s input) s inputs) :
    tally step count s inputs = tally step count' s inputs := by
  induction inputs generalizing s with
  | nil => rfl
  | cons head tail ih => simp only [tally, same.1, ih same.2]

theorem exec_invariant (inv : S → Prop) {holds : S → X → Prop}
    (preserved : ∀ s input, holds s input → inv s → inv (step s input)) {s : S} {inputs : List X}
    (always : Always step holds s inputs) (start : inv s) : inv (exec step s inputs) := by
  induction inputs generalizing s with
  | nil => exact start
  | cons head tail ih => exact ih always.2 (preserved s head always.1 start)

theorem exec_preserves {inv : S → Prop} (preserved : ∀ s input, inv s → inv (step s input))
    {s : S} (inputs : List X) (start : inv s) : inv (exec step s inputs) := by
  induction inputs generalizing s with
  | nil => exact start
  | cons head tail ih => exact ih (preserved s head start)

theorem Always.forall_mem {holds : X → Prop} {s : S} {inputs : List X}
    (always : Always step (fun _ input => holds input) s inputs) {input : X} (member : input ∈ inputs) :
    holds input := by
  obtain ⟨front, back, rfl⟩ := List.append_of_mem member
  exact always.split

theorem last_break (inv : S → Prop) {s : S} {inputs : List X} (broken : ¬ inv (exec step s inputs)) :
    (¬ inv s ∧ Always step (fun s input => ¬ inv (step s input)) s inputs) ∨
      ∃ front input back, inputs = front ++ input :: back ∧ inv (exec step s front) ∧
        Always step (fun s input => ¬ inv (step s input)) (exec step s front) (input :: back) := by
  induction inputs generalizing s with
  | nil => exact .inl ⟨broken, True.intro⟩
  | cons head tail ih =>
    rcases ih broken with ⟨after, rest⟩ | ⟨front, input, back, rfl, before, rest⟩
    · by_cases now : inv s
      · exact .inr ⟨[], head, tail, rfl, now, after, rest⟩
      · exact .inl ⟨now, after, rest⟩
    · exact .inr ⟨head :: front, input, back, rfl, before, rest⟩

theorem tally_eq_zero_iff (count : S → X → ℕ) (s : S) (inputs : List X) :
    tally step count s inputs = 0 ↔ Always step (fun s input => count s input = 0) s inputs := by
  induction inputs generalizing s with
  | nil => exact ⟨fun _ => True.intro, fun _ => rfl⟩
  | cons head tail ih => rw [tally, Always, Nat.add_eq_zero_iff, ih]

theorem exec_history {E : Type} {emit : S → X → List E} (inv : List E → S → Prop) {holds : S → X → Prop}
    (preserved : ∀ past s input, holds s input → inv past s → inv (past ++ emit s input) (step s input))
    {past : List E} {s : S} {inputs : List X} (always : Always step holds s inputs) (start : inv past s) :
    inv (past ++ collect step emit s inputs) (exec step s inputs) := by
  induction inputs generalizing s past with
  | nil => simpa [collect] using start
  | cons head tail ih =>
    have later := ih always.2 (preserved past s head always.1 start)
    rwa [List.append_assoc] at later

theorem exec_tally {count : S → X → ℕ} (inv : ℕ → S → Prop)
    (preserved : ∀ n s input, inv n s → inv (n + count s input) (step s input)) {n : ℕ} {s : S} (inputs : List X)
    (start : inv n s) : inv (n + tally step count s inputs) (exec step s inputs) := by
  induction inputs generalizing n s with
  | nil => exact start
  | cons head tail ih =>
    have later := ih (preserved n s head start)
    rwa [Nat.add_assoc] at later

theorem Always.front {holds : S → X → Prop} {s : S} {front back : List X}
    (always : Always step holds s (front ++ back)) : Always step holds s front := by
  induction front generalizing s with
  | nil => exact True.intro
  | cons head front ih => exact ⟨always.1, ih always.2⟩

/-- An invariant whose one-step condition is exact holds all along a run exactly where every step meets
    the condition. -/
theorem prefixes_iff_always {inv : S → Prop} {holds : S → X → Prop}
    (exact : ∀ s input, inv s → (inv (step s input) ↔ holds s input)) {s : S} {inputs : List X} (start : inv s) :
    (∀ front back, inputs = front ++ back → inv (exec step s front)) ↔ Always step holds s inputs := by
  induction inputs generalizing s with
  | nil =>
    refine iff_of_true (fun front back split => ?_) True.intro
    rw [(List.append_eq_nil_iff.mp split.symm).1]
    exact start
  | cons head tail ih =>
    constructor
    · intro all
      have first : inv (step s head) := all [head] tail rfl
      refine ⟨(exact s head start).mp first, (ih first).mp fun front back split => ?_⟩
      exact all (head :: front) back (by rw [split, List.cons_append])
    · rintro ⟨now, later⟩ front back split
      have first := (exact s head start).mpr now
      cases front with
      | nil => exact start
      | cons _ front =>
        obtain ⟨rfl, rest⟩ := List.cons.inj split
        exact (ih first).mpr later front back rest

section Paired

inductive Paired (step : S → X → S) (alike : S → X → X → Prop) : S → List X → List X → Prop
  | nil (s : S) : Paired step alike s [] []
  | cons {s : S} {input other : X} {rest others : List X} (now : alike s input other)
      (later : Paired step alike (step s input) rest others) :
      Paired step alike s (input :: rest) (other :: others)

variable {alike : S → X → X → Prop} {s : S} {inputs others : List X}

theorem Paired.exec (same : ∀ s input other, alike s input other → step s other = step s input)
    (paired : Paired step alike s inputs others) : Runs.exec step s others = Runs.exec step s inputs := by
  induction paired with
  | nil => rfl
  | cons now later ih => rw [exec_cons, exec_cons, same _ _ _ now, ih]

theorem Paired.collect {E : Type} {emit : S → X → List E}
    (same : ∀ s input other, alike s input other → step s other = step s input ∧ emit s other = emit s input)
    (paired : Paired step alike s inputs others) :
    Runs.collect step emit s others = Runs.collect step emit s inputs := by
  induction paired with
  | nil => rfl
  | cons now later ih =>
    obtain ⟨stepped, emitted⟩ := same _ _ _ now
    rw [Runs.collect, Runs.collect, stepped, emitted, ih]

end Paired

section Simulation

variable {T Y : Type} {astep : T → Y → T}

/-- The abstract inputs that the steps of a concrete run stand for. -/
def shadow (step : S → X → S) (label : S → X → Y) : S → List X → List Y :=
  collect step (fun s input => [label s input])

theorem shadow_cons (label : S → X → Y) (s : S) (head : X) (tail : List X) :
    shadow step label s (head :: tail) = label s head :: shadow step label (step s head) tail := rfl

def Follows (step : S → X → S) (astep : T → Y → T) (abs : S → T) (label : S → X → Y) : S → List X → Prop :=
  Always step (fun s input => abs (step s input) = astep (abs s) (label s input))

variable {abs : S → T} {label : S → X → Y} {s : S} {inputs : List X}

theorem Follows.exec (follows : Follows step astep abs label s inputs) :
    abs (exec step s inputs) = Runs.exec astep (abs s) (shadow step label s inputs) := by
  induction inputs generalizing s with
  | nil => rfl
  | cons head tail ih =>
    obtain ⟨now, later⟩ := follows
    simp only [exec_cons, shadow, collect, List.singleton_append]
    rw [← now]
    exact ih later

theorem Follows.always (follows : Follows step astep abs label s inputs) {holds : T → Y → Prop}
    (always : Always step (fun s input => holds (abs s) (label s input)) s inputs) :
    Always astep holds (abs s) (shadow step label s inputs) := by
  induction inputs generalizing s with
  | nil => exact True.intro
  | cons head tail ih =>
    obtain ⟨now, later⟩ := follows
    refine ⟨always.1, ?_⟩
    rw [← now]
    exact ih later always.2

theorem Follows.tally (follows : Follows step astep abs label s inputs) (count : T → Y → ℕ) :
    Runs.tally astep count (abs s) (shadow step label s inputs) =
      Runs.tally step (fun s input => count (abs s) (label s input)) s inputs := by
  induction inputs generalizing s with
  | nil => rfl
  | cons head tail ih =>
    obtain ⟨now, later⟩ := follows
    simp only [shadow, collect, List.singleton_append, Runs.tally]
    rw [← now, ← ih later]
    rfl

end Simulation

section Agreement

variable {Y : Type} {other : S → X → S} {holds : S → X → Prop} {s : S} {inputs : List X}

theorem always_congr (agrees : ∀ s input, holds s input → other s input = step s input) :
    Always other holds s inputs ↔ Always step holds s inputs := by
  induction inputs generalizing s with
  | nil => exact Iff.rfl
  | cons head tail ih =>
    refine and_congr_right fun now => ?_
    rw [agrees s head now]
    exact ih

theorem exec_congr (agrees : ∀ s input, holds s input → other s input = step s input)
    (always : Always step holds s inputs) : exec other s inputs = exec step s inputs := by
  induction inputs generalizing s with
  | nil => rfl
  | cons head tail ih =>
    rw [exec_cons, exec_cons, agrees s head always.1]
    exact ih always.2

/-- Two machines show the same all along a run exactly where no input of it tells them apart. -/
theorem shadow_eq_iff {label label' : S → X → Y}
    (agrees : ∀ s input, holds s input → other s input = step s input ∧ label' s input = label s input)
    (differs : ∀ s input, ¬ holds s input → label' s input ≠ label s input) :
    shadow other label' s inputs = shadow step label s inputs ↔ Always step holds s inputs := by
  induction inputs generalizing s with
  | nil => exact iff_of_true rfl True.intro
  | cons head tail ih =>
    rw [shadow_cons, shadow_cons, List.cons.injEq, Always]
    by_cases now : holds s head
    · obtain ⟨stepped, labelled⟩ := agrees s head now
      rw [stepped, ih]
      exact and_congr (iff_of_true labelled now) Iff.rfl
    · exact iff_of_false (fun both => differs s head now both.1) fun both => now both.1

end Agreement

end Runs
