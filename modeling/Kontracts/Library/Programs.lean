import Mathlib.Data.Nat.Notation

/-- A program is done, gives up, or calls an operation and goes on from the answer. -/
inductive Program (Op : Type) (Answer : Op → Type) (A : Type)
  | done (result : A)
  | fail
  | call (op : Op) (next : Answer op → Program Op Answer A)

namespace Program

variable {Op : Type} {Answer : Op → Type} {A B S T E F : Type}

def bind : Program Op Answer A → (A → Program Op Answer B) → Program Op Answer B
  | .done result, rest => rest result
  | .fail, _ => .fail
  | .call op next, rest => .call op (fun answer => (next answer).bind rest)

instance instMonad : Monad (Program Op Answer) where
  pure := .done
  bind := .bind

theorem done_bind (result : A) (rest : A → Program Op Answer B) :
    ((.done result : Program Op Answer A) >>= rest) = rest result := rfl

theorem call_bind (op : Op) (next : Answer op → Program Op Answer A) (rest : A → Program Op Answer B) :
    (Program.call op next >>= rest) = .call op (fun answer => next answer >>= rest) := rfl

def Calls (allowed : Op → Prop) : Program Op Answer A → Prop
  | .done _ | .fail => True
  | .call op next => allowed op ∧ ∀ answer, (next answer).Calls allowed

theorem Calls.bind {allowed : Op → Prop} {program : Program Op Answer A} {rest : A → Program Op Answer B}
    (first : program.Calls allowed) (later : ∀ a, (rest a).Calls allowed) : (program >>= rest).Calls allowed := by
  induction program with
  | done result => exact later result
  | fail => exact True.intro
  | call op next ih => exact ⟨first.1, fun answer => ih answer (first.2 answer)⟩

def CallsWhile (allowed : Op → Prop) (expected : (op : Op) → Answer op → Prop) : Program Op Answer A → Prop
  | .done _ | .fail => True
  | .call op next => allowed op ∧ ∀ answer, expected op answer → (next answer).CallsWhile allowed expected

theorem CallsWhile.of_calls {allowed : Op → Prop} {program : Program Op Answer A} (uses : program.Calls allowed)
    (expected : (op : Op) → Answer op → Prop) : program.CallsWhile allowed expected := by
  induction program with
  | done result => exact True.intro
  | fail => exact True.intro
  | call op next ih => exact ⟨uses.1, fun answer _ => ih answer (uses.2 answer)⟩

theorem calls_any (program : Program Op Answer A) : program.Calls (fun _ => True) := by
  induction program with
  | done result => exact True.intro
  | fail => exact True.intro
  | call op next ih => exact ⟨True.intro, ih⟩

structure Handler (Op : Type) (Answer : Op → Type) (S E : Type) where
  answer : (op : Op) → S → Except E (Answer op × S)
  failure : E

def run (handle : Handler Op Answer S E) : Program Op Answer A → S → Except E (A × S)
  | .done result, s => .ok (result, s)
  | .fail, _ => .error handle.failure
  | .call op next, s =>
    match handle.answer op s with
    | .ok (answer, s') => (next answer).run handle s'
    | .error why => .error why

def calls (handle : Handler Op Answer S E) : Program Op Answer A → S → ℕ
  | .done _, _ | .fail, _ => 0
  | .call op next, s =>
    match handle.answer op s with
    | .ok (answer, s') => (next answer).calls handle s' + 1
    | .error _ => 1

section Runs

variable {handle : Handler Op Answer S E} {op : Op} {next : Answer op → Program Op Answer A} {s : S}

@[simp] theorem run_done (result : A) (s : S) :
    (.done result : Program Op Answer A).run handle s = .ok (result, s) := rfl

@[simp] theorem run_fail (s : S) : (.fail : Program Op Answer A).run handle s = .error handle.failure := rfl

theorem run_answered {answer : Answer op} {s' : S} (answered : handle.answer op s = .ok (answer, s')) :
    (Program.call op next).run handle s = (next answer).run handle s' := by
  simp only [run, answered]

theorem run_refused {why : E} (refused : handle.answer op s = .error why) :
    (Program.call op next).run handle s = .error why := by
  simp only [run, refused]

theorem calls_answered {answer : Answer op} {s' : S} (answered : handle.answer op s = .ok (answer, s')) :
    (Program.call op next).calls handle s = (next answer).calls handle s' + 1 := by
  simp only [calls, answered]

theorem calls_refused {why : E} (refused : handle.answer op s = .error why) :
    (Program.call op next).calls handle s = 1 := by
  simp only [calls, refused]

theorem run_error (blamed : E → Prop) (calls : ∀ op s why, handle.answer op s = .error why → blamed why)
    (failure : blamed handle.failure) {program : Program Op Answer A} {why : E}
    (failed : program.run handle s = .error why) : blamed why := by
  induction program generalizing s with
  | done result => cases failed
  | fail =>
    cases failed
    exact failure
  | call op next ih =>
    cases answered : handle.answer op s with
    | error why' =>
      rw [run_refused answered] at failed
      cases failed
      exact calls op s why answered
    | ok both =>
      rw [run_answered answered] at failed
      exact ih both.1 failed

theorem run_ok {a : A} {s' : S} (ran : (Program.call op next).run handle s = .ok (a, s')) :
    ∃ answer s₁, handle.answer op s = .ok (answer, s₁) ∧ (next answer).run handle s₁ = .ok (a, s') := by
  cases answered : handle.answer op s with
  | error why =>
    rw [run_refused answered] at ran
    cases ran
  | ok both =>
    obtain ⟨answer, s₁⟩ := both
    rw [run_answered answered] at ran
    exact ⟨answer, s₁, rfl, ran⟩

end Runs

section Rules

variable {handle : Handler Op Answer S E}

/-- A run that starts within `before` and returns ends within `after`. -/
def Ensures (handle : Handler Op Answer S E) (before : S → Prop) (program : Program Op Answer A)
    (after : A → S → Prop) : Prop :=
  ∀ s a s', before s → program.run handle s = .ok (a, s') → after a s'

theorem Ensures.done {before : S → Prop} {after : A → S → Prop} {result : A}
    (holds : ∀ s, before s → after result s) :
    Ensures handle before (.done result : Program Op Answer A) after := by
  intro s a s' start ran
  cases ran
  exact holds s start

theorem Ensures.call {before : S → Prop} {op : Op} (middle : Answer op → S → Prop)
    {next : Answer op → Program Op Answer A} {after : A → S → Prop}
    (first : ∀ s answer s', before s → handle.answer op s = .ok (answer, s') → middle answer s')
    (rest : ∀ answer, Ensures handle (middle answer) (next answer) after) :
    Ensures handle before (.call op next) after := by
  intro s a s' start ran
  obtain ⟨answer, s₁, answered, ran⟩ := run_ok ran
  exact rest answer s₁ a s' (first s answer s₁ start answered) ran

theorem Ensures.bind {before : S → Prop} {program : Program Op Answer A} (middle : A → S → Prop)
    {rest : A → Program Op Answer B} {after : B → S → Prop} (first : Ensures handle before program middle)
    (later : ∀ a, Ensures handle (middle a) (rest a) after) : Ensures handle before (program >>= rest) after := by
  induction program generalizing before with
  | done result =>
    intro s b s' start ran
    exact later result s b s' (first s result s start rfl) ran
  | fail =>
    intro s b s' start ran
    cases ran
  | call op next ih =>
    refine Ensures.call (fun answer s' => ∃ s, before s ∧ handle.answer op s = .ok (answer, s'))
      (fun s answer s' start answered => ⟨s, start, answered⟩) fun answer => ih answer ?_
    rintro s₁ a s' ⟨s, start, answered⟩ ran
    exact first s a s' start ((run_answered answered).trans ran)

theorem Ensures.invariant {inv : S → Prop} {allowed : Op → Prop} {program : Program Op Answer A}
    (uses : program.Calls allowed)
    (kept : ∀ op s answer s', allowed op → inv s → handle.answer op s = .ok (answer, s') → inv s') :
    Ensures handle inv program (fun _ => inv) := by
  induction program with
  | done result => exact Ensures.done fun _ holds => holds
  | fail =>
    intro s a s' holds ran
    cases ran
  | call op next ih =>
    exact Ensures.call (fun _ => inv) (fun s answer s' holds answered => kept op s answer s' uses.1 holds answered)
      fun answer => ih answer (uses.2 answer)

end Rules

section Simulation

inductive Alike (related : S → T → Prop) (matched : E → F → Prop) : Except E (A × S) → Except F (A × T) → Prop
  | ok {a : A} {s : S} {t : T} (still : related s t) : Alike related matched (.ok (a, s)) (.ok (a, t))
  | error {why : E} {why' : F} (same : matched why why') : Alike related matched (.error why) (.error why')

/-- Two handlers that answer allowed operations alike, the first one as expected; the relation may depend
    on how many calls are still to come. -/
structure Simulates (first : Handler Op Answer S E) (second : Handler Op Answer T F) (allowed : Op → Prop)
    (expected : (op : Op) → Answer op → Prop) (related : ℕ → S → T → Prop) (matched : E → F → Prop) : Prop where
  answer : ∀ n op s t, allowed op → related (n + 1) s t →
    Alike (related n) matched (first.answer op s) (second.answer op t)
  expect : ∀ n op s t answer s', allowed op → related (n + 1) s t → first.answer op s = .ok (answer, s') →
    expected op answer
  failure : matched first.failure second.failure

theorem Simulates.run {first : Handler Op Answer S E} {second : Handler Op Answer T F} {allowed : Op → Prop}
    {expected : (op : Op) → Answer op → Prop} {related : ℕ → S → T → Prop} {matched : E → F → Prop}
    (simulates : Simulates first second allowed expected related matched) {program : Program Op Answer A}
    (uses : program.CallsWhile allowed expected) {n : ℕ} {s : S} {t : T} (start : related n s t)
    (few : program.calls first s ≤ n) :
    Alike (fun s t => ∃ left, related left s t) matched (program.run first s) (program.run second t) := by
  induction program generalizing n s t with
  | done result => exact .ok ⟨n, start⟩
  | fail => exact .error simulates.failure
  | call op next ih =>
    obtain ⟨permitted, rest⟩ := uses
    have some : n ≠ 0 := by
      rintro rfl
      cases answered : first.answer op s with
      | error why =>
        rw [calls_refused answered] at few
        omega
      | ok both =>
        rw [calls_answered answered] at few
        omega
    obtain ⟨left, rfl⟩ := Nat.exists_eq_succ_of_ne_zero some
    have alike := simulates.answer left op s t permitted start
    generalize here : first.answer op s = result at alike
    generalize there : second.answer op t = result' at alike
    cases alike with
    | error same =>
      rw [run_refused here, run_refused there]
      exact .error same
    | ok still =>
      rw [calls_answered here] at few
      rw [run_answered here, run_answered there]
      exact ih _ (rest _ (simulates.expect left op s t _ _ permitted start here)) still (by omega)

end Simulation

end Program
