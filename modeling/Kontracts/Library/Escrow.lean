import Kontracts.Library.Runs
import Mathlib.Algebra.BigOperators.Finprod

namespace Escrow

structure Holding where
  free : ℕ
  reserved : ℕ
deriving DecidableEq

namespace Holding

def held (h : Holding) : ℕ := h.free + h.reserved

def lock (h : Holding) (amount : ℕ) : Holding := ⟨h.free - amount, h.reserved + amount⟩

/-- A release pays at most what is reserved. -/
def release (h : Holding) (amount : ℕ) : Holding :=
  ⟨h.free + min amount h.reserved, h.reserved - min amount h.reserved⟩

/-- A seizure takes the free part first and the rest, as far as it goes, from the reserve. -/
def seize (h : Holding) (amount : ℕ) : Holding :=
  ⟨h.free - min amount h.free, h.reserved - min (amount - h.free) h.reserved⟩

theorem held_lock {h : Holding} {amount : ℕ} (covered : amount ≤ h.free) :
    (h.lock amount).held = h.held := by
  simp only [held, lock]
  omega

theorem lock_zero (h : Holding) : h.lock 0 = h := rfl

theorem seize_taken (h : Holding) (amount : ℕ) : h.seize (h.held - (h.seize amount).held) = h.seize amount := by
  simp only [held, seize, mk.injEq]
  omega

theorem held_release (h : Holding) (amount : ℕ) : (h.release amount).held = h.held := by
  simp only [held, release]
  omega

end Holding

structure Book (A I : Type) where
  holding : A → Holding
  size : I → ℕ

inductive Move (A I : Type)
  | idle
  | grow (account : A) (item : I) (amount : ℕ)
  | shrink (account : A) (item : I) (amount : ℕ)
  | penalise (account : A) (amount : ℕ)

variable {A I : Type} [DecidableEq A] [DecidableEq I]

namespace Book

def play (b : Book A I) : Move A I → Book A I
  | .idle => b
  | .grow account item amount =>
    ⟨Function.update b.holding account ((b.holding account).lock amount),
      Function.update b.size item (b.size item + amount)⟩
  | .shrink account item amount =>
    ⟨Function.update b.holding account ((b.holding account).release amount),
      Function.update b.size item (b.size item - amount)⟩
  | .penalise account amount =>
    ⟨Function.update b.holding account ((b.holding account).seize amount), b.size⟩

def Legal (b : Book A I) : Move A I → Prop
  | .grow account _ amount => amount ≤ (b.holding account).free
  | .shrink _ item amount => amount ≤ b.size item
  | .idle | .penalise _ _ => True

def drawn (b : Book A I) : Move A I → ℕ
  | .penalise account amount => min (amount - (b.holding account).free) (b.holding account).reserved
  | _ => 0

def unpaid (b : Book A I) : Move A I → ℕ
  | .shrink account _ amount => amount - (b.holding account).reserved
  | _ => 0

noncomputable def reservedTotal (b : Book A I) : ℕ := ∑ᶠ account, (b.holding account).reserved

noncomputable def sizeTotal (b : Book A I) : ℕ := finsum b.size

structure Finite (b : Book A I) : Prop where
  reserves : (Function.support fun account => (b.holding account).reserved).Finite
  sizes : (Function.support b.size).Finite

end Book

section Totals

variable {ι : Type} [DecidableEq ι]

theorem support_update_finite {f : ι → ℕ} (finite : f.support.Finite) (i : ι) (value : ℕ) :
    (Function.update f i value).support.Finite := by
  refine (finite.insert i).subset fun j nonzero => ?_
  by_cases same : j = i
  · left; exact same
  · right; simpa [same] using nonzero

theorem total_update {f : ι → ℕ} (finite : f.support.Finite) (i : ι) (value : ℕ) :
    finsum (Function.update f i value) + f i = finsum f + value := by
  have old : f.support ⊆ (insert i finite.toFinset : Finset ι) := by
    intro j nonzero
    simp only [Finset.coe_insert, Set.Finite.coe_toFinset]
    exact Set.mem_insert_of_mem i nonzero
  have new : (Function.update f i value).support ⊆ (insert i finite.toFinset : Finset ι) := by
    intro j nonzero
    by_cases same : j = i
    · simp [same]
    · exact old (by simpa [same] using nonzero)
  rw [finsum_eq_sum_of_support_subset _ old, finsum_eq_sum_of_support_subset _ new,
    Finset.sum_update_of_mem (Finset.mem_insert_self i _), ← Finset.erase_eq,
    ← Finset.sum_erase_add _ f (Finset.mem_insert_self i finite.toFinset)]
  omega

theorem le_total {f : ι → ℕ} (finite : f.support.Finite) (i : ι) : f i ≤ finsum f := by
  have removed := total_update finite i 0
  omega

end Totals

namespace Book

theorem reserved_update (holding : A → Holding) (account : A) (h : Holding) :
    (fun a => (Function.update holding account h a).reserved) =
      Function.update (fun a => (holding a).reserved) account h.reserved :=
  Function.comp_update Holding.reserved holding account h

theorem Finite.play {b : Book A I} (finite : b.Finite) (move : Move A I) : (b.play move).Finite := by
  cases move with
  | idle => exact finite
  | grow account item amount | shrink account item amount =>
    refine ⟨?_, support_update_finite finite.sizes item _⟩
    simp only [Book.play, reserved_update]
    exact support_update_finite finite.reserves account _
  | penalise account amount =>
    refine ⟨?_, finite.sizes⟩
    simp only [Book.play, reserved_update]
    exact support_update_finite finite.reserves account _

theorem Finite.run {b : Book A I} (finite : b.Finite) (moves : List (Move A I)) :
    (Runs.exec Book.play b moves).Finite :=
  Runs.exec_preserves (fun _ move still => still.play move) moves finite

theorem play_balance {b : Book A I} (finite : b.Finite) {move : Move A I} (legal : b.Legal move) :
    (b.play move).reservedTotal + b.drawn move + b.sizeTotal =
      (b.play move).sizeTotal + b.unpaid move + b.reservedTotal := by
  cases move with
  | idle => simp only [play, drawn, unpaid]; omega
  | grow account item amount =>
    have reserves := total_update finite.reserves account ((b.holding account).lock amount).reserved
    have sizes := total_update finite.sizes item (b.size item + amount)
    simp only [reservedTotal, sizeTotal, play, reserved_update, drawn, unpaid]
    simp only [Holding.lock] at reserves ⊢
    omega
  | shrink account item amount =>
    have reserves := total_update finite.reserves account ((b.holding account).release amount).reserved
    have sizes := total_update finite.sizes item (b.size item - amount)
    simp only [Legal] at legal
    simp only [reservedTotal, sizeTotal, play, reserved_update, drawn, unpaid]
    simp only [Holding.release] at reserves ⊢
    omega
  | penalise account amount =>
    have reserves := total_update finite.reserves account ((b.holding account).seize amount).reserved
    simp only [reservedTotal, sizeTotal, play, reserved_update, drawn, unpaid]
    simp only [Holding.seize] at reserves ⊢
    omega

/-- Every run: what the reserves lack of the sizes is what penalties drew, less the refunds kept back. -/
theorem run_balance {b : Book A I} (finite : b.Finite) {moves : List (Move A I)}
    (legal : Runs.Always play Legal b moves) :
    (Runs.exec play b moves).reservedTotal + Runs.tally play drawn b moves + b.sizeTotal =
      (Runs.exec play b moves).sizeTotal + Runs.tally play unpaid b moves + b.reservedTotal := by
  induction moves generalizing b with
  | nil => simp only [Runs.exec_nil, Runs.tally]; omega
  | cons move rest ih =>
    have now := play_balance finite legal.1
    have later := ih (finite.play move) legal.2
    simp only [Runs.exec_cons, Runs.tally]
    omega

def Penalty : Move A I → Prop
  | .penalise _ _ => True
  | _ => False

theorem play_held {b : Book A I} {move : Move A I} (legal : b.Legal move) (mild : ¬ Penalty move) (account : A) :
    ((b.play move).holding account).held = (b.holding account).held := by
  cases move with
  | idle => rfl
  | grow payer item amount =>
    simp only [play]
    by_cases same : account = payer
    · rw [same, Function.update_self]
      exact Holding.held_lock legal
    · rw [Function.update_of_ne same]
  | shrink receiver item amount =>
    simp only [play]
    by_cases same : account = receiver
    · rw [same, Function.update_self]
      exact Holding.held_release _ amount
    · rw [Function.update_of_ne same]
  | penalise account amount => exact absurd True.intro mild

theorem run_held {b : Book A I} {moves : List (Move A I)}
    (legal : Runs.Always play (fun b move => b.Legal move ∧ ¬ Penalty move) b moves) (account : A) :
    ((Runs.exec play b moves).holding account).held = (b.holding account).held :=
  Runs.exec_invariant (fun b' => (b'.holding account).held = (b.holding account).held)
    (fun _ _ fine same => (play_held fine.1 fine.2 account).trans same) legal rfl

def By (payer : A) : Move A I → Prop
  | .idle => True
  | .grow account _ _ | .shrink account _ _ => account = payer
  | .penalise _ _ => False

structure Backed (payer : A) (surplus : ℕ) (b : Book A I) : Prop where
  sizes : (Function.support b.size).Finite
  reserve : (b.holding payer).reserved = surplus + b.sizeTotal

theorem Backed.play {payer : A} {surplus : ℕ} {b : Book A I} {move : Move A I} (legal : b.Legal move)
    (only : By payer move) (backed : Backed payer surplus b) : Backed payer surplus (b.play move) := by
  obtain ⟨finite, reserve⟩ := backed
  cases move with
  | idle => exact ⟨finite, reserve⟩
  | grow account item amount =>
    obtain rfl : account = payer := only
    have sizes := total_update finite item (b.size item + amount)
    refine ⟨support_update_finite finite item _, ?_⟩
    simp only [sizeTotal, Book.play, Function.update_self, Holding.lock] at reserve ⊢
    omega
  | shrink account item amount =>
    obtain rfl : account = payer := only
    have sizes := total_update finite item (b.size item - amount)
    -- the refund is not capped: the reserve covers all sizes, so this one too
    have covered : amount ≤ (b.holding account).reserved := by
      have held : b.size item ≤ b.sizeTotal := le_total finite item
      have small : amount ≤ b.size item := legal
      omega
    have small : amount ≤ b.size item := legal
    refine ⟨support_update_finite finite item _, ?_⟩
    simp only [sizeTotal, Book.play, Function.update_self, Holding.release, Nat.min_eq_left covered] at reserve ⊢
    omega
  | penalise account amount => exact absurd only id

theorem Backed.run {payer : A} {surplus : ℕ} {b : Book A I} {moves : List (Move A I)}
    (backed : Backed payer surplus b)
    (legal : Runs.Always Book.play (fun b move => b.Legal move ∧ By payer move) b moves) :
    Backed payer surplus (Runs.exec Book.play b moves) :=
  Runs.exec_invariant _ (fun _ _ fine backed => backed.play fine.1 fine.2) legal backed

end Book

end Escrow
