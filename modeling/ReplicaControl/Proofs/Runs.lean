import Mathlib.Data.List.Induction

/-!
# Runs

A run takes one move after the other from a state; the state then is a left fold over the moves.

* `AtEach` — something holds of every move of a run and the state that it finds.  It is decidable if
  that something is.
* `AtEach.invariant` — what every such move preserves, the whole run preserves.
-/

namespace ReplicaControl

variable {σ μ : Type}

/-- Something holds of every move of a run and the state that it finds. -/
def AtEach (next : σ → μ → σ) (P : σ → μ → Prop) (s : σ) : List μ → Prop
  | [] => True
  | m :: moves => P s m ∧ AtEach next P (next s m) moves

instance AtEach.decidable {next : σ → μ → σ} {P : σ → μ → Prop} [∀ s m, Decidable (P s m)] :
    ∀ s moves, Decidable (AtEach next P s moves)
  | _, [] => .isTrue trivial
  | s, m :: moves =>
    have : Decidable (AtEach next P (next s m) moves) := AtEach.decidable (next s m) moves
    inferInstanceAs (Decidable (P s m ∧ AtEach next P (next s m) moves))

namespace AtEach

variable {next : σ → μ → σ} {P : σ → μ → Prop} {s : σ} {moves more : List μ}

theorem append :
    AtEach next P s (moves ++ more) ↔
      AtEach next P s moves ∧ AtEach next P (moves.foldl next s) more := by
  induction moves generalizing s with
  | nil => exact (iff_of_eq (true_and _)).symm
  | cons m moves ih =>
    rw [List.cons_append, AtEach, AtEach, ih, List.foldl_cons, and_assoc]

/-- What every move preserves of which something holds, a run of such moves preserves. -/
theorem invariant {I : σ → Prop} (step : ∀ s m, I s → P s m → I (next s m)) (hs : I s)
    (h : AtEach next P s moves) : I (moves.foldl next s) := by
  induction moves generalizing s with
  | nil => exact hs
  | cons m moves ih => exact ih (step s m hs h.1) h.2

theorem imp {Q : σ → μ → Prop} (hpq : ∀ s m, P s m → Q s m) (h : AtEach next P s moves) :
    AtEach next Q s moves := by
  induction moves generalizing s with
  | nil => trivial
  | cons m moves ih => exact ⟨hpq s m h.1, ih h.2⟩

/-- What holds of the moves in any state holds at each of them. -/
theorem of_forall_mem (h : ∀ m ∈ moves, ∀ s, P s m) : AtEach next P s moves := by
  induction moves generalizing s with
  | nil => trivial
  | cons m moves ih =>
    exact ⟨h m List.mem_cons_self s, ih fun m' hm => h m' (List.mem_cons_of_mem m hm)⟩

end AtEach

end ReplicaControl
