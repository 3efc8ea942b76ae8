import Mathlib.Data.List.Infix

set_option autoImplicit true

/-- Input is held back until what has been gathered satisfies a condition, and is then given out in
one batch. -/
structure Batcher (α : Type) where
  held : List α
  batches : List (List α)

namespace Batcher

variable {α : Type} {P : List α → Prop} {b : Batcher α} {fed piece what : List α}

def empty : Batcher α := ⟨[], []⟩

def out (b : Batcher α) : List α := b.batches.flatten

def feed (P : List α → Prop) [DecidablePred P] (b : Batcher α) (piece : List α) : Batcher α :=
  if P (b.held ++ piece) then ⟨[], b.batches ++ [b.held ++ piece]⟩
  else ⟨b.held ++ piece, b.batches⟩

/-- What a batcher holds and gave out after it was fed: everything in order, only full batches,
and nothing full is held back. -/
structure Fed (P : List α → Prop) (fed : List α) (b : Batcher α) : Prop where
  all : b.out ++ b.held = fed
  full : ∀ batch ∈ b.batches, P batch
  partially : ¬P b.held

theorem empty_fed (h : ¬P []) : Fed P [] empty := by
  refine ⟨rfl, ?_, h⟩
  intro batch hmem
  cases hmem

theorem Fed.feed [DecidablePred P] (h : Fed P fed b) (hnil : ¬P []) (piece : List α) :
    Fed P (fed ++ piece) (b.feed P piece) := by
  rw [Batcher.feed]
  by_cases hp : P (b.held ++ piece)
  · rw [if_pos hp]
    refine ⟨?_, ?_, hnil⟩
    · rw [out, List.flatten_append, List.flatten_singleton, ← h.all, List.append_nil, out]
      simp only [List.append_assoc]
    · intro batch hmem
      rcases List.mem_append.1 hmem with hold | hnew
      · exact h.full batch hold
      · rw [List.mem_singleton.1 hnew]
        exact hp
  · rw [if_neg hp]
    refine ⟨?_, h.full, hp⟩
    rw [← h.all, List.append_assoc]
    rfl

/-- Where the condition is that a pattern occurs, what is held back comes after the first element
of its last occurrence. -/
theorem Fed.held_suffix (h : Fed (what <:+: ·) fed b) (hpost : what ++ post <:+ fed) :
    b.held <:+ what.tail ++ post := by
  have hheld : b.held <:+ fed := ⟨b.out, h.all⟩
  have hshort : b.held.length < (what ++ post).length := by
    by_contra hlong
    have hin : what ++ post <:+ b.held :=
      List.suffix_of_suffix_length_le hpost hheld (Nat.le_of_not_lt hlong)
    exact h.partially ((List.prefix_append what post).isInfix.trans hin.isInfix)
  have htail : what.tail ++ post <:+ fed :=
    (List.suffix_append_self_iff.2 (List.tail_suffix what)).trans hpost
  apply List.suffix_of_suffix_length_le hheld htail
  rw [List.length_append] at hshort
  rw [List.length_append, List.length_tail]
  omega

theorem Fed.held_all (h : Fed (what <:+: ·) fed b) (hno : ¬what <:+: fed) :
    b.batches = [] ∧ b.held = fed := by
  have hnil : b.batches = [] := by
    apply List.eq_nil_iff_forall_not_mem.2
    intro batch hmem
    apply hno
    have hout : batch <:+: b.out := List.infix_of_mem_flatten hmem
    have hfed : b.out <:+: fed := ⟨[], b.held, h.all⟩
    exact (h.full batch hmem).trans (hout.trans hfed)
  refine ⟨hnil, ?_⟩
  have hall := h.all
  rw [out, hnil] at hall
  exact hall

end Batcher
