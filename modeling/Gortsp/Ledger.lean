import Mathlib.Data.Finset.Basic
import Mathlib.Data.Finset.Insert
import Mathlib.Data.Finset.Erase

namespace Ledger
set_option autoImplicit true

inductive Entry (ρ : Type) where
  | acquire (r : ρ)
  | release (r : ρ)
  deriving DecidableEq, Repr

def Entry.resource : Entry ρ → ρ
  | .acquire r => r
  | .release r => r

variable {ρ : Type} [DecidableEq ρ]

/-- The resources held after the ledger, provided that every acquired resource was free and
every released one was held. -/
def settle : Finset ρ → List (Entry ρ) → Option (Finset ρ)
  | held, [] => some held
  | held, .acquire r :: es => if r ∈ held then none else settle (insert r held) es
  | held, .release r :: es => if r ∈ held then settle (held.erase r) es else none

theorem settle_append (held : Finset ρ) (xs ys : List (Entry ρ)) :
    settle held (xs ++ ys) = (settle held xs).bind (settle · ys) := by
  induction xs generalizing held with
  | nil => rfl
  | cons x xs ih =>
    cases x with
    | acquire r => simp only [List.cons_append, settle]; split <;> simp [ih]
    | release r => simp only [List.cons_append, settle]; split <;> simp [ih]

theorem settle_count {held held' : Finset ρ} {es : List (Entry ρ)}
    (h : settle held es = some held') (r : ρ) :
    es.count (.acquire r) + (if r ∈ held then 1 else 0) =
      es.count (.release r) + (if r ∈ held' then 1 else 0) := by
  induction es generalizing held with
  | nil => cases h; rfl
  | cons e es ih =>
    cases e with
    | acquire s =>
      simp only [settle] at h
      split at h
      · cases h
      · next hs =>
        have hc := ih h
        rw [List.count_cons_of_ne (b := Entry.acquire s) (a := Entry.release r) (by simp)]
        by_cases hrs : s = r
        · subst hrs
          rw [if_pos (Finset.mem_insert_self _ _)] at hc
          rw [List.count_cons_self, if_neg hs]
          omega
        · have hne : r ≠ s := fun he => hrs he.symm
          simp only [Finset.mem_insert, hne, false_or] at hc
          rw [List.count_cons_of_ne (by simp [hrs]), hc]
    | release s =>
      simp only [settle] at h
      split at h
      · next hs =>
        have hc := ih h
        rw [List.count_cons_of_ne (b := Entry.release s) (a := Entry.acquire r) (by simp)]
        by_cases hrs : s = r
        · subst hrs
          rw [if_neg (Finset.notMem_erase _ _)] at hc
          rw [List.count_cons_self, if_pos hs]
          omega
        · have hne : r ≠ s := fun he => hrs he.symm
          simp only [Finset.mem_erase, ne_eq, hne, not_false_eq_true, true_and] at hc
          rw [List.count_cons_of_ne (by simp [hrs]), hc]
      · cases h

theorem settle_release {held held' : Finset ρ} {es : List (Entry ρ)}
    (h : settle held es = some held') (hr : r ∈ held) (hr' : r ∉ held') :
    ∃ mid rest, es = mid ++ .release r :: rest ∧ ∀ e ∈ mid, e.resource ≠ r := by
  induction es generalizing held with
  | nil => cases h; exact absurd hr hr'
  | cons e es ih =>
    cases e with
    | acquire s =>
      simp only [settle] at h
      split at h
      · cases h
      · next hs =>
        obtain ⟨mid, rest, he, hmid⟩ := ih h (Finset.mem_insert_of_mem hr)
        have hne : s ≠ r := fun hsr => hs (hsr ▸ hr)
        refine ⟨.acquire s :: mid, rest, by rw [he]; rfl, ?_⟩
        intro e he
        rcases List.mem_cons.1 he with rfl | he
        · exact hne
        · exact hmid e he
    | release s =>
      simp only [settle] at h
      split at h
      · by_cases hsr : s = r
        · subst hsr
          exact ⟨[], es, rfl, by simp⟩
        · have hr₂ : r ∈ held.erase s := Finset.mem_erase.2 ⟨fun he => hsr he.symm, hr⟩
          obtain ⟨mid, rest, he, hmid⟩ := ih h hr₂
          refine ⟨.release s :: mid, rest, by rw [he]; rfl, ?_⟩
          intro e he
          rcases List.mem_cons.1 he with rfl | he
          · exact hsr
          · exact hmid e he
      · cases h

/-- Every acquisition is followed by a release of the same resource before anything else
happens to that resource, and there are no other releases. -/
structure EachReleasedOnce (es : List (Entry ρ)) : Prop where
  released : ∀ pre r post, es = pre ++ .acquire r :: post →
    ∃ mid rest, post = mid ++ .release r :: rest ∧ ∀ e ∈ mid, e.resource ≠ r
  counted : ∀ r, es.count (.release r) = es.count (.acquire r)

theorem eachReleasedOnce_of_settle {es : List (Entry ρ)} (h : settle ∅ es = some ∅) :
    EachReleasedOnce es where
  released := by
    intro pre r post he
    rw [he, settle_append] at h
    obtain ⟨held, hpre, hpost⟩ := Option.bind_eq_some_iff.1 h
    simp only [settle] at hpost
    split at hpost
    · cases hpost
    · exact settle_release hpost (Finset.mem_insert_self _ _) (Finset.notMem_empty _)
  counted := by
    intro r
    simpa using (settle_count h r).symm

end Ledger
