import Mathlib.Data.Multiset.AddSub
import Mathlib.Logic.Relation

set_option autoImplicit true

/-- Work is accepted, is started in the order in which it was accepted, and is finished in any
order. -/
structure Executor (τ : Type) where
  accepted : List τ
  queued : List τ
  started : List τ
  active : Multiset τ
  finished : Multiset τ

namespace Executor

variable {τ : Type} {w w' : Executor τ}

def create : Executor τ := ⟨[], [], [], 0, 0⟩

inductive Step : Executor τ → Executor τ → Prop where
  | accept (w : Executor τ) (t : τ) :
      Step w { w with accepted := w.accepted ++ [t], queued := w.queued ++ [t] }
  | start {w : Executor τ} {t : τ} {rest : List τ} (h : w.queued = t :: rest) :
      Step w { w with queued := rest, started := w.started ++ [t], active := t ::ₘ w.active }
  | finish {w : Executor τ} {t : τ} {rest : Multiset τ} (h : w.active = t ::ₘ rest) :
      Step w { w with active := rest, finished := t ::ₘ w.finished }

/-- Work is started in the order of its acceptance, and each piece is queued, active or finished
once. -/
structure Lawful (w : Executor τ) : Prop where
  inOrder : w.accepted = w.started ++ w.queued
  once : (w.started : Multiset τ) = w.active + w.finished

theorem lawful_create : (create : Executor τ).Lawful := ⟨rfl, rfl⟩

theorem Lawful.step (h : w.Lawful) (hs : Step w w') : w'.Lawful := by
  cases hs with
  | accept t =>
    refine ⟨?_, h.once⟩
    change w.accepted ++ [t] = w.started ++ (w.queued ++ [t])
    rw [h.inOrder, List.append_assoc]
  | @start t rest hq =>
    constructor
    · change w.accepted = w.started ++ [t] ++ rest
      rw [h.inOrder, hq, List.append_assoc]
      rfl
    · change ((w.started ++ [t] : List τ) : Multiset τ) = t ::ₘ w.active + w.finished
      rw [← Multiset.coe_add, h.once, Multiset.coe_singleton, Multiset.cons_add,
        ← Multiset.singleton_add, Multiset.add_comm]
  | @finish t rest ha =>
    refine ⟨h.inOrder, ?_⟩
    change (w.started : Multiset τ) = rest + t ::ₘ w.finished
    rw [h.once, ha, Multiset.cons_add, Multiset.add_cons]

theorem Lawful.run (h : w.Lawful) (hs : Relation.ReflTransGen Step w w') : w'.Lawful := by
  induction hs with
  | refl => exact h
  | tail _ hlast ih => exact ih.step hlast

theorem Lawful.drained (h : w.Lawful) (hq : w.queued = []) (ha : w.active = 0) :
    w.finished = w.accepted := by
  have honce := h.once
  rw [ha, Multiset.zero_add] at honce
  rw [h.inOrder, hq, List.append_nil, honce]

end Executor
