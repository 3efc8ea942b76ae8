import Mathlib.Logic.Basic

/-- A computation that reads the answers `ρ` of its environment, updates a state `σ`, and
either returns a value or stops with a fault `ε`. -/
structure Routine (ρ σ ε α : Type) where
  run : ρ → σ → Except ε (α × σ)

namespace Routine
set_option autoImplicit true

instance : Monad (Routine ρ σ ε) where
  pure v := ⟨fun _ s => .ok (v, s)⟩
  bind x f := ⟨fun a s =>
    match x.run a s with
    | .ok (v, s') => (f v).run a s'
    | .error e => .error e⟩

def fault (e : ε) : Routine ρ σ ε α := ⟨fun _ _ => .error e⟩

def lift (x : Except ε α) : Routine ρ σ ε α := ⟨fun _ s => x.map (·, s)⟩

def deref (e : ε) : Option α → Routine ρ σ ε α
  | some v => pure v
  | none => fault e

theorem map_ok_cases {x : Except ε α} {f : α → β} (h : x.map f = .ok w) :
    ∃ v, x = .ok v ∧ f v = w := by
  cases x with
  | error e => cases h
  | ok v => exact ⟨v, rfl, Except.ok.inj h⟩

theorem bind_ok_cases {x : Except ε α} {f : α → Except ε β} (h : x >>= f = .ok w) :
    ∃ v, x = .ok v ∧ f v = .ok w := by
  cases x with
  | error e => cases h
  | ok v => exact ⟨v, rfl, h⟩

theorem mapError_ok_cases {x : Except ε α} {f : ε → ε'} (h : x.mapError f = .ok v) :
    x = .ok v := by
  cases x with
  | error e => cases h
  | ok w =>
    cases h
    rfl

@[simp] theorem run_pure (v : α) (a : ρ) (s : σ) :
    (pure v : Routine ρ σ ε α).run a s = .ok (v, s) := rfl

@[simp] theorem run_bind (x : Routine ρ σ ε α) (f : α → Routine ρ σ ε β) (a : ρ) (s : σ) :
    (x >>= f).run a s =
      match x.run a s with
      | .ok (v, s') => (f v).run a s'
      | .error e => .error e := rfl

theorem run_bind_ok {x : Routine ρ σ ε α} (h : x.run a s = .ok (v, s'))
    (f : α → Routine ρ σ ε β) : (x >>= f).run a s = (f v).run a s' := by
  rw [run_bind, h]

@[simp] theorem run_ite (c : Prop) [Decidable c] (x y : Routine ρ σ ε α) (a : ρ) (s : σ) :
    (if c then x else y).run a s = if c then x.run a s else y.run a s := by
  split <;> rfl

@[simp] theorem run_lift_ok (v : α) (a : ρ) (s : σ) :
    (lift (.ok v) : Routine ρ σ ε α).run a s = .ok (v, s) := rfl

@[simp] theorem deref_some (e : ε) (v : α) :
    (deref e (some v) : Routine ρ σ ε α) = pure v := rfl

end Routine
