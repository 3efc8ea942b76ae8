import Mathlib.Data.List.Infix

namespace Machine
set_option autoImplicit true

variable {σ ι ε : Type}

/-- The machine's inputs, taken one after another; the first fault ends the run. -/
def run (step : σ → ι → Except ε σ) : σ → List ι → Except ε σ
  | s, [] => .ok s
  | s, i :: is => do run step (← step s i) is

def Reachable (step : σ → ι → Except ε σ) (s t : σ) : Prop := ∃ is, run step s is = .ok t

/-- Every prefix of the inputs runs to completion and leaves a state that satisfies `P`,
which may speak of the inputs taken so far. -/
def Always (step : σ → ι → Except ε σ) (P : List ι → σ → Prop) (s : σ) (is : List ι) : Prop :=
  ∀ pre, pre <+: is → ∃ t, run step s pre = .ok t ∧ P pre t

/-- Every input of the run is taken in a state that it fits; a fault ends the run. -/
def Along (step : σ → ι → Except ε σ) (Q : σ → ι → Prop) : σ → List ι → Prop
  | _, [] => True
  | s, i :: is => Q s i ∧ ∀ t, step s i = .ok t → Along step Q t is

variable {step : σ → ι → Except ε σ} {P : List ι → σ → Prop}

@[simp] theorem run_nil (s : σ) : run step s [] = .ok s := rfl

theorem run_cons_ok {s t : σ} (h : step s i = .ok t) (is : List ι) :
    run step s (i :: is) = run step t is := by
  simp only [run, h]
  rfl

theorem run_cons_error {s : σ} {e : ε} (h : step s i = .error e) (is : List ι) :
    run step s (i :: is) = .error e := by
  simp only [run, h]
  rfl

theorem run_cons_cases {s t : σ} (h : run step s (i :: is) = .ok t) :
    ∃ u, step s i = .ok u ∧ run step u is = .ok t := by
  cases hs : step s i with
  | error e => rw [run_cons_error hs] at h; cases h
  | ok u => exact ⟨u, rfl, by rwa [run_cons_ok hs] at h⟩

theorem run_append_ok {s t : σ} (h : run step s is = .ok t) (js : List ι) :
    run step s (is ++ js) = run step t js := by
  induction is generalizing s with
  | nil => cases h; rfl
  | cons i is ih =>
    obtain ⟨u, hu, hr⟩ := run_cons_cases h
    rw [List.cons_append, run_cons_ok hu, ih hr]

/-- A property kept by every step holds after every run. -/
theorem run_invariant {I : σ → Prop}
    (hstep : ∀ s i t, I s → step s i = .ok t → I t) {s t : σ} (hs : I s)
    (h : run step s is = .ok t) : I t := by
  induction is generalizing s with
  | nil => cases h; exact hs
  | cons i is ih =>
    obtain ⟨u, hu, hr⟩ := run_cons_cases h
    exact ih (hstep s i u hs hu) hr

theorem Reachable.refl (s : σ) : Reachable step s s := ⟨[], rfl⟩

theorem Reachable.snoc {s t u : σ} (h : Reachable step s t) (hu : step t i = .ok u) :
    Reachable step s u := by
  obtain ⟨is, hr⟩ := h
  exact ⟨is ++ [i], by rw [run_append_ok hr, run_cons_ok hu, run_nil]⟩

theorem Reachable.invariant {I : σ → Prop} {s t : σ} (h : Reachable step s t) (hs : I s)
    (hstep : ∀ s i t, I s → step s i = .ok t → I t) : I t := by
  obtain ⟨is, hr⟩ := h
  exact run_invariant hstep hs hr

theorem run_total {I : σ → Prop} (hstep : ∀ s i, I s → ∃ t, step s i = .ok t ∧ I t)
    {s : σ} (hs : I s) (is : List ι) : ∃ t, run step s is = .ok t ∧ I t := by
  induction is generalizing s with
  | nil => exact ⟨s, rfl, hs⟩
  | cons i is ih =>
    obtain ⟨u, hu, hI⟩ := hstep s i hs
    obtain ⟨t, ht, hI'⟩ := ih hI
    exact ⟨t, by rw [run_cons_ok hu, ht], hI'⟩

theorem always_nil {s : σ} : Always step P s [] ↔ P [] s := by
  constructor
  · intro h
    obtain ⟨t, ht, hP⟩ := h [] (List.prefix_refl _)
    cases ht
    exact hP
  · intro h pre hpre
    rw [List.prefix_nil.1 hpre]
    exact ⟨s, rfl, h⟩

theorem Always.of_prefix {s : σ} (h : Always step P s is) (hp : js <+: is) :
    Always step P s js :=
  fun pre hpre => h pre (hpre.trans hp)

theorem always_singleton {s : σ} :
    Always step P s [i] ↔ P [] s ∧ ∃ t, step s i = .ok t ∧ P [i] t := by
  constructor
  · intro h
    refine ⟨always_nil.1 (h.of_prefix (List.nil_prefix)), ?_⟩
    obtain ⟨t, ht, hP⟩ := h [i] (List.prefix_refl _)
    obtain ⟨u, hu, hr⟩ := run_cons_cases ht
    cases hr
    exact ⟨_, hu, hP⟩
  · rintro ⟨hnil, t, ht, hP⟩ pre hpre
    rcases List.prefix_cons_iff.1 hpre with rfl | ⟨rest, rfl, hrest⟩
    · exact ⟨s, rfl, hnil⟩
    · rw [List.prefix_nil.1 hrest]
      exact ⟨t, run_cons_ok ht [], hP⟩

theorem not_always_of_error {s t : σ} {e : ε} (hi : step s i = .ok t)
    (hj : step t j = .error e) (is : List ι) : ¬ Always step P s (i :: j :: is) := by
  intro h
  obtain ⟨u, hu, -⟩ := h [i, j] ⟨is, rfl⟩
  rw [run_cons_ok hi, run_cons_error hj] at hu
  cases hu

theorem along_cons_ok {Q : σ → ι → Prop} {s t : σ} (h : step s i = .ok t) (is : List ι) :
    Along step Q s (i :: is) ↔ Q s i ∧ Along step Q t is := by
  constructor
  · intro ⟨hi, hrest⟩
    exact ⟨hi, hrest t h⟩
  · intro ⟨hi, hrest⟩
    refine ⟨hi, fun u hu => ?_⟩
    cases h.symm.trans hu
    exact hrest

theorem along_iff {Q R : σ → ι → Prop} {I : σ → Prop} (h : ∀ s i, I s → (Q s i ↔ R s i))
    (hI : ∀ s i t, I s → R s i → step s i = .ok t → I t) {s : σ} (hs : I s) (is : List ι) :
    Along step Q s is ↔ Along step R s is := by
  induction is generalizing s with
  | nil => exact Iff.rfl
  | cons i is ih =>
    constructor
    · intro hq
      obtain ⟨hi, hrest⟩ := hq
      have hr := (h s i hs).1 hi
      refine ⟨hr, ?_⟩
      intro t ht
      exact (ih (hI s i t hs hr ht)).1 (hrest t ht)
    · intro hr
      obtain ⟨hi, hrest⟩ := hr
      refine ⟨(h s i hs).2 hi, ?_⟩
      intro t ht
      exact (ih (hI s i t hs hi ht)).2 (hrest t ht)

theorem along_of_invariant {Q : σ → ι → Prop} {I : σ → Prop} (h : ∀ s i, I s → Q s i)
    (hI : ∀ s i t, I s → step s i = .ok t → I t) {s : σ} (hs : I s) (is : List ι) :
    Along step Q s is := by
  induction is generalizing s with
  | nil => trivial
  | cons i is ih =>
    refine ⟨h s i hs, ?_⟩
    intro t ht
    exact ih (hI s i t hs ht)

theorem run_along {Q : σ → ι → Prop} {I : σ → Prop}
    (hstep : ∀ s i, I s → Q s i → ∃ t, step s i = .ok t ∧ I t) {s : σ} (hs : I s)
    (h : Along step Q s is) : ∃ t, run step s is = .ok t ∧ I t := by
  induction is generalizing s with
  | nil => exact ⟨s, rfl, hs⟩
  | cons i is ih =>
    obtain ⟨hi, hrest⟩ := h
    obtain ⟨u, hu, hI⟩ := hstep s i hs hi
    obtain ⟨t, ht, hI'⟩ := ih hI (hrest u hu)
    exact ⟨t, by rw [run_cons_ok hu, ht], hI'⟩

end Machine
