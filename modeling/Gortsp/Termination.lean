import Gortsp.Machine

namespace Machine
set_option autoImplicit true

variable {σ ι ε : Type} {step : σ → ι → Except ε σ} {own : ι → Prop} {I P : σ → Prop}

def Stuck (step : σ → ι → Except ε σ) (own : ι → Prop) (s : σ) : Prop :=
  ∀ i, own i → ∀ t, step s i ≠ .ok t

/-- The runs by inputs of this kind are bounded in length, and one that cannot be continued has
come to a state that satisfies `P`. -/
def Terminates (step : σ → ι → Except ε σ) (own : ι → Prop) (P : σ → Prop) (s : σ) : Prop :=
  (∃ n, ∀ is t, (∀ i ∈ is, own i) → run step s is = .ok t → is.length ≤ n) ∧
    ∀ is t, (∀ i ∈ is, own i) → run step s is = .ok t → Stuck step own t → P t

theorem run_invariant_own (hstep : ∀ s i t, own i → I s → step s i = .ok t → I t) {s t : σ}
    (hs : I s) (hown : ∀ i ∈ is, own i) (h : run step s is = .ok t) : I t := by
  induction is generalizing s with
  | nil =>
    cases h
    exact hs
  | cons i is ih =>
    obtain ⟨u, hu, hr⟩ := run_cons_cases h
    obtain ⟨hi, his⟩ := List.forall_mem_cons.1 hown
    exact ih (hstep s i u hi hs hu) his hr

theorem run_measure (μ : σ → Nat) (hstep : ∀ s i t, own i → I s → step s i = .ok t → I t)
    (hless : ∀ s i t, own i → I s → step s i = .ok t → μ t < μ s) {s t : σ} (hs : I s)
    (hown : ∀ i ∈ is, own i) (h : run step s is = .ok t) : is.length + μ t ≤ μ s := by
  induction is generalizing s with
  | nil =>
    cases h
    exact Nat.le_of_eq (Nat.zero_add _)
  | cons i is ih =>
    obtain ⟨u, hu, hr⟩ := run_cons_cases h
    obtain ⟨hi, his⟩ := List.forall_mem_cons.1 hown
    have hrest := ih (hstep s i u hi hs hu) his hr
    have hfirst := hless s i u hi hs hu
    rw [List.length_cons]
    omega

/-- With an invariant and a measure, what is left to show is that only states that satisfy `P`
are stuck. -/
theorem Terminates.of_measure (μ : σ → Nat)
    (hstep : ∀ s i t, own i → I s → step s i = .ok t → I t)
    (hless : ∀ s i t, own i → I s → step s i = .ok t → μ t < μ s)
    (hstuck : ∀ s, I s → Stuck step own s → P s) {s : σ} (hs : I s) :
    Terminates step own P s := by
  constructor
  · refine ⟨μ s, fun is t hown hr => ?_⟩
    have hlen := run_measure μ hstep hless hs hown hr
    omega
  · intro is t hown hr hno
    exact hstuck t (run_invariant_own hstep hs hown hr) hno

theorem Terminates.exists_run {s : σ} (h : Terminates step own P s) :
    ∃ is t, (∀ i ∈ is, own i) ∧ run step s is = .ok t ∧ P t := by
  obtain ⟨⟨n, hn⟩, hend⟩ := h
  have hlong (m : Nat) : (∃ is t, (∀ i ∈ is, own i) ∧ run step s is = .ok t ∧ P t) ∨
      ∃ is t, (∀ i ∈ is, own i) ∧ run step s is = .ok t ∧ is.length = m := by
    induction m with
    | zero => exact .inr ⟨[], s, fun i hi => (List.not_mem_nil hi).elim, rfl, rfl⟩
    | succ m ih =>
      rcases ih with hdone | ⟨is, t, hown, hr, hlen⟩
      · exact .inl hdone
      · by_cases hno : Stuck step own t
        · exact .inl ⟨is, t, hown, hr, hend is t hown hr hno⟩
        · simp only [Stuck, not_forall, not_not] at hno
          obtain ⟨i, hi, u, hu⟩ := hno
          refine .inr ⟨is ++ [i], u, ?_, ?_, ?_⟩
          · intro j hj
            rcases List.mem_append.1 hj with hj | hj
            · exact hown j hj
            · rw [List.mem_singleton.1 hj]
              exact hi
          · rw [run_append_ok hr, run_cons_ok hu, run_nil]
          · rw [List.length_append, List.length_singleton, hlen]
  rcases hlong (n + 1) with hdone | ⟨is, t, hown, hr, hlen⟩
  · exact hdone
  · have hle := hn is t hown hr
    omega

/-- Whatever inputs come in between, only so many of this kind can be taken, and where none of them
can, `P` holds. -/
def TerminatesAmid (step : σ → ι → Except ε σ) (own : ι → Bool) (P : σ → Prop) (s : σ) : Prop :=
  (∃ n, ∀ is t, run step s is = .ok t → is.countP own ≤ n) ∧
    ∀ is t, run step s is = .ok t → Stuck step (own · = true) t → P t

theorem run_countP {own : ι → Bool} (μ : σ → Nat)
    (hstep : ∀ s i t, I s → step s i = .ok t → I t)
    (hless : ∀ s i t, own i = true → I s → step s i = .ok t → μ t < μ s)
    (hle : ∀ s i t, own i = false → I s → step s i = .ok t → μ t ≤ μ s) {s t : σ} (hs : I s)
    (h : run step s is = .ok t) : is.countP own + μ t ≤ μ s := by
  induction is generalizing s with
  | nil =>
    cases h
    exact Nat.le_of_eq (Nat.zero_add _)
  | cons i is ih =>
    obtain ⟨u, hu, hr⟩ := run_cons_cases h
    have hrest := ih (hstep s i u hs hu) hr
    cases hi : own i with
    | true =>
      have hfirst := hless s i u hi hs hu
      rw [List.countP_cons_of_pos hi]
      omega
    | false =>
      have hfirst := hle s i u hi hs hu
      rw [List.countP_cons_of_neg (Bool.not_eq_true _ ▸ hi)]
      omega

theorem TerminatesAmid.of_measure {own : ι → Bool} (μ : σ → Nat)
    (hstep : ∀ s i t, I s → step s i = .ok t → I t)
    (hless : ∀ s i t, own i = true → I s → step s i = .ok t → μ t < μ s)
    (hle : ∀ s i t, own i = false → I s → step s i = .ok t → μ t ≤ μ s)
    (hstuck : ∀ s, I s → Stuck step (own · = true) s → P s) {s : σ} (hs : I s) :
    TerminatesAmid step own P s := by
  constructor
  · refine ⟨μ s, fun is t hr => ?_⟩
    have hlen := run_countP μ hstep hless hle hs hr
    omega
  · intro is t hr hno
    exact hstuck t (run_invariant hstep hs hr) hno

end Machine
