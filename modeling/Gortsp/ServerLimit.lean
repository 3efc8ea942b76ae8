import Gortsp.ServerClients

namespace Gortsp.TcpServer
set_option autoImplicit true

def WithinLimit (limit : UInt16) (srv : TcpServer) : Prop :=
  srv.connections.entries.length ≤ limit.toNat ∧
    srv.taskScheduler.evtHandler.bufferEvents.length ≤ limit.toNat

/-- A connection that arrives at the limit is turned away: neither store changes, and its
descriptor is closed. -/
def TurnsAway (n : Int) (state : TcpServer × Kernel) (c : Arrival) : Prop :=
  ∃ srv k, occur n state (.connect c) = .ok (srv, k) ∧
    srv.connections = state.1.connections ∧
    srv.taskScheduler.evtHandler.bufferEvents = state.1.taskScheduler.evtHandler.bufferEvents ∧
    k.table c.fd = none

def KeepsLimit (limit : UInt16) (n : Int) (state : TcpServer × Kernel) (e : ConnEvent) : Prop :=
  (∀ t, occur n state e = .ok t → t.1.WithinLimit limit) ∧
    ∀ c, e = .connect c → limit.toNat ≤ state.1.connections.entries.length →
      TurnsAway n state c

/-- The limit is kept over a run; a fault ends the run. -/
def StaysWithin (limit : UInt16) (srv : TcpServer) (k : Kernel) (evs : List ConnEvent) : Prop :=
  srv.WithinLimit limit ∧
    Machine.Along (occur srv.serverSocket.fd) (KeepsLimit limit srv.serverSocket.fd) (srv, k) evs

variable {limit : UInt16} {k k' : Kernel} {n m : Int}

theorem accepted_sizes (limit : UInt16) (n m : Int) :
    (accepted limit n m).connections.entries.length = 1 ∧
      (accepted limit n m).taskScheduler.evtHandler.bufferEvents.length = 1 := ⟨rfl, rfl⟩

theorem accepted_withinLimit : (accepted limit n m).WithinLimit limit ↔ 1 ≤ limit.toNat := by
  obtain ⟨hconns, hbevs⟩ := accepted_sizes limit n m
  rw [WithinLimit, hconns, hbevs, and_self]

theorem keepsLimit_accepted (h : occur n (accepted limit n m, k) e = .error .nullDeref) :
    KeepsLimit limit n (accepted limit n m, k) e ↔ 2 ≤ limit.toNat ∨ ∀ c, e ≠ .connect c := by
  constructor
  · intro hkeep
    by_cases hlimit : 2 ≤ limit.toNat
    · exact .inl hlimit
    · right
      intro c he
      subst he
      have hfull : limit.toNat ≤ (accepted limit n m).connections.entries.length := by
        rw [(accepted_sizes limit n m).1]
        omega
      obtain ⟨srv, k', hok, -⟩ := hkeep.2 c rfl hfull
      cases h.symm.trans hok
  · intro hlimit
    refine ⟨fun t ht => ?_, fun c he hfull => ?_⟩
    · cases h.symm.trans ht
    · rw [(accepted_sizes limit n m).1] at hfull
      rcases hlimit with hlimit | hlimit
      · omega
      · exact absurd he (hlimit c)

theorem along_accepted (limit : UInt16) (k : Kernel) {k₀ : Kernel} (hne : m ≠ n)
    {evs : List ConnEvent}
    (hw : WellFormed k₀ {m} evs) :
    Machine.Along (occur n) (KeepsLimit limit n) (accepted limit n m, k) evs ↔
      2 ≤ limit.toNat ∨ ∀ c, evs.head? ≠ some (.connect c) := by
  cases evs with
  | nil => exact iff_of_true trivial (.inr fun c he => by cases he)
  | cons e rest =>
    have hfault : occur n (accepted limit n m, k) e = .error .nullDeref := occur_second hne hw
    simp only [Machine.Along, keepsLimit_accepted hfault, List.head?_cons, ne_eq,
      Option.some.injEq, and_iff_left_iff_imp]
    intro _ t ht
    cases hfault.symm.trans ht

theorem not_keepsLimit_zero (h₀ : limit.toNat = 0) {state : TcpServer × Kernel} {e : ConnEvent}
    (h : occur n state e = .ok (accepted limit n m, k)) : ¬KeepsLimit limit n state e := by
  intro hkeep
  have hone := accepted_withinLimit.1 (hkeep.1 _ h)
  omega

theorem along_listening (hf : k.table n = some f) (hl : f.listening = true)
    {evs : List ConnEvent} (hw : WellFormed k ∅ evs) :
    Machine.Along (occur n) (KeepsLimit limit n) (listening limit n, k) evs ↔
      2 ≤ limit.toNat ∨ ∀ c, evs[limit.toNat]? ≠ some (.connect c) := by
  match evs with
  | [] => exact iff_of_true trivial (.inr fun c he => by cases he)
  | .ended fd what a :: rest => exact absurd hw.1 (Finset.notMem_empty fd)
  | .connect c :: rest =>
    obtain ⟨h₀, hfree, -, hw'⟩ := hw
    obtain ⟨k', hfirst, -⟩ := step_first limit hf hl h₀ hfree
    have hoccur : occur n (listening limit n, k) (.connect c) =
        .ok (accepted limit n c.fd, k') := hfirst
    by_cases hzero : limit.toNat = 0
    · apply iff_of_false
      · intro halong
        exact not_keepsLimit_zero hzero hoccur halong.1
      · rintro (h | h)
        · omega
        · rw [hzero] at h
          exact h c rfl
    · have hkeep : KeepsLimit limit n (listening limit n, k) (.connect c) := by
        refine ⟨fun t ht => ?_, fun d _ hfull => ?_⟩
        · cases hoccur.symm.trans ht
          rw [accepted_withinLimit]
          omega
        · have hnone : (listening limit n).connections.entries.length = 0 := rfl
          rw [hnone] at hfull
          omega
      have hrest := along_accepted limit k' (Kernel.ne_of_free hf hfree) hw'
      have halong : Machine.Along (occur n) (KeepsLimit limit n) (listening limit n, k)
          (.connect c :: rest) ↔
          Machine.Along (occur n) (KeepsLimit limit n) (accepted limit n c.fd, k') rest := by
        constructor
        · intro h
          exact h.2 _ hoccur
        · intro h
          refine ⟨hkeep, fun t ht => ?_⟩
          cases hoccur.symm.trans ht
          exact h
      rw [halong, hrest]
      by_cases hone : limit.toNat = 1
      · rw [hone, List.getElem?_cons_succ, List.head?_eq_getElem?]
      · have htwo : 2 ≤ limit.toNat := by omega
        exact iff_of_true (.inl htwo) (.inl htwo)

/-- The limit is kept exactly when it is at least two, since with one connection the server
breaks down at the next event, or no connection arrives at the limit. -/
theorem staysWithin_iff {srv : TcpServer} {evs : List ConnEvent} (h : Initialised limit srv k)
    (hw : WellFormed k ∅ evs) :
    StaysWithin limit srv k evs ↔
      2 ≤ limit.toNat ∨ ∀ c, evs[limit.toNat]? ≠ some (.connect c) := by
  obtain ⟨n, f, rfl, hf, hl⟩ := h.listening
  have hstart : (listening limit n).WithinLimit limit := ⟨Nat.zero_le _, Nat.zero_le _⟩
  rw [StaysWithin, and_iff_right hstart]
  exact along_listening hf hl hw

theorem wellFormed_connect (hfree : k.table 5 = none) :
    WellFormed k ∅ [.connect ⟨5, 2, {}⟩] :=
  ⟨by decide, hfree, Finset.notMem_empty 5, trivial⟩

theorem staysWithin_iff_one : ∃ k, Initialised 0 (listening 0 3) k ∧
    (StaysWithin 0 (listening 0 3) k [.connect ⟨5, 2, {}⟩] ↔ 2 ≤ (0 : UInt16).toNat ∨
      ∀ c, [ConnEvent.connect ⟨5, 2, {}⟩][(0 : UInt16).toNat]? ≠ some (.connect c)) := by
  obtain ⟨k, hstart, -, hfree⟩ := exists_started 0
  have hinit := initialised_started hstart
  exact ⟨k, hinit, staysWithin_iff hinit (wellFormed_connect (hfree 5 (by decide)))⟩

theorem not_staysWithin_zero : ∃ k, Initialised 0 (listening 0 3) k ∧
    WellFormed k ∅ [.connect ⟨5, 2, {}⟩] ∧
    ¬StaysWithin 0 (listening 0 3) k [.connect ⟨5, 2, {}⟩] := by
  obtain ⟨k, hstart, ⟨f, hf, hl⟩, hfree⟩ := exists_started 0
  have hw := wellFormed_connect (hfree 5 (by decide))
  refine ⟨k, initialised_started hstart, hw, fun h => ?_⟩
  obtain ⟨k', hfirst, -⟩ := step_first 0 hf hl (c := ⟨5, 2, {}⟩) (by decide)
    (hfree 5 (by decide))
  have hoccur : occur 3 (listening 0 3, k) (.connect ⟨5, 2, {}⟩) = .ok (accepted 0 3 5, k') :=
    hfirst
  exact not_keepsLimit_zero rfl hoccur h.2.1

end Gortsp.TcpServer
