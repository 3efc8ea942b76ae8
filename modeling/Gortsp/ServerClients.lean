import Gortsp.ServerPhases

namespace Gortsp
set_option autoImplicit true

structure Arrival where
  fd : Int
  events : Int16
  answers : Answers

def Arrival.input (c : Arrival) (n : Int) : ServerInput × Answers :=
  (.fire (.event n c.events), { c.answers with accept := some c.fd })

namespace TcpServer

def Initialised (limit : UInt16) (srv : TcpServer) (k : Kernel) : Prop :=
  ∃ k₀ srv₀ k₁ port a, Machine.Reachable step (createWith limit, k₀) (srv₀, k₁) ∧
    (srv₀.init port).run a k₁ = .ok ((.success, srv), k)

theorem Initialised.listening (h : Initialised limit srv k) :
    ∃ n f, srv = TcpServer.listening limit n ∧ k.table n = some f ∧ f.listening = true := by
  obtain ⟨k₀, srv₀, k₁, port, a, hreach, hinit⟩ := h
  obtain ⟨held, conns, hp⟩ := phase_of_reachable hreach
  exact init_success hp hinit

def bufferEventsOn (srv : TcpServer) (fd : Int) : List (BufferEvent EventCb IOEventCb) :=
  srv.taskScheduler.evtHandler.bufferEvents.filter (·.ptr.fd = fd)

/-- Every connection that arrived is in the table, under its own descriptor, and registered
once. -/
structure Holds (arrivals : List Arrival) (state : TcpServer × Kernel) : Prop where
  keys : state.1.connections.keys.Perm (arrivals.map Arrival.fd)
  owned : ∀ c ∈ arrivals, ∃ conn, state.1.connections.lookup c.fd = some conn ∧ conn.Owns c.fd ∧
    (state.2.table c.fd).isSome
  registered : ∀ c ∈ arrivals, (state.1.bufferEventsOn c.fd).length = 1

def arrive (n : Int) (state : TcpServer × Kernel) (c : Arrival) :
    Except Fault (TcpServer × Kernel) := step state (c.input n)

def AcceptsAll (srv : TcpServer) (k : Kernel) (arrivals : List Arrival) : Prop :=
  Machine.Always (arrive srv.serverSocket.fd) Holds (srv, k) arrivals

variable {srv : TcpServer} {k k' : Kernel} {n m : Int}

theorem accepted_lookup (limit : UInt16) (n m : Int) :
    (accepted limit n m).connections.lookup m = some (TcpConnection.ofAccept m) :=
  AList.lookup_insert _

theorem accepted_bufferEventsOn (limit : UInt16) (n m fd : Int) :
    ((accepted limit n m).bufferEventsOn fd).length = if m = fd then 1 else 0 := by
  have hlist : (accepted limit n m).taskScheduler.evtHandler.bufferEvents =
      [.new m (some .onReadFunc) none (some .onDisconnectFunc)] := rfl
  have hptr : (BufferEvent.new m (some IOEventCb.onReadFunc) none
      (some EventCb.onDisconnectFunc)).ptr.fd = m := rfl
  rw [bufferEventsOn, hlist, List.filter_cons, hptr]
  by_cases h : m = fd
  · simp [h]
  · simp [h]

theorem step_first (limit : UInt16) (hf : k.table n = some f) (hl : f.listening = true)
    {c : Arrival} (h₀ : 0 ≤ c.fd) (hfree : k.table c.fd = none) :
    ∃ k', arrive n (listening limit n, k) c = .ok (accepted limit n c.fd, k') ∧
      (k'.table c.fd).isSome := by
  have hgrant : k.grant (some c.fd) = c.fd := k.grant_some h₀ hfree
  obtain ⟨k', hrun, hk⟩ := fire_listening_connect (a := (c.input n).2) limit hf hl hgrant c.events
  have htable : ((k.install c.fd (acceptedSocket f (c.input n).2)).record
      (.accept n c.fd)).table c.fd = some (acceptedSocket f (c.input n).2) := by
    rw [Kernel.record_table, Kernel.install_self k h₀]
  obtain ⟨g, hg, -⟩ := hk.table htable
  exact ⟨k', hrun, Option.isSome_of_eq_some hg⟩

theorem step_second (hne : m ≠ n) (c : Arrival) :
    arrive n (accepted limit n m, k) c = .error .nullDeref :=
  fire_accepted_event hne c.events

theorem holds_listening (limit : UInt16) (n : Int) (k : Kernel) :
    Holds [] (listening limit n, k) where
  keys := .refl _
  owned := fun _ hc => absurd hc List.not_mem_nil
  registered := fun _ hc => absurd hc List.not_mem_nil

theorem holds_accepted (limit : UInt16) (n : Int) {c : Arrival} (hopen : (k.table c.fd).isSome) :
    Holds [c] (accepted limit n c.fd, k) where
  keys := .refl _
  owned := by
    intro d hd
    rw [List.mem_singleton.1 hd]
    exact ⟨_, accepted_lookup limit n c.fd, ⟨rfl, rfl⟩, hopen⟩
  registered := by
    intro d hd
    rw [List.mem_singleton.1 hd, accepted_bufferEventsOn, if_pos rfl]

theorem not_acceptsAll_second (hf : k.table n = some f) (hl : f.listening = true) {c d : Arrival}
    (h₀ : 0 ≤ c.fd) (hfree : k.table c.fd = none) (rest : List Arrival) :
    ¬AcceptsAll (listening limit n) k (c :: d :: rest) := by
  obtain ⟨k', hfirst, -⟩ := step_first limit hf hl h₀ hfree
  exact Machine.not_always_of_error hfirst (step_second (Kernel.ne_of_free hf hfree) d) rest

/-- An initialised server accepts every connection exactly when there is at most one. -/
theorem acceptsAll_iff {arrivals : List Arrival} (h : Initialised limit srv k)
    (hfree : ∀ c ∈ arrivals, 0 ≤ c.fd ∧ k.table c.fd = none) :
    AcceptsAll srv k arrivals ↔ arrivals.length ≤ 1 := by
  obtain ⟨n, f, rfl, hf, hl⟩ := h.listening
  match arrivals with
  | [] => exact iff_of_true (Machine.always_nil.2 (holds_listening limit n k)) (by decide)
  | [c] =>
    obtain ⟨h₀, hc⟩ := hfree c (List.mem_singleton_self c)
    obtain ⟨k', hstep, hopen⟩ := step_first limit hf hl h₀ hc
    apply iff_of_true _ (by simp)
    exact Machine.always_singleton.2
      ⟨holds_listening limit n k, _, hstep, holds_accepted limit n hopen⟩
  | c :: d :: rest =>
    obtain ⟨h₀, hc⟩ := hfree c List.mem_cons_self
    apply iff_of_false (not_acceptsAll_second hf hl h₀ hc rest)
    simp

theorem initialised_started
    (h : ((createWith limit).init 8080).run startAnswers .boot =
      .ok ((.success, listening limit 3), k)) : Initialised limit (listening limit 3) k :=
  ⟨.boot, createWith limit, .boot, 8080, startAnswers, .refl _, h⟩

theorem acceptsAll_iff_two_clients : ∃ k, Initialised 16 (listening 16 3) k ∧
    (AcceptsAll (listening 16 3) k [⟨5, 2, {}⟩, ⟨6, 2, {}⟩] ↔
      [Arrival.mk 5 2 {}, ⟨6, 2, {}⟩].length ≤ 1) := by
  obtain ⟨k, hstart, -, hfree⟩ := exists_started 16
  have hinit := initialised_started hstart
  refine ⟨k, hinit, acceptsAll_iff hinit fun c hc => ?_⟩
  rcases List.mem_cons.1 hc with hc | hc
  · rw [hc]
    exact ⟨by decide, hfree 5 (by decide)⟩
  · rw [List.mem_singleton.1 hc]
    exact ⟨by decide, hfree 6 (by decide)⟩

theorem not_acceptsAll_two_clients : ∃ k, Initialised 16 (listening 16 3) k ∧
    k.table 5 = none ∧ k.table 6 = none ∧
    ¬AcceptsAll (listening 16 3) k [⟨5, 2, {}⟩, ⟨6, 2, {}⟩] := by
  obtain ⟨k, hstart, ⟨f, hf, hl⟩, hfree⟩ := exists_started 16
  have hinit := initialised_started hstart
  have hfive := hfree 5 (by decide)
  exact ⟨k, hinit, hfive, hfree 6 (by decide),
    not_acceptsAll_second hf hl (c := ⟨5, 2, {}⟩) (by decide) hfive []⟩

inductive ConnEvent where
  | connect (c : Arrival)
  | ended (fd : Int) (what : Int16) (a : Answers)

def ConnEvent.input (n : Int) : ConnEvent → ServerInput × Answers
  | .connect c => c.input n
  | .ended fd what a => (.fire (.error fd what), a)

def occur (n : Int) (state : TcpServer × Kernel) (e : ConnEvent) :
    Except Fault (TcpServer × Kernel) := step state (e.input n)

def live (evs : List ConnEvent) : Finset Int :=
  evs.foldl (fun fds e => match e with
    | .connect c => insert c.fd fds
    | .ended fd _ _ => fds.erase fd) ∅

/-- The table, the event base and the kernel agree on which connections there are. -/
structure InStep (evs : List ConnEvent) (state : TcpServer × Kernel) : Prop where
  keys : ∀ fd, fd ∈ state.1.connections ↔ fd ∈ live evs
  owned : ∀ fd ∈ live evs, ∃ conn, state.1.connections.lookup fd = some conn ∧ conn.Owns fd ∧
    (state.2.table fd).isSome
  registered : ∀ fd, (state.1.bufferEventsOn fd).length = if fd ∈ live evs then 1 else 0
  closed : ∀ c, .connect c ∈ evs → c.fd ∉ live evs → state.2.table c.fd = none

/-- The kernel hands out numbers that are not in use, and only live connections end. -/
def WellFormed (k : Kernel) : Finset Int → List ConnEvent → Prop
  | _, [] => True
  | fds, .connect c :: rest => 0 ≤ c.fd ∧ k.table c.fd = none ∧ c.fd ∉ fds ∧
      WellFormed k (insert c.fd fds) rest
  | fds, .ended fd _ _ :: rest => fd ∈ fds ∧ WellFormed k (fds.erase fd) rest

def StaysInStep (srv : TcpServer) (k : Kernel) (evs : List ConnEvent) : Prop :=
  Machine.Always (occur srv.serverSocket.fd) InStep (srv, k) evs

theorem inStep_listening (limit : UInt16) (n : Int) (k : Kernel) :
    InStep [] (listening limit n, k) where
  keys := fun fd => iff_of_false (AList.notMem_empty fd) (Finset.notMem_empty fd)
  owned := fun fd hfd => absurd hfd (Finset.notMem_empty fd)
  registered := fun _ => rfl
  closed := fun _ hc => absurd hc List.not_mem_nil

theorem live_connect (c : Arrival) : live [.connect c] = {c.fd} := rfl

theorem inStep_accepted (limit : UInt16) (n : Int) {c : Arrival} (hopen : (k.table c.fd).isSome) :
    InStep [.connect c] (accepted limit n c.fd, k) where
  keys := by
    intro fd
    rw [live_connect, Finset.mem_singleton]
    have hinsert : fd ∈ (accepted limit n c.fd).connections ↔
        fd = c.fd ∨ fd ∈ (∅ : AList fun _ : Int => TcpConnection) := AList.mem_insert _
    rw [hinsert]
    exact or_iff_left (AList.notMem_empty fd)
  owned := by
    intro fd hfd
    rw [live_connect, Finset.mem_singleton] at hfd
    rw [hfd]
    exact ⟨_, accepted_lookup limit n c.fd, ⟨rfl, rfl⟩, hopen⟩
  registered := by
    intro fd
    rw [accepted_bufferEventsOn, live_connect]
    simp only [Finset.mem_singleton, eq_comm]
  closed := by
    intro d hd hlive
    cases List.mem_singleton.1 hd
    exact absurd (Finset.mem_singleton_self c.fd) hlive

theorem occur_second (hne : m ≠ n) {e : ConnEvent} (hw : WellFormed k₀ {m} (e :: rest)) :
    occur n (accepted limit n m, k) e = .error .nullDeref := by
  cases e with
  | connect c => exact fire_accepted_event hne c.events
  | ended fd what a =>
    cases Finset.mem_singleton.1 hw.1
    exact fire_accepted_ready (.inr ⟨what, rfl⟩)

theorem not_staysInStep_second (hf : k.table n = some f) (hl : f.listening = true)
    {e e' : ConnEvent} (hw : WellFormed k ∅ (e :: e' :: rest)) :
    ¬StaysInStep (listening limit n) k (e :: e' :: rest) := by
  cases e with
  | ended fd what a => exact absurd hw.1 (Finset.notMem_empty fd)
  | connect c =>
    obtain ⟨h₀, hfree, -, hw'⟩ := hw
    obtain ⟨k', hfirst, -⟩ := step_first limit hf hl h₀ hfree
    have hfirst' : occur n (listening limit n, k) (.connect c) = .ok (accepted limit n c.fd, k') :=
      hfirst
    exact Machine.not_always_of_error hfirst' (occur_second (Kernel.ne_of_free hf hfree) hw') rest

/-- The three stores stay in step exactly when nothing follows the first connection. -/
theorem staysInStep_iff {evs : List ConnEvent} (h : Initialised limit srv k)
    (hw : WellFormed k ∅ evs) : StaysInStep srv k evs ↔ evs.length ≤ 1 := by
  obtain ⟨n, f, rfl, hf, hl⟩ := h.listening
  match evs with
  | [] => exact iff_of_true (Machine.always_nil.2 (inStep_listening limit n k)) (by decide)
  | [.ended fd what a] => exact absurd hw.1 (Finset.notMem_empty fd)
  | [.connect c] =>
    obtain ⟨h₀, hc, -⟩ := hw
    obtain ⟨k', hstep, hopen⟩ := step_first limit hf hl h₀ hc
    apply iff_of_true _ (by simp)
    exact Machine.always_singleton.2
      ⟨inStep_listening limit n k, _, hstep, inStep_accepted limit n hopen⟩
  | e :: e' :: rest =>
    apply iff_of_false (not_staysInStep_second hf hl hw)
    simp

theorem wellFormed_disconnect (hfree : k.table 5 = none) :
    WellFormed k ∅ [.connect ⟨5, 2, {}⟩, .ended 5 17 {}] :=
  ⟨by decide, hfree, Finset.notMem_empty 5, Finset.mem_insert_self 5 ∅, trivial⟩

theorem staysInStep_iff_disconnect : ∃ k, Initialised 16 (listening 16 3) k ∧
    (StaysInStep (listening 16 3) k [.connect ⟨5, 2, {}⟩, .ended 5 17 {}] ↔
      [ConnEvent.connect ⟨5, 2, {}⟩, .ended 5 17 {}].length ≤ 1) := by
  obtain ⟨k, hstart, -, hfree⟩ := exists_started 16
  have hinit := initialised_started hstart
  exact ⟨k, hinit, staysInStep_iff hinit (wellFormed_disconnect (hfree 5 (by decide)))⟩

theorem not_staysInStep_disconnect : ∃ k, Initialised 16 (listening 16 3) k ∧
    WellFormed k ∅ [.connect ⟨5, 2, {}⟩, .ended 5 17 {}] ∧
    ¬StaysInStep (listening 16 3) k [.connect ⟨5, 2, {}⟩, .ended 5 17 {}] := by
  obtain ⟨k, hstart, ⟨f, hf, hl⟩, hfree⟩ := exists_started 16
  have hinit := initialised_started hstart
  have hw := wellFormed_disconnect (hfree 5 (by decide))
  exact ⟨k, hinit, hw, not_staysInStep_second hf hl hw⟩

/-- A readiness event to which `::accept` answers with an error changes nothing, now or later. -/
def FailedAcceptHarmless (srv : TcpServer) (k : Kernel) (mask : Int16) (a : Answers) : Prop :=
  ∃ srv' k' calls, step (srv, k) (.fire (.event srv.serverSocket.fd mask), a) = .ok (srv', k') ∧
    k'.log = k.log ++ calls ∧ (∀ fd data ret, Call.send fd data ret ∉ calls) ∧
    srv'.connections = srv.connections ∧
    srv'.taskScheduler.evtHandler.bufferEvents = srv.taskScheduler.evtHandler.bufferEvents ∧
    srv'.serverSocket.stat = .listened ∧ srv'.serverSocket.fd = srv.serverSocket.fd ∧
    ∀ is, (Machine.run step (srv', k') is).map (·.1) = (Machine.run step (srv, k) is).map (·.1)

theorem not_harmless_listening (limit : UInt16) (hf : k.table n = some f)
    (hl : f.listening = true) (hfail : k.grant a.accept = -1) (mask : Int16) :
    ¬FailedAcceptHarmless (listening limit n) k mask a := by
  rintro ⟨srv', k', calls, hstep, -, -, hconns, -⟩
  obtain ⟨k'', hrun, -⟩ := fire_listening_connect limit hf hl hfail mask
  cases hstep.symm.trans hrun
  have hempty : (accepted limit n (-1)).connections = ∅ := hconns
  have hlookup := accepted_lookup limit n (-1)
  rw [hempty, AList.lookup_empty] at hlookup
  cases hlookup

theorem not_harmless_accepted (hne : m ≠ n) (mask : Int16) :
    ¬FailedAcceptHarmless (accepted limit n m) k mask a := by
  rintro ⟨srv', k', calls, hstep, -⟩
  cases hstep.symm.trans (fire_accepted_event hne mask)

/-- A failed `accept` is never harmless: the first makes a connection of `-1`, and a later
readiness event faults. -/
theorem failedAccept_never_harmless
    (hreach : Machine.Reachable step (createWith limit, k₀) (srv, k))
    (hlisten : ∃ f, k.table srv.serverSocket.fd = some f ∧ f.listening = true)
    (hfail : k.grant a.accept = -1) (mask : Int16) : ¬FailedAcceptHarmless srv k mask a := by
  obtain ⟨held, conns, hp⟩ := phase_of_reachable hreach
  cases hp with
  | listening hf hl => exact not_harmless_listening limit hf hl hfail mask
  | @refused k n f hf hl =>
    have hn := k.nonneg_of_table hf
    exact not_harmless_accepted (by omega) mask
  | connected hf hl hm hne => exact not_harmless_accepted hne mask
  | @starting k s held ht htcp hstat =>
    obtain ⟨f, hf, hl⟩ := hlisten
    cases ht with
    | closed t =>
      have hnone := k.table_neg (-1) (by decide)
      cases hnone.symm.trans hf
    | @opened t n stat g hg hd =>
      cases hg.symm.trans hf
      rcases hstat with hs | hs | hs
      · cases hs
        exact hd.elim
      · cases hs
        cases hd.2.2.symm.trans hl
      · cases hs
        cases hd.2.symm.trans hl

theorem failedAccept_never_harmless_first : ∃ k,
    Machine.Reachable step (createWith 16, .boot) (listening 16 3, k) ∧
      ¬FailedAcceptHarmless (listening 16 3) k 2 {} := by
  obtain ⟨k, hstart, hlisten, -⟩ := exists_started 16
  have hreach := (Machine.Reachable.refl (createWith 16, Kernel.boot)).snoc (step_init hstart)
  exact ⟨k, hreach, failedAccept_never_harmless hreach hlisten rfl 2⟩

theorem spurious_readiness_not_harmless : ∃ k f,
    Machine.Reachable step (createWith 16, .boot) (listening 16 3, k) ∧
      k.table 3 = some f ∧ f.listening = true ∧ k.grant none = -1 ∧
      ¬FailedAcceptHarmless (listening 16 3) k 2 { accept := none } := by
  obtain ⟨k, hstart, ⟨f, hf, hl⟩, -⟩ := exists_started 16
  have hreach := (Machine.Reachable.refl (createWith 16, Kernel.boot)).snoc (step_init hstart)
  exact ⟨k, f, hreach, hf, hl, rfl, not_harmless_listening 16 hf hl rfl 2⟩

end TcpServer

end Gortsp
