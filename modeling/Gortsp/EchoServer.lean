import Gortsp.Batcher
import Gortsp.CharArray
import Gortsp.Machine
import Gortsp.Platform

namespace Gortsp.EventTest
set_option autoImplicit true

def maxLine : Nat := 256

def delimiter : List UInt8 := "==".toUTF8.data.toList

def welcome : List UInt8 := "Welcome to My socket".toUTF8.data.toList

/-- An accepted connection. `input` and `output` belong to the bufferevent and `buf` is the
argument of its callbacks; `received` and `sent` are what came from the socket and what was put
on it. -/
structure Session where
  input : List UInt8
  buf : List UInt8
  output : List UInt8
  received : List UInt8
  sent : List UInt8

/-- `sessions` holds the connections whose bufferevent has not been freed. Unlike descriptors, the
numbers of connections are not used again while one is there. -/
structure Server where
  sessions : Nat → Option Session

inductive Stop where
  | exit (status : Int)
  | fault (f : Fault)
  | blocked
  deriving DecidableEq

/-- The place of the first occurrence, if there is one. -/
def evbufferSearch (buf what : List UInt8) : Option Nat := buf.tails.findIdx? (what.isPrefixOf ·)

abbrev Line := CharArray (maxLine + 1)

namespace Session

def add (s : Session) (bytes : List UInt8) : Session :=
  let s := { s with buf := s.buf ++ bytes }
  match evbufferSearch s.buf delimiter with
  | some _ => { s with output := s.output ++ s.buf, buf := [] }
  | none => s

theorem add_input (s : Session) (bytes : List UInt8) : (s.add bytes).input = s.input := by
  rw [add]
  split
  · rfl
  · rfl

theorem add_received (s : Session) (bytes : List UInt8) :
    (s.add bytes).received = s.received := by
  rw [add]
  split
  · rfl
  · rfl

theorem add_sent (s : Session) (bytes : List UInt8) : (s.add bytes).sent = s.sent := by
  rw [add]
  split
  · rfl
  · rfl

def read (s : Session) (line : Line) : Except Fault (Nat × Session × Line) := do
  let bytes := s.input.take maxLine
  let line ← Fault.inBounds (line.store 0 bytes)
  return (bytes.length, { s with input := s.input.drop maxLine }, line)

def turn (s : Session) (line : Line) : Except Fault (Bool × Session × Line) := do
  let (n, s, line) ← s.read line
  if n > 0 then
    let line ← Fault.inBounds (line.store n [0])
    let bytes ← Fault.inBounds (line.load n)
    return (true, s.add bytes, line)
  else return (false, s, line)

theorem turn_shorter {s s' : Session} {line line' : Line}
    (h : s.turn line = .ok (true, s', line')) : s'.input.length < s.input.length := by
  obtain ⟨⟨n, s₁, line₁⟩, hread, h⟩ := Routine.bind_ok_cases h
  obtain ⟨line₂, -, hread⟩ := Routine.bind_ok_cases hread
  cases hread
  simp only at h
  split at h
  · next hpos =>
    obtain ⟨line₃, -, h⟩ := Routine.bind_ok_cases h
    obtain ⟨bytes, -, h⟩ := Routine.bind_ok_cases h
    cases h
    rw [List.length_take, maxLine] at hpos
    rw [add_input, List.length_drop, maxLine]
    omega
  · cases h

/-- The line is not initialised. -/
def readCb (s : Session) (line : Line) : Except Fault Session :=
  match _h : s.turn line with
  | .ok (true, s', line') => readCb s' line'
  | .ok (false, s', _) => .ok s'
  | .error e => .error e
termination_by s.input.length
decreasing_by exact turn_shorter _h

/-- The connection in `do_accept`, of which `send` has taken `size` bytes of the greeting. -/
def accepted (size : Nat) : Session := ⟨[], [], [], [], welcome.take size⟩

def receive (s : Session) (bytes : List UInt8) (line : Line) : Except Fault Session :=
  readCb { s with input := s.input ++ bytes, received := s.received ++ bytes } line

def write (s : Session) (n : Nat) : Session :=
  { s with output := s.output.drop n, sent := s.sent ++ s.output.take n }

end Session

/-- What the event loop can run: `do_accept` with what `accept` and `send` return, `read_cb` after
bytes came in, with what is in its line before, libevent's own write, and `error_cb`. -/
inductive Occurrence where
  | accept (client : Option Nat) (size : Nat)
  | receive (client : Nat) (bytes : List UInt8) (line : Line)
  | write (client : Nat) (n : Nat)
  | error (client : Nat)

namespace Server

def start : Server := ⟨fun _ => none⟩

def setSession (srv : Server) (client : Nat) (s : Option Session) : Server :=
  ⟨Function.update srv.sessions client s⟩

def session (srv : Server) (client : Nat) : Except Stop Session :=
  match srv.sessions client with
  | some s => .ok s
  | none => .error .blocked

def doAccept (srv : Server) (client : Option Nat) (size : Nat) : Except Stop Server :=
  match client with
  | none => .error (.exit 1)
  | some client =>
    match srv.sessions client with
    | some _ => .error .blocked
    | none => .ok (srv.setSession client (some (.accepted size)))

def errorCb (srv : Server) (client : Nat) : Except Stop Server := do
  let _ ← srv.session client
  return srv.setSession client none

def step (srv : Server) : Occurrence → Except Stop Server
  | .accept client size => srv.doAccept client size
  | .receive client bytes line => do
    let s ← srv.session client
    let s ← (s.receive bytes line).mapError Stop.fault
    return srv.setSession client (some s)
  | .write client n => do
    let s ← srv.session client
    return srv.setSession client (some (s.write n))
  | .error client => srv.errorCb client

end Server

theorem evbufferSearch_isSome (buf what : List UInt8) :
    (evbufferSearch buf what).isSome ↔ what <:+: buf := by
  rw [evbufferSearch, List.findIdx?_isSome, List.any_eq_true, List.infix_iff_prefix_suffix]
  constructor
  · rintro ⟨tail, hmem, hp⟩
    exact ⟨tail, List.isPrefixOf_iff_prefix.1 hp, (List.mem_tails _ _).1 hmem⟩
  · rintro ⟨tail, hp, hs⟩
    exact ⟨tail, (List.mem_tails _ _).2 hs, List.isPrefixOf_iff_prefix.2 hp⟩

namespace Session

variable {s : Session} {b : Batcher UInt8}

/-- The connection as a batcher: what it holds, what it gave out, and what it was fed. -/
structure Echoes (s : Session) (b : Batcher UInt8) : Prop where
  held : s.buf = b.held
  given : ∃ size, s.sent ++ s.output = welcome.take size ++ b.out
  fed : ∃ fed, b.Fed (delimiter <:+: ·) fed ∧ s.received = fed ++ s.input

theorem delimiter_not_infix_nil : ¬delimiter <:+: [] := by
  rw [List.infix_nil]
  decide

theorem accepted_echoes (size : Nat) : (accepted size).Echoes .empty :=
  ⟨rfl, ⟨size, rfl⟩, ⟨[], Batcher.empty_fed delimiter_not_infix_nil, rfl⟩⟩

theorem add_full (h : delimiter <:+: s.buf ++ bytes) :
    s.add bytes = { s with output := s.output ++ (s.buf ++ bytes), buf := [] } := by
  obtain ⟨place, hplace⟩ := Option.isSome_iff_exists.1 ((evbufferSearch_isSome _ _).2 h)
  simp only [add, hplace]

theorem add_short (h : ¬delimiter <:+: s.buf ++ bytes) :
    s.add bytes = { s with buf := s.buf ++ bytes } := by
  have hnone : evbufferSearch (s.buf ++ bytes) delimiter = none := by
    rw [← Option.not_isSome_iff_eq_none, evbufferSearch_isSome]
    exact h
  simp only [add, hnone]

theorem add_held (h : s.buf = b.held) (bytes : List UInt8) :
    (s.add bytes).buf = (b.feed (delimiter <:+: ·) bytes).held := by
  rw [Batcher.feed, ← h]
  by_cases hin : delimiter <:+: s.buf ++ bytes
  · rw [add_full hin, if_pos hin]
  · rw [add_short hin, if_neg hin]

theorem add_given (h : s.buf = b.held) {before : List UInt8}
    (hgiven : s.sent ++ s.output = before ++ b.out) (bytes : List UInt8) :
    (s.add bytes).sent ++ (s.add bytes).output =
      before ++ (b.feed (delimiter <:+: ·) bytes).out := by
  rw [Batcher.feed, ← h]
  by_cases hin : delimiter <:+: s.buf ++ bytes
  · rw [add_full hin, if_pos hin, Batcher.out, List.flatten_append, List.flatten_singleton,
      ← Batcher.out, ← List.append_assoc, ← List.append_assoc before, ← hgiven]
  · rw [add_short hin, if_neg hin]
    exact hgiven

theorem turn_echoes (h : s.Echoes b) :
    (add { s with input := s.input.drop maxLine } (s.input.take maxLine)).Echoes
      (b.feed (delimiter <:+: ·) (s.input.take maxLine)) := by
  obtain ⟨hheld, ⟨size, hgiven⟩, fed, hfed, hreceived⟩ := h
  refine ⟨add_held (s := { s with input := s.input.drop maxLine }) hheld _,
    ⟨size, add_given (s := { s with input := s.input.drop maxLine }) hheld hgiven _⟩, ?_⟩
  refine ⟨fed ++ s.input.take maxLine, hfed.feed delimiter_not_infix_nil _, ?_⟩
  rw [add_received, add_input, List.append_assoc, List.take_append_drop]
  exact hreceived

theorem turn_full (h : s.input ≠ []) (line : Line) : ∃ line', s.turn line =
    .ok (true, add { s with input := s.input.drop maxLine } (s.input.take maxLine), line') := by
  have hlen : (s.input.take maxLine).length < maxLine + 1 :=
    Nat.lt_succ_of_le (List.length_take_le _ _)
  have hpos : (s.input.take maxLine).length > 0 := by
    have hne := List.length_pos_iff.2 h
    rw [List.length_take, maxLine]
    omega
  obtain ⟨line₁, line₂, h₁, h₂, hload, -⟩ := line.store_terminated hlen
  refine ⟨line₂, ?_⟩
  simp only [turn, read, h₁, Fault.inBounds, bind, Except.bind, pure, Except.pure, if_pos hpos, h₂,
    hload]

theorem turn_empty (h : s.input = []) (line : Line) : s.turn line = .ok (false, s, line) := by
  have hread : s.read line = .ok (0, s, line) := by
    have hsame : ({ s with input := [] } : Session) = s := by
      rw [← h]
    rw [read, h, List.take_nil, line.store_nil (Nat.zero_le _), List.drop_nil, hsame]
    rfl
  simp only [turn, hread, bind, Except.bind, gt_iff_lt, Nat.lt_irrefl, if_false]
  rfl

theorem readCb_next (h : s.turn line = .ok (true, s', line')) :
    s.readCb line = s'.readCb line' := by
  rw [readCb]
  split
  · next he =>
    cases h.symm.trans he
    rfl
  · next he => cases h.symm.trans he
  · next he => cases h.symm.trans he

theorem readCb_stop (h : s.turn line = .ok (false, s', line')) : s.readCb line = .ok s' := by
  rw [readCb]
  split
  · next he => cases h.symm.trans he
  · next he =>
    cases h.symm.trans he
    rfl
  · next he => cases h.symm.trans he

theorem readCb_echoes (h : s.Echoes b) (line : Line) :
    ∃ s' b', s.readCb line = .ok s' ∧ s'.Echoes b' ∧ s'.input = [] ∧
      s'.received = s.received ∧ s'.sent = s.sent := by
  induction hn : s.input.length using Nat.strong_induction_on generalizing s b line with
  | _ len ih =>
    subst hn
    by_cases hempty : s.input = []
    · exact ⟨s, b, readCb_stop (turn_empty hempty line), h, hempty, rfl, rfl⟩
    · obtain ⟨line', hturn⟩ := turn_full hempty line
      obtain ⟨s', b', hr, he, hinput, hreceived, hsent⟩ :=
        ih _ (turn_shorter hturn) (turn_echoes h) line' rfl
      refine ⟨s', b', (readCb_next hturn).trans hr, he, hinput, ?_, ?_⟩
      · rw [hreceived, add_received]
      · rw [hsent, add_sent]

theorem receive_echoes (h : s.Echoes b) (bytes : List UInt8) (line : Line) :
    ∃ s' b', s.receive bytes line = .ok s' ∧ s'.Echoes b' ∧ s'.input = [] ∧
      s'.received = s.received ++ bytes ∧ s'.sent = s.sent := by
  have hadd : Echoes { s with
      input := s.input ++ bytes, received := s.received ++ bytes } b := by
    obtain ⟨hheld, hgiven, fed, hfed, hreceived⟩ := h
    refine ⟨hheld, hgiven, fed, hfed, ?_⟩
    rw [hreceived, List.append_assoc]
  exact readCb_echoes hadd line

theorem write_echoes (h : s.Echoes b) (n : Nat) : (s.write n).Echoes b := by
  obtain ⟨hheld, ⟨size, hgiven⟩, hfed⟩ := h
  refine ⟨hheld, ⟨size, ?_⟩, hfed⟩
  rw [← hgiven, write, List.append_assoc, List.take_append_drop]

end Session

namespace Server

variable {srv srv' : Server} {o : Occurrence}

/-- Every connection echoes, and its callback has read all that came in. -/
def Echoing (srv : Server) : Prop :=
  ∀ client s, srv.sessions client = some s → s.input = [] ∧ ∃ b, s.Echoes b

@[simp] theorem setSession_self (srv : Server) (client : Nat) (t : Option Session) :
    (srv.setSession client t).sessions client = t := Function.update_self _ _ _

theorem setSession_of_ne (srv : Server) (t : Option Session) (h : c ≠ client) :
    (srv.setSession client t).sessions c = srv.sessions c := Function.update_of_ne h _ _

theorem Echoing.set (h : srv.Echoing) {t : Option Session}
    (ht : ∀ s, t = some s → s.input = [] ∧ ∃ b, s.Echoes b) :
    (srv.setSession client t).Echoing := by
  intro c s hs
  by_cases hc : c = client
  · rw [hc, setSession_self] at hs
    exact ht s hs
  · rw [setSession_of_ne srv t hc] at hs
    exact h c s hs

theorem session_cases {s : Session} (h : srv.session client = .ok s) :
    srv.sessions client = some s := by
  rw [session] at h
  split at h
  · next hs =>
    cases h
    exact hs
  · cases h

inductive Took (srv : Server) : Occurrence → Server → Prop where
  | accepted {client : Nat} {size : Nat} (hnew : srv.sessions client = none) :
      Took srv (.accept (some client) size) (srv.setSession client (some (.accepted size)))
  | received {client : Nat} {bytes : List UInt8} {line : Line} {s s' : Session}
      (hs : srv.sessions client = some s) (hr : s.receive bytes line = .ok s') :
      Took srv (.receive client bytes line) (srv.setSession client (some s'))
  | written {client : Nat} {n : Nat} {s : Session} (hs : srv.sessions client = some s) :
      Took srv (.write client n) (srv.setSession client (some (s.write n)))
  | freed {client : Nat} {s : Session} (hs : srv.sessions client = some s) :
      Took srv (.error client) (srv.setSession client none)

theorem took_of_step (h : srv.step o = .ok srv') : srv.Took o srv' := by
  cases o with
  | accept client size =>
    cases client with
    | none => cases h
    | some client =>
      simp only [step, doAccept] at h
      split at h
      · cases h
      · next hnew =>
        cases h
        exact .accepted hnew
  | receive client bytes line =>
    obtain ⟨s, hs, h⟩ := Routine.bind_ok_cases h
    obtain ⟨s', hr, h⟩ := Routine.bind_ok_cases h
    cases h
    exact .received (session_cases hs) (Routine.mapError_ok_cases hr)
  | write client n =>
    obtain ⟨s, hs, h⟩ := Routine.bind_ok_cases h
    cases h
    exact .written (session_cases hs)
  | error client =>
    obtain ⟨s, hs, h⟩ := Routine.bind_ok_cases h
    cases h
    exact .freed (session_cases hs)

theorem Echoing.step (h : srv.Echoing) (hstep : srv.step o = .ok srv') : srv'.Echoing := by
  cases took_of_step hstep with
  | accepted hnew =>
    apply h.set
    intro s hs
    cases hs
    exact ⟨rfl, .empty, Session.accepted_echoes _⟩
  | received hs hr =>
    apply h.set
    intro t ht
    cases ht
    obtain ⟨-, b, hb⟩ := h _ _ hs
    obtain ⟨s', b', hr', hb', hinput, -, -⟩ := Session.receive_echoes hb _ _
    rw [hr] at hr'
    cases hr'
    exact ⟨hinput, b', hb'⟩
  | written hs =>
    apply h.set
    intro t ht
    cases ht
    obtain ⟨hinput, b, hb⟩ := h _ _ hs
    exact ⟨hinput, b, Session.write_echoes hb _⟩
  | freed hs =>
    apply h.set
    intro t ht
    cases ht

theorem echoing_of_run (h : Machine.run step start is = .ok srv) : srv.Echoing := by
  apply Machine.run_invariant (fun _ _ _ hI hs => Echoing.step hI hs) _ h
  intro client s hs
  cases hs

theorem step_no_fault (h : srv.Echoing) (f : Fault) : srv.step o ≠ .error (.fault f) := by
  intro hf
  cases o with
  | accept client size =>
    cases client with
    | none => cases hf
    | some client =>
      simp only [step, doAccept] at hf
      split at hf
      · cases hf
      · cases hf
  | receive client bytes line =>
    cases hs : srv.sessions client with
    | none =>
      simp only [step, session, hs, bind, Except.bind] at hf
      cases hf
    | some s =>
      obtain ⟨-, b, hb⟩ := h client s hs
      obtain ⟨s', b', hr, -⟩ := Session.receive_echoes hb bytes line
      simp only [step, session, hs, hr, bind, Except.bind] at hf
      cases hf
  | write client n =>
    cases hs : srv.sessions client with
    | none =>
      simp only [step, session, hs, bind, Except.bind] at hf
      cases hf
    | some s =>
      simp only [step, session, hs, bind, Except.bind] at hf
      cases hf
  | error client =>
    cases hs : srv.sessions client with
    | none =>
      simp only [step, errorCb, session, hs, bind, Except.bind] at hf
      cases hf
    | some s =>
      simp only [step, errorCb, session, hs, bind, Except.bind] at hf
      cases hf

def arrive (client : Nat) (bytes : List UInt8) : Occurrence → List UInt8
  | .accept c _ => if c = some client then [] else bytes
  | .receive c new _ => if c = client then bytes ++ new else bytes
  | .write _ _ | .error _ => bytes

/-- What came from a client since it was accepted, told by the occurrences of a run. -/
def arrivals (client : Nat) (is : List Occurrence) : List UInt8 := is.foldl (arrive client) []

def Received (srv : Server) (came : Nat → List UInt8) : Prop :=
  ∀ client s, srv.sessions client = some s → s.received = came client

theorem Received.set {came came' : Nat → List UInt8} (h : srv.Received came)
    (hothers : ∀ c, c ≠ client → came' c = came c) {t : Option Session}
    (ht : ∀ s, t = some s → s.received = came' client) :
    (srv.setSession client t).Received came' := by
  intro c s hs
  by_cases hc : c = client
  · subst hc
    rw [setSession_self] at hs
    exact ht s hs
  · rw [setSession_of_ne srv t hc] at hs
    rw [hothers c hc]
    exact h c s hs

theorem Received.step {came : Nat → List UInt8} (h : srv.Received came) (hecho : srv.Echoing)
    (hstep : srv.step o = .ok srv') :
    srv'.Received fun client => arrive client (came client) o := by
  cases took_of_step hstep with
  | @accepted client size hnew =>
    apply h.set
    · intro c hc
      exact if_neg fun he => hc (Option.some.inj he).symm
    · intro s hs
      cases hs
      exact (if_pos rfl).symm
  | @received client bytes line t t' ht hr =>
    apply h.set
    · intro c hc
      exact if_neg (Ne.symm hc)
    · intro s hs
      cases hs
      obtain ⟨-, b, hb⟩ := hecho client t ht
      obtain ⟨t'', b', hr', -, -, hreceived, -⟩ := Session.receive_echoes hb bytes line
      cases hr.symm.trans hr'
      have hmore : arrive client (came client) (.receive client bytes line) =
          came client ++ bytes := if_pos rfl
      exact (hreceived.trans (congrArg (· ++ bytes) (h client t ht))).trans hmore.symm
  | @written client n t ht =>
    apply h.set
    · intro c hc
      rfl
    · intro s hs
      cases hs
      exact h client t ht
  | freed ht =>
    apply h.set
    · intro c hc
      rfl
    · intro s hs
      cases hs

theorem Received.run {came : Nat → List UInt8} (h : srv.Received came) (hecho : srv.Echoing)
    (hrun : Machine.run Server.step srv is = .ok srv') :
    srv'.Received fun client => is.foldl (arrive client) (came client) := by
  induction is generalizing srv came with
  | nil =>
    cases hrun
    exact h
  | cons i is ih =>
    obtain ⟨srv₁, hstep, hrest⟩ := Machine.run_cons_cases hrun
    exact ih (h.step hecho hstep) (hecho.step hstep) hrest

theorem received_of_run (h : Machine.run step start is = .ok srv)
    (hc : srv.sessions client = some s) : s.received = arrivals client is := by
  have hfresh : start.Received fun _ => [] := by
    intro c t ht
    cases ht
  have hecho : start.Echoing := by
    intro c t ht
    cases ht
  exact hfresh.run hecho h client s hc

/-- Whatever the clients do and in whatever order, what a connection was sent after the greeting is
what came from it, in batches that each have a delimiter, and what is held back has none. -/
theorem echoes (h : Machine.run step start is = .ok srv) (hc : srv.sessions client = some s) :
    ∃ (size : Nat) (batches : List (List UInt8)),
      s.sent ++ s.output = welcome.take size ++ batches.flatten ∧
      arrivals client is = batches.flatten ++ s.buf ∧ s.input = [] ∧
      (∀ batch ∈ batches, delimiter <:+: batch) ∧ ¬delimiter <:+: s.buf := by
  obtain ⟨hinput, b, hheld, ⟨size, hgiven⟩, fed, hfed, hreceived⟩ := echoing_of_run h client s hc
  refine ⟨size, b.batches, hgiven, ?_, hinput, hfed.full, ?_⟩
  · rw [← received_of_run h hc, hreceived, hinput, List.append_nil, hheld]
    exact hfed.all.symm
  · rw [hheld]
    exact hfed.partially

def onePiece (piece : List UInt8) : List Occurrence :=
  [.accept (some 0) 20, .receive 0 piece .zero]

theorem exists_run_piece (piece : List UInt8) : ∃ srv s,
    Machine.run step start (onePiece piece) = .ok srv ∧ srv.sessions 0 = some s := by
  obtain ⟨s, b, hr, -⟩ :=
    Session.receive_echoes (Session.accepted_echoes 20) piece .zero
  have haccept : step start (.accept (some 0) 20) =
      .ok (start.setSession 0 (some (.accepted 20))) := rfl
  have hreceive : step (start.setSession 0 (some (.accepted 20))) (.receive 0 piece .zero) =
      .ok ((start.setSession 0 (some (.accepted 20))).setSession 0 (some s)) := by
    simp only [step, session, setSession_self, bind, Except.bind, hr]
    rfl
  have hrun := Machine.run_cons_ok haccept [.receive 0 piece .zero]
  rw [Machine.run_cons_ok hreceive, Machine.run_nil] at hrun
  exact ⟨_, s, hrun, setSession_self _ _ _⟩

theorem echoes_piece : ∃ srv s,
    Machine.run step start (onePiece (delimiter ++ [10])) = .ok srv ∧
      srv.sessions 0 = some s ∧
      ∃ (size : Nat) (batches : List (List UInt8)),
        s.sent ++ s.output = welcome.take size ++ batches.flatten ∧
        arrivals 0 (onePiece (delimiter ++ [10])) = batches.flatten ++ s.buf ∧ s.input = [] ∧
        (∀ batch ∈ batches, delimiter <:+: batch) ∧ ¬delimiter <:+: s.buf := by
  obtain ⟨srv, s, hr, hs⟩ := exists_run_piece (delimiter ++ [10])
  exact ⟨srv, s, hr, hs, echoes hr hs⟩

/-- What a client sent before a delimiter has been echoed, with the delimiter's first byte: only
its second byte and what came since can be held back. -/
theorem holds_back (h : Machine.run step start is = .ok srv) (hc : srv.sessions client = some s)
    (hpost : delimiter ++ post <:+ arrivals client is) : s.buf <:+ delimiter.tail ++ post := by
  obtain ⟨hinput, b, hheld, -, fed, hfed, hreceived⟩ := echoing_of_run h client s hc
  rw [← received_of_run h hc, hreceived, hinput, List.append_nil] at hpost
  rw [hheld]
  exact hfed.held_suffix hpost

theorem holds_back_piece : ∃ srv s,
    Machine.run step start (onePiece (delimiter ++ [10])) = .ok srv ∧
      srv.sessions 0 = some s ∧ s.buf <:+ delimiter.tail ++ [10] := by
  obtain ⟨srv, s, hr, hs⟩ := exists_run_piece (delimiter ++ [10])
  have hpost : delimiter ++ [10] <:+ arrivals 0 (onePiece (delimiter ++ [10])) :=
    List.suffix_refl _
  exact ⟨srv, s, hr, hs, holds_back hr hs hpost⟩

end Server

end Gortsp.EventTest
