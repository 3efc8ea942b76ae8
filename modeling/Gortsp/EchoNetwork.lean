import Gortsp.EchoServer

namespace Gortsp.EventTest
set_option autoImplicit true

/-- What `send` is given: the terminator is counted as well. -/
def helloworld : List UInt8 := "Helloworld".toUTF8.data.toList ++ [0]

def bufSize : Nat := 1024

inductive Client where
  | connecting
  | receiving
  | sending
  | shutting
  | returned
  deriving DecidableEq

/-- The kernel completes a connection before the server accepts it. -/
inductive Stage where
  | none
  | queued
  | accepted
  deriving DecidableEq

/-- A client with its connection, which delivers in order and in pieces of any size: what `send`
took, the bytes under way, what `recv` returned, and what `puts` printed. -/
structure Link where
  client : Client
  stage : Stage
  sent : List UInt8
  toServer : List UInt8
  toClient : List UInt8
  arrived : List UInt8
  printed : List UInt8

structure Network where
  server : Server
  links : Nat → Link

/-- What one party does next, with what its call returns; `line` is what `read_cb` finds in its
buffer. -/
inductive Move where
  | connect (c : Nat) (ret : Int)
  | recv (c : Nat) (ret : Int)
  | send (c : Nat) (ret : Int)
  | shutdown (c : Nat)
  | accept (c : Option Nat) (size : Nat)
  | receive (c : Nat) (n : Nat) (line : Line)
  | write (c : Nat) (n : Nat)
  | error (c : Nat)

namespace Link

def start : Link := ⟨.connecting, .none, [], [], [], [], []⟩

def connect (l : Link) (ret : Int) : Except Stop Link :=
  if l.client = .connecting then
    if ret < 0 then .ok { l with client := .returned }
    else .ok { l with client := .receiving, stage := .queued }
  else .error .blocked

/-- `recv`, `buf[len] = '\0'` and `puts(buf)`. It returns nothing only at the end of the stream,
which is here when the server has closed its side. -/
def recv (l : Link) (closed : Bool) (ret : Int) : Except Stop Link :=
  if l.client = .receiving then
    if ret < 0 then .error (.fault .outOfBounds)
    else if ret > l.toClient.length ∨ ret > bufSize then .error .blocked
    else if ret = 0 ∧ (closed = false ∨ l.toClient ≠ []) then .error .blocked
    else if ret < bufSize then
      let bytes := l.toClient.take ret.toNat
      .ok { l with
        client := .sending
        toClient := l.toClient.drop ret.toNat
        arrived := l.arrived ++ bytes
        printed := l.printed ++ bytes.takeWhile (· ≠ 0) }
    else .error (.fault .outOfBounds)
  else .error .blocked

def send (l : Link) (ret : Int) : Except Stop Link :=
  if l.client = .sending ∧ ret ≤ helloworld.length then
    .ok { l with
      client := .shutting
      sent := l.sent ++ helloworld.take ret.toNat
      toServer := l.toServer ++ helloworld.take ret.toNat }
  else .error .blocked

def shutdown (l : Link) : Except Stop Link :=
  if l.client = .shutting then .ok { l with client := .returned } else .error .blocked

end Link

namespace Network

def start : Network := ⟨.start, fun _ => .start⟩

def setLink (net : Network) (c : Nat) (l : Link) : Network :=
  { net with links := Function.update net.links c l }

def closed (net : Network) (c : Nat) : Bool :=
  (net.links c).stage = .accepted && (net.server.sessions c).isNone

def step (net : Network) : Move → Except Stop Network
  | .connect c ret => do return net.setLink c (← (net.links c).connect ret)
  | .recv c ret => do return net.setLink c (← (net.links c).recv (net.closed c) ret)
  | .send c ret => do return net.setLink c (← (net.links c).send ret)
  | .shutdown c => do return net.setLink c (← (net.links c).shutdown)
  | .accept none size => do return { net with server := ← net.server.step (.accept none size) }
  | .accept (some c) size =>
    let l := net.links c
    if l.stage = .queued then do
      let server ← net.server.step (.accept (some c) size)
      return setLink { net with server } c
        { l with stage := .accepted, toClient := l.toClient ++ welcome.take size }
    else .error .blocked
  | .receive c n line => do
    let l := net.links c
    let server ← net.server.step (.receive c (l.toServer.take n) line)
    return setLink { net with server } c { l with toServer := l.toServer.drop n }
  | .write c n => do
    let l := net.links c
    let s ← net.server.session c
    let server ← net.server.step (.write c n)
    return setLink { net with server } c { l with toClient := l.toClient ++ s.output.take n }
  | .error c => do return { net with server := ← net.server.step (.error c) }

end Network

/-- What holds of a link and of the server's side of it. Until the client has sent something the
server has nothing to echo, and what the client sends has no delimiter. -/
structure Link.Greeted (l : Link) (session : Option Session) : Prop where
  fresh : l.client = .connecting → l.stage = .none
  queued : l.stage = .queued → l.client = .receiving
  unaccepted : l.stage ≠ .accepted → session = none ∧ l.arrived = [] ∧ l.toClient = []
  welcomed : l.arrived ++ l.toClient <+: welcome
  served : ∀ s, session = some s →
    s.sent = l.arrived ++ l.toClient ∧ s.received ++ l.toServer = l.sent
  told : l.sent <+: helloworld
  silent : l.client ≠ .shutting → l.client ≠ .returned → l.sent = [] ∧ l.toServer = []
  waiting : l.client = .connecting ∨ l.client = .receiving → l.arrived = [] ∧ l.printed = []
  printed : l.printed <+: l.arrived

theorem Link.start_greeted : Link.start.Greeted none := by
  refine ⟨fun _ => rfl, fun h => Stage.noConfusion h, fun _ => ⟨rfl, rfl, rfl⟩,
    List.nil_prefix, ?_, List.nil_prefix, fun _ _ => ⟨rfl, rfl⟩, fun _ => ⟨rfl, rfl⟩,
    List.prefix_refl _⟩
  intro s hs
  cases hs

theorem delimiter_not_infix_helloworld : ¬delimiter <:+: helloworld := by
  decide

theorem Session.Echoes.quiet {s : Session} {b : Batcher UInt8} (h : s.Echoes b)
    (hinput : s.input = []) (hreceived : s.received <+: helloworld) :
    s.buf = s.received ∧ s.sent ++ s.output <+: welcome := by
  obtain ⟨hheld, ⟨size, hgiven⟩, fed, hfed, hfeds⟩ := h
  rw [hinput, List.append_nil] at hfeds
  have hno : ¬delimiter <:+: fed := by
    intro hin
    rw [← hfeds] at hin
    exact delimiter_not_infix_helloworld (hin.trans hreceived.isInfix)
  obtain ⟨hnil, hall⟩ := hfed.held_all hno
  rw [Batcher.out, hnil, List.flatten_nil, List.append_nil] at hgiven
  refine ⟨?_, ?_⟩
  · rw [hheld, hall, hfeds]
  · rw [hgiven]
    exact List.take_prefix size welcome

namespace Link

variable {l l' : Link} {session : Option Session}

theorem connect_greeted (h : l.Greeted session) (hl : l.connect ret = .ok l') :
    l'.Greeted session := by
  rw [connect] at hl
  split at hl
  · next hc =>
    have hnone := h.fresh hc
    have hne : l.stage ≠ .accepted := by
      rw [hnone]
      decide
    have hsilent := h.silent (by rw [hc]; decide) (by rw [hc]; decide)
    split at hl
    · cases hl
      refine ⟨fun hno => Client.noConfusion hno, ?_, h.unaccepted, h.welcomed, h.served, h.told,
        fun _ _ => hsilent, fun _ => h.waiting (.inl hc), h.printed⟩
      intro hq
      rw [hnone] at hq
      cases hq
    · cases hl
      exact ⟨fun hno => Client.noConfusion hno, fun _ => rfl, fun _ => h.unaccepted hne,
        h.welcomed, h.served, h.told, fun _ _ => hsilent, fun _ => h.waiting (.inl hc),
        h.printed⟩
  · cases hl

theorem recv_cases (hl : l.recv closed ret = .ok l') :
    l.client = .receiving ∧ (closed = true ∨ l.toClient ≠ []) ∧ ∃ n, l' = { l with
      client := .sending
      toClient := l.toClient.drop n
      arrived := l.arrived ++ l.toClient.take n
      printed := l.printed ++ (l.toClient.take n).takeWhile (· ≠ 0) } := by
  by_cases hc : l.client = .receiving
  · rw [recv, if_pos hc] at hl
    split at hl
    · cases hl
    · next hneg =>
      split at hl
      · cases hl
      · next hle =>
        split at hl
        · cases hl
        · next hend =>
          split at hl
          · cases hl
            refine ⟨hc, ?_, ret.toNat, rfl⟩
            by_cases hnil : l.toClient = []
            · rw [hnil, List.length_nil] at hle
              have hzero : ret = 0 := by omega
              left
              by_contra hopen
              exact hend ⟨hzero, .inl (Bool.eq_false_iff.2 hopen)⟩
            · exact .inr hnil
          · cases hl
  · rw [recv, if_neg hc] at hl
    cases hl

theorem recv_greeted (h : l.Greeted session) (hclosed : closed = true → l.stage = .accepted)
    (hl : l.recv closed ret = .ok l') : l'.Greeted session := by
  obtain ⟨hc, hdata, n, rfl⟩ := recv_cases hl
  have haccepted : l.stage = .accepted := by
    by_contra hne
    rcases hdata with he | hdata
    · exact hne (hclosed he)
    · exact hdata (h.unaccepted hne).2.2
  obtain ⟨harrived, hprinted⟩ := h.waiting (.inr hc)
  have hsilent := h.silent (by rw [hc]; decide) (by rw [hc]; decide)
  have hall : l.arrived ++ l.toClient.take n ++ l.toClient.drop n = l.arrived ++ l.toClient := by
    rw [List.append_assoc, List.take_append_drop]
  refine ⟨fun hno => Client.noConfusion hno, ?_, ?_, ?_, ?_, h.told, fun _ _ => hsilent, ?_, ?_⟩
  · intro hq
    rw [haccepted] at hq
    cases hq
  · intro hne
    exact absurd haccepted hne
  · rw [hall]
    exact h.welcomed
  · intro s hs
    rw [hall]
    exact h.served s hs
  · rintro (hno | hno)
    · cases hno
    · cases hno
  · rw [harrived, hprinted]
    exact List.takeWhile_prefix _

theorem Greeted.not_queued (h : l.Greeted session) (hc : l.client ≠ .receiving) :
    l.stage ≠ .queued := by
  intro hq
  exact hc (h.queued hq)

theorem send_greeted (h : l.Greeted session) (hl : l.send ret = .ok l') :
    l'.Greeted session := by
  rw [send] at hl
  split at hl
  · next hc =>
    cases hl
    obtain ⟨hsent, -⟩ := h.silent (by rw [hc.1]; decide) (by rw [hc.1]; decide)
    refine ⟨fun hno => Client.noConfusion hno, ?_, h.unaccepted, h.welcomed, ?_, ?_, ?_, ?_,
      h.printed⟩
    · intro hq
      exact absurd hq (h.not_queued (by rw [hc.1]; decide))
    · intro s hs
      obtain ⟨hs, hall⟩ := h.served s hs
      refine ⟨hs, ?_⟩
      rw [← hall, List.append_assoc]
    · rw [hsent]
      exact List.take_prefix _ _
    · intro hno
      exact absurd rfl hno
    · rintro (hno | hno)
      · cases hno
      · cases hno
  · cases hl

theorem shutdown_greeted (h : l.Greeted session) (hl : l.shutdown = .ok l') :
    l'.Greeted session := by
  rw [shutdown] at hl
  split at hl
  · next hc =>
    cases hl
    refine ⟨fun hno => Client.noConfusion hno, ?_, h.unaccepted, h.welcomed, h.served, h.told, ?_,
      ?_, h.printed⟩
    · intro hq
      exact absurd hq (h.not_queued (by rw [hc]; decide))
    · intro _ hno
      exact absurd rfl hno
    · rintro (hno | hno)
      · cases hno
      · cases hno
  · cases hl

theorem accept_greeted (h : l.Greeted none) (hq : l.stage = .queued) (size : Nat) :
    Greeted { l with stage := .accepted, toClient := l.toClient ++ welcome.take size }
      (some (.accepted size)) := by
  obtain ⟨-, harrived, hnil⟩ := h.unaccepted (by rw [hq]; decide)
  have hc := h.queued hq
  have hsilent := h.silent (by rw [hc]; decide) (by rw [hc]; decide)
  refine ⟨?_, fun hno => Stage.noConfusion hno, fun hno => absurd rfl hno, ?_, ?_, h.told,
    fun _ _ => hsilent, h.waiting, h.printed⟩
  · intro hno
    rw [hc] at hno
    cases hno
  · rw [harrived, hnil]
    exact List.take_prefix _ _
  · intro s hs
    cases hs
    refine ⟨?_, ?_⟩
    · rw [harrived, hnil]
      rfl
    · rw [hsilent.1, hsilent.2]
      rfl

theorem receive_greeted {s s' : Session} {n : Nat} (h : l.Greeted (some s))
    (hreceived : s'.received = s.received ++ l.toServer.take n) (hsent : s'.sent = s.sent) :
    Greeted { l with toServer := l.toServer.drop n } (some s') := by
  obtain ⟨hs, hr⟩ := h.served s rfl
  refine ⟨h.fresh, h.queued, ?_, h.welcomed, ?_, h.told, ?_, h.waiting, h.printed⟩
  · intro hne
    obtain ⟨hno, -, -⟩ := h.unaccepted hne
    cases hno
  · intro t ht
    cases ht
    refine ⟨hsent.trans hs, ?_⟩
    rw [hreceived, List.append_assoc, List.take_append_drop]
    exact hr
  · intro h₁ h₂
    obtain ⟨hsilent, hnil⟩ := h.silent h₁ h₂
    refine ⟨hsilent, ?_⟩
    rw [hnil, List.drop_nil]

theorem write_greeted {s : Session} {n : Nat} (h : l.Greeted (some s))
    (hsent : (s.write n).sent <+: welcome) :
    Greeted { l with toClient := l.toClient ++ s.output.take n } (some (s.write n)) := by
  obtain ⟨hs, hr⟩ := h.served s rfl
  have hall : (s.write n).sent = l.arrived ++ (l.toClient ++ s.output.take n) := by
    rw [← List.append_assoc, ← hs]
    rfl
  refine ⟨h.fresh, h.queued, ?_, ?_, ?_, h.told, h.silent, h.waiting, h.printed⟩
  · intro hne
    obtain ⟨hno, -, -⟩ := h.unaccepted hne
    cases hno
  · rw [← hall]
    exact hsent
  · intro t ht
    cases ht
    exact ⟨hall, hr⟩

theorem Greeted.received_prefix {s : Session} (h : l.Greeted session) (hs : session = some s) :
    s.received <+: helloworld := by
  have hall := (h.served s hs).2
  apply (List.prefix_append s.received l.toServer).trans
  rw [hall]
  exact h.told

theorem Greeted.error_greeted (h : l.Greeted session) : l.Greeted none := by
  refine ⟨h.fresh, h.queued, ?_, h.welcomed, ?_, h.told, h.silent, h.waiting, h.printed⟩
  · intro hne
    exact ⟨rfl, (h.unaccepted hne).2⟩
  · intro s hs
    cases hs

end Link

namespace Network

variable {net net' : Network} {i : Move}

structure Greeting (net : Network) : Prop where
  server : net.server.Echoing
  links : ∀ c, (net.links c).Greeted (net.server.sessions c)

@[simp] theorem setLink_self (net : Network) (c : Nat) (l : Link) :
    (net.setLink c l).links c = l := Function.update_self _ _ _

theorem setLink_of_ne (net : Network) (l : Link) (h : d ≠ c) :
    (net.setLink c l).links d = net.links d := Function.update_of_ne h _ _

theorem Greeting.setLink {srv : Server} (h : net.Greeting) (hsrv : srv.Echoing)
    (hsame : ∀ d, d ≠ c → srv.sessions d = net.server.sessions d)
    (hl : l.Greeted (srv.sessions c)) : (setLink { net with server := srv } c l).Greeting := by
  refine ⟨hsrv, fun d => ?_⟩
  by_cases hd : d = c
  · rw [hd, setLink_self]
    exact hl
  · rw [setLink_of_ne _ _ hd]
    have hold := h.links d
    rw [← hsame d hd] at hold
    exact hold

theorem Greeting.client (h : net.Greeting) {x : Except Stop Link}
    (hs : (do return net.setLink c (← x)) = .ok net')
    (hx : ∀ l, x = .ok l → l.Greeted (net.server.sessions c)) : net'.Greeting := by
  obtain ⟨l, hl, hs⟩ := Routine.bind_ok_cases hs
  cases hs
  exact h.setLink h.server (fun _ _ => rfl) (hx l hl)

theorem closed_accepted (h : net.closed c = true) : (net.links c).stage = .accepted := by
  rw [closed, Bool.and_eq_true, decide_eq_true_eq] at h
  exact h.1

theorem Greeting.accept (h : net.Greeting) (hs : net.step (.accept (some c) size) = .ok net') :
    net'.Greeting := by
  simp only [step] at hs
  split at hs
  · next hq =>
    obtain ⟨srv, hsrv, hs⟩ := Routine.bind_ok_cases hs
    cases hs
    have hecho := h.server.step hsrv
    have hl := h.links c
    cases Server.took_of_step hsrv with
    | accepted hnew =>
      rw [hnew] at hl
      apply h.setLink hecho
      · intro d hd
        exact Server.setSession_of_ne _ _ hd
      · rw [Server.setSession_self]
        exact Link.accept_greeted hl hq size
  · cases hs

theorem Greeting.receive (h : net.Greeting) (hs : net.step (.receive c n line) = .ok net') :
    net'.Greeting := by
  simp only [step] at hs
  obtain ⟨srv, hsrv, hs⟩ := Routine.bind_ok_cases hs
  cases hs
  have hecho := h.server.step hsrv
  have hl := h.links c
  cases Server.took_of_step hsrv with
  | received hsession hr =>
    rw [hsession] at hl
    obtain ⟨-, b, hb⟩ := h.server c _ hsession
    obtain ⟨s', b', hr', -, -, hreceived, hsent⟩ :=
      Session.receive_echoes hb ((net.links c).toServer.take n) line
    rw [hr] at hr'
    cases hr'
    apply h.setLink hecho
    · intro d hd
      exact Server.setSession_of_ne _ _ hd
    · rw [Server.setSession_self]
      exact Link.receive_greeted hl hreceived hsent

theorem Greeting.write (h : net.Greeting) (hs : net.step (.write c n) = .ok net') :
    net'.Greeting := by
  cases hsession : net.server.sessions c with
  | none =>
    simp only [step, Server.session, hsession, bind, Except.bind] at hs
    cases hs
  | some s =>
    have hwrite : net.server.step (.write c n) =
        .ok (net.server.setSession c (some (s.write n))) := by
      simp only [Server.step, Server.session, hsession]
      rfl
    simp only [step, Server.session, hsession, hwrite] at hs
    cases hs
    have hl := h.links c
    rw [hsession] at hl
    have hecho := h.server.step hwrite
    have hself := Server.setSession_self net.server c (some (s.write n))
    obtain ⟨hinput, b, hb⟩ := hecho c _ hself
    have hreceived : (s.write n).received <+: helloworld := hl.received_prefix (s := s) rfl
    apply h.setLink hecho
    · intro d hd
      exact Server.setSession_of_ne _ _ hd
    · rw [hself]
      have hall := (hb.quiet hinput hreceived).2
      exact Link.write_greeted hl ((List.prefix_append _ _).trans hall)

theorem Greeting.error (h : net.Greeting) (hs : net.step (.error c) = .ok net') :
    net'.Greeting := by
  simp only [step] at hs
  obtain ⟨srv, hsrv, hs⟩ := Routine.bind_ok_cases hs
  cases hs
  have hecho := h.server.step hsrv
  cases Server.took_of_step hsrv with
  | freed hsession =>
    refine ⟨hecho, fun d => ?_⟩
    have hold := h.links d
    by_cases hd : d = c
    · rw [hd, Server.setSession_self]
      rw [hd] at hold
      exact hold.error_greeted
    · rw [Server.setSession_of_ne _ _ hd]
      exact hold

theorem Greeting.step (h : net.Greeting) (hs : net.step i = .ok net') : net'.Greeting := by
  cases i with
  | connect c ret => exact h.client hs fun l hl => Link.connect_greeted (h.links c) hl
  | recv c ret =>
    exact h.client hs fun l hl => Link.recv_greeted (h.links c) (closed_accepted ·) hl
  | send c ret => exact h.client hs fun l hl => Link.send_greeted (h.links c) hl
  | shutdown c => exact h.client hs fun l hl => Link.shutdown_greeted (h.links c) hl
  | accept c size =>
    cases c with
    | none => cases hs
    | some c => exact h.accept hs
  | receive c n line => exact h.receive hs
  | write c n => exact h.write hs
  | error c => exact h.error hs

theorem greeting_of_run (h : Machine.run step start is = .ok net) : net.Greeting := by
  apply Machine.run_invariant (fun _ _ _ hI hs => Greeting.step hI hs) _ h
  refine ⟨?_, fun c => Link.start_greeted⟩
  intro c s hs
  cases hs

def sends (c : Nat) : Move → List UInt8
  | .send d ret => if d = c then helloworld.take ret.toNat else []
  | _ => []

theorem setLink_sent (net : Network) (hl : l.sent = (net.links c).sent) (hi : sends d i = []) :
    ((net.setLink c l).links d).sent = (net.links d).sent ++ sends d i := by
  rw [hi, List.append_nil]
  by_cases hd : d = c
  · rw [hd, setLink_self, hl]
  · rw [setLink_of_ne _ _ hd]

theorem connect_sent {l l' : Link} (h : l.connect ret = .ok l') : l'.sent = l.sent := by
  rw [Link.connect] at h
  split at h
  · split at h
    · cases h
      rfl
    · cases h
      rfl
  · cases h

theorem shutdown_sent {l l' : Link} (h : l.shutdown = .ok l') : l'.sent = l.sent := by
  rw [Link.shutdown] at h
  split at h
  · cases h
    rfl
  · cases h

theorem send_sent {l l' : Link} (h : l.send ret = .ok l') :
    l'.sent = l.sent ++ helloworld.take ret.toNat := by
  rw [Link.send] at h
  split at h
  · cases h
    rfl
  · cases h

theorem step_sent (hs : net.step i = .ok net') (d : Nat) :
    (net'.links d).sent = (net.links d).sent ++ sends d i := by
  cases i with
  | connect c ret =>
    obtain ⟨l, hl, hs⟩ := Routine.bind_ok_cases hs
    cases hs
    exact setLink_sent net (connect_sent hl) rfl
  | recv c ret =>
    obtain ⟨l, hl, hs⟩ := Routine.bind_ok_cases hs
    cases hs
    obtain ⟨-, -, n, rfl⟩ := Link.recv_cases hl
    exact setLink_sent net rfl rfl
  | send c ret =>
    obtain ⟨l, hl, hs⟩ := Routine.bind_ok_cases hs
    cases hs
    by_cases hd : d = c
    · rw [hd, setLink_self, send_sent hl, sends, if_pos rfl]
    · rw [setLink_of_ne _ _ hd, sends, if_neg (Ne.symm hd), List.append_nil]
  | shutdown c =>
    obtain ⟨l, hl, hs⟩ := Routine.bind_ok_cases hs
    cases hs
    exact setLink_sent net (shutdown_sent hl) rfl
  | accept c size =>
    cases c with
    | none => cases hs
    | some c =>
      simp only [step] at hs
      split at hs
      · obtain ⟨srv, -, hs⟩ := Routine.bind_ok_cases hs
        cases hs
        exact setLink_sent { net with server := srv } rfl rfl
      · cases hs
  | receive c n line =>
    obtain ⟨srv, -, hs⟩ := Routine.bind_ok_cases hs
    cases hs
    exact setLink_sent { net with server := srv } rfl rfl
  | write c n =>
    obtain ⟨s, -, hs⟩ := Routine.bind_ok_cases hs
    obtain ⟨srv, -, hs⟩ := Routine.bind_ok_cases hs
    cases hs
    exact setLink_sent { net with server := srv } rfl rfl
  | error c =>
    obtain ⟨srv, -, hs⟩ := Routine.bind_ok_cases hs
    cases hs
    exact (List.append_nil _).symm

theorem run_sent (h : Machine.run step net is = .ok net') (c : Nat) :
    (net'.links c).sent = (net.links c).sent ++ is.flatMap (sends c) := by
  induction is generalizing net with
  | nil =>
    cases h
    exact (List.append_nil _).symm
  | cons i is ih =>
    obtain ⟨net₁, hstep, hrest⟩ := Machine.run_cons_cases h
    rw [ih hrest, step_sent hstep, List.append_assoc, List.flatMap_cons]

/-- In every order of steps of the clients and the server, a client gets no more than the greeting
and prints a beginning of it, and all that the client sent is held back by the server or is still
under way. -/
theorem greets (h : Machine.run step start is = .ok net) (c : Nat) :
    (net.links c).printed <+: welcome ∧
      (net.links c).arrived ++ (net.links c).toClient <+: welcome ∧
      is.flatMap (sends c) <+: helloworld ∧
      ∀ s, net.server.sessions c = some s →
        s.buf ++ (net.links c).toServer = is.flatMap (sends c) ∧
          s.sent ++ s.output <+: welcome := by
  have hnet := greeting_of_run h
  have hl := hnet.links c
  have hsent := run_sent h c
  rw [show (start.links c).sent = [] from rfl, List.nil_append] at hsent
  rw [← hsent]
  refine ⟨hl.printed.trans ((List.prefix_append _ _).trans hl.welcomed), hl.welcomed, hl.told, ?_⟩
  intro s hs
  obtain ⟨hinput, b, hb⟩ := hnet.server c s hs
  obtain ⟨hbuf, hgiven⟩ := hb.quiet hinput (hl.received_prefix hs)
  refine ⟨?_, hgiven⟩
  rw [hbuf]
  exact (hl.served s hs).2

theorem greets_one : ∃ net, Machine.run step start
      [.connect 0 0, .accept (some 0) 20, .recv 0 7, .send 0 11, .write 0 0] = .ok net ∧
    (net.links 0).printed <+: welcome ∧
      (net.links 0).arrived ++ (net.links 0).toClient <+: welcome ∧
      helloworld <+: helloworld ∧
      ∀ s, net.server.sessions 0 = some s →
        s.buf ++ (net.links 0).toServer = helloworld ∧ s.sent ++ s.output <+: welcome := by
  obtain ⟨net, hr⟩ : ∃ net, Machine.run step start
      [.connect 0 0, .accept (some 0) 20, .recv 0 7, .send 0 11, .write 0 0] = .ok net :=
    ⟨_, rfl⟩
  exact ⟨net, hr, greets hr 0⟩

theorem recv_fault {l : Link} (hl : l.toClient.length < bufSize)
    (hf : l.recv ended ret = .error (.fault f)) : ret < 0 := by
  by_contra hneg
  by_cases hc : l.client = .receiving
  · rw [Link.recv, if_pos hc, if_neg hneg] at hf
    by_cases hle : ret > l.toClient.length ∨ ret > bufSize
    · rw [if_pos hle] at hf
      cases hf
    · rw [if_neg hle, if_pos (show ret < bufSize by omega)] at hf
      split at hf
      · cases hf
      · cases hf
  · rw [Link.recv, if_neg hc] at hf
    cases hf

theorem map_error {x : Except ε α} {g : α → β} {e : ε} (h : (do return g (← x)) = .error e) :
    x = .error e := by
  cases x with
  | error d =>
    cases h
    rfl
  | ok v => cases h

/-- The one thing that makes a client write outside of its buffer is a `recv` that fails; the
server never does. -/
theorem faults_in_recv (h : Machine.run step start is = .ok net)
    (hf : net.step i = .error (.fault f)) : ∃ c ret, i = .recv c ret ∧ ret < 0 := by
  have hnet := greeting_of_run h
  cases i with
  | connect c ret =>
    have hl := map_error hf
    rw [Link.connect] at hl
    split at hl
    · split at hl
      · cases hl
      · cases hl
    · cases hl
  | recv c ret =>
    have hwelcomed := (hnet.links c).welcomed.length_le
    have hlen : welcome.length < bufSize := by decide
    rw [List.length_append] at hwelcomed
    exact ⟨c, ret, rfl, recv_fault (by omega) (map_error hf)⟩
  | send c ret =>
    have hl := map_error hf
    rw [Link.send] at hl
    split at hl
    · cases hl
    · cases hl
  | shutdown c =>
    have hl := map_error hf
    rw [Link.shutdown] at hl
    split at hl
    · cases hl
    · cases hl
  | accept c size =>
    cases c with
    | none => exact absurd (map_error hf) (Server.step_no_fault hnet.server f)
    | some c =>
      simp only [step] at hf
      split at hf
      · exact absurd (map_error hf) (Server.step_no_fault hnet.server f)
      · cases hf
  | receive c n line => exact absurd (map_error hf) (Server.step_no_fault hnet.server f)
  | write c n =>
    cases hs : net.server.sessions c with
    | none =>
      simp only [step, Server.session, hs, bind, Except.bind] at hf
      cases hf
    | some s =>
      simp only [step, Server.session, hs] at hf
      exact absurd (map_error hf) (Server.step_no_fault hnet.server f)
  | error c => exact absurd (map_error hf) (Server.step_no_fault hnet.server f)

theorem faults_in_recv_one : ∃ net,
    Machine.run step start [.connect 0 0, .accept (some 0) 20] = .ok net ∧
      net.step (.recv 0 (-1)) = .error (.fault .outOfBounds) ∧
      ∃ c ret, Move.recv 0 (-1) = .recv c ret ∧ ret < 0 := by
  obtain ⟨net, hr, hf⟩ : ∃ net,
      Machine.run step start [.connect 0 0, .accept (some 0) 20] = .ok net ∧
        net.step (.recv 0 (-1)) = .error (.fault .outOfBounds) := ⟨_, rfl, rfl⟩
  exact ⟨net, hr, hf, faults_in_recv hr hf⟩

end Network

end Gortsp.EventTest
