import Gortsp.SocketSimulation

namespace Gortsp
set_option autoImplicit true

def Call.target : Call → Option Int
  | .socket _ _ _ => none
  | .fcntlGetfl fd _ => some fd
  | .fcntlSetfl fd _ _ => some fd
  | .bind fd _ _ => some fd
  | .listen fd _ _ => some fd
  | .accept fd _ => some fd
  | .send fd _ _ => some fd
  | .close fd => some fd

/-- The calls of one operation that the object makes itself. A descriptor that `::accept`
returned is closed by the `Socket` made for it. -/
def madeBy (calls : List Call) : List Call :=
  calls.filter fun
    | .close n => n ∉ calls.filterMap Call.accepted
    | _ => true

inductive SocketOrigin where
  | create
  | createWith (type : SocketType)
  | createFromAccept (fd : Nat)

def SocketOrigin.connected : SocketOrigin → Bool
  | .create | .createWith _ => false
  | .createFromAccept _ => true

inductive Socket.Follows (k : Kernel) : Socket → Finset Int → Prop where
  | tracks {s : Socket} {held : Finset Int} (h : s.Tracks k held) : Follows k s held
  | accepted {n : Int} (hn : 0 ≤ n) : Follows k (createFromAccept n) {n}

theorem Socket.Follows.owns (h : Socket.Follows k s held) (hfd : 0 ≤ s.fd) : s.fd ∈ held := by
  cases h with
  | accepted hn => exact Finset.mem_singleton_self _
  | tracks h =>
    cases h with
    | closed t => exact absurd hfd (by decide : ¬(0 : Int) ≤ -1)
    | opened hf hd => exact Finset.mem_singleton_self _

theorem Socket.Follows.nonneg (h : Socket.Follows k s held) (hs : s.stat ≠ .uninitialized) :
    0 ≤ s.fd := by
  cases h with
  | accepted hn => exact hn
  | tracks h =>
    cases h with
    | closed t => exact absurd rfl hs
    | opened hf hd => exact k.nonneg_of_table hf

theorem Socket.Follows.uninitialized (h : Socket.Follows k s ∅) : s.stat = .uninitialized := by
  by_contra hs
  exact Finset.notMem_empty _ (h.owns (h.nonneg hs))

theorem Socket.Follows.connected (h : Socket.Follows k s held) (hc : s.connected = true) :
    0 ≤ s.fd := by
  apply h.nonneg
  cases h with
  | accepted hn => exact fun he => by cases he
  | tracks h =>
    cases h with
    | closed t => cases hc
    | opened hf hd => cases hc

namespace SocketRun

def begin (origin : SocketOrigin) (k : Kernel) : SocketRun :=
  match origin with
  | .create => start none k
  | .createWith type => start (some type) k
  | .createFromAccept fd => ⟨Socket.createFromAccept fd, k, [.acquire fd]⟩

def Holds (r : SocketRun) (held : Finset Int) : Prop :=
  Ledger.settle ∅ r.ledger = some held ∧ r.socket.Follows r.kernel held

theorem begin_holds (origin : SocketOrigin) (k : Kernel) :
    ∃ held, (begin origin k).Holds held := by
  cases origin with
  | create => exact ⟨∅, rfl, .tracks (.closed .udpSocket)⟩
  | createWith type => exact ⟨∅, rfl, .tracks (.closed type)⟩
  | createFromAccept fd => exact ⟨{(fd : Int)}, rfl, .accepted (Int.natCast_nonneg fd)⟩

theorem call_accepted {n : Int} (hn : 0 ≤ n) (op : SocketOp) (a : Answers) (k : Kernel) :
    ∃ s' k' calls held, ((Socket.createFromAccept n).perform op).run a k = .ok (s', k') ∧
      k'.log = k.log ++ calls ∧ Ledger.settle {n} (ownEntries calls) = some held ∧
      s'.Follows k' held := by
  obtain ⟨r, k', calls, hr, hlog, hout⟩ := (Socket.createFromAccept n).operate_ends op a k
  refine ⟨r.socket, k', calls, ?_⟩
  have hrun := Socket.perform_of_operate hr
  cases hout with
  | refused h => exact ⟨{n}, hrun, hlog, rfl, .accepted hn⟩
  | retyped hs hfd => cases hs
  | noSocket hs hfd hg => cases hs
  | opened hs hfd hg hn' => cases hs
  | bindFailed hs hb => cases hs
  | bound hs hb => cases hs
  | listenFailed ht hs hl => cases hs
  | listens ht hs hl => cases hs
  | taken ht hs hc hr' => cases hs
  | dropped ht hs hc hr' hd => cases hs
  | compiledOut => exact ⟨{n}, hrun, hlog, rfl, .accepted hn⟩
  | sent hr' hk => exact ⟨{n}, hrun, hlog, rfl, .accepted hn⟩
  | flagged hs hst hk hcalls hne =>
    refine ⟨{n}, hrun, hlog, ?_, .accepted hn⟩
    rw [ownEntries_fcntl hcalls]
    rfl
  | closed hop hfd => exact absurd hn (Int.not_le.2 hfd)
  | released hop hfd =>
    have hentries : ownEntries [Call.close n] = [.release n] := by
      simp [ownEntries, Call.entry, Call.accepted]
    refine ⟨∅, hrun, hlog, ?_, .tracks (.closed .tcpSocket)⟩
    have hmem : n ∈ ({n} : Finset Int) := Finset.mem_singleton_self n
    change Ledger.settle {n} (ownEntries [Call.close n]) = some ∅
    rw [hentries, Ledger.settle, if_pos hmem, Finset.erase_singleton]
    rfl

theorem step_holds {r r' : SocketRun} (h : r.Holds held) (hstep : r.step i = .ok r') :
    ∃ held', r'.Holds held' := by
  obtain ⟨socket, kernel, ledger⟩ := r
  obtain ⟨hs, hf⟩ := h
  cases hf with
  | tracks ht =>
    obtain ⟨r'', hstep', held', hs', ht'⟩ := SocketRun.step_tracks _ i ⟨held, hs, ht⟩
    cases hstep.symm.trans hstep'
    exact ⟨held', hs', .tracks ht'⟩
  | @accepted n hn =>
    cases i with
    | call op a =>
      obtain ⟨s', k', calls, held', hr, hlog, hset, hf'⟩ := call_accepted hn op a kernel
      have hrun : step ⟨Socket.createFromAccept n, kernel, ledger⟩ (.call op a) =
          .ok ⟨s', k', extend ⟨Socket.createFromAccept n, kernel, ledger⟩ k'⟩ := by
        rw [step, hr]
        rfl
      cases hstep.symm.trans hrun
      exact ⟨held', extend_settles hs hlog hset, hf'⟩
    | elsewhere fd f =>
      simp only [step] at hstep
      split at hstep
      · cases hstep
        exact ⟨{n}, hs, .accepted hn⟩
      · cases hstep
        exact ⟨{n}, hs, .accepted hn⟩

end SocketRun

def SocketOp.NeedsDescriptor : SocketOp → Prop
  | .bind _ _ | .listen _ | .accept _ | .send _ | .setNonBlock | .setBlock _ => True
  | .setType _ | .init | .connect _ _ _ | .close | .disconnect => False

theorem SocketOp.Closes.not_needsDescriptor {op : SocketOp} (h : op.Closes) :
    ¬op.NeedsDescriptor := by
  cases op with
  | close => exact id
  | disconnect => exact id
  | _ => exact h.elim

section Outcomes

variable {s : Socket} {a : Answers} {k k' : Kernel} {op : SocketOp} {res : Socket.Result}
  {calls : List Call}

theorem Socket.refusal_ne_success (h : s.refusal op = some st) : st ≠ .success := by
  intro he
  subst he
  cases op with
  | connect ip port timeout => cases h
  | send data => cases h
  | close => cases h
  | disconnect => cases h
  | setBlock timeout => cases h
  | _ =>
    simp only [refusal] at h
    split at h
    · cases h
    · cases h

theorem mem_of_madeBy (h : c ∈ madeBy calls) : c ∈ calls := (List.mem_filter.1 h).1

theorem Socket.Outcome.target (h : s.Outcome a k op res k' calls) (hc : c ∈ madeBy calls)
    (hn : c.target = some n) : n = s.fd := by
  have hmem := mem_of_madeBy hc
  cases h with
  | refused h => cases hmem
  | retyped hs hfd => cases hmem
  | compiledOut => cases hmem
  | closed hop hfd => cases hmem
  | noSocket hs hfd hg =>
    cases List.mem_singleton.1 hmem
    cases hn
  | opened hs hfd hg hn' =>
    cases List.mem_singleton.1 hmem
    cases hn
  | @dropped conn m _ _ ht hs hc' hr hd =>
    rcases List.mem_cons.1 hmem with rfl | hdrop
    · exact (Option.some.inj hn).symm
    · rw [droppedCalls] at hdrop
      split at hdrop
      · cases List.mem_singleton.1 hdrop
        simp [madeBy, Call.accepted] at hc
      · cases hdrop
  | flagged hs hst hk hcalls hne =>
    rcases hcalls c hmem with ⟨ret, rfl⟩ | ⟨arg, ret, rfl⟩
    · exact (Option.some.inj hn).symm
    · exact (Option.some.inj hn).symm
  | _ =>
    -- one call, on the descriptor
    cases List.mem_singleton.1 hmem
    exact (Option.some.inj hn).symm

theorem Socket.Outcome.send (h : s.Outcome a k op res k' calls)
    (hc : Call.send n data ret ∈ calls) : op = .send data := by
  cases h with
  | refused h => cases hc
  | retyped hs hfd => cases hc
  | compiledOut => cases hc
  | closed hop hfd => cases hc
  | dropped ht hs hc' hr hd =>
    rcases List.mem_cons.1 hc with he | hdrop
    · cases he
    · rw [droppedCalls] at hdrop
      split at hdrop
      · cases List.mem_singleton.1 hdrop
      · cases hdrop
  | flagged hs hst hk hcalls hne =>
    rcases hcalls _ hc with ⟨ret, he⟩ | ⟨arg, ret, he⟩
    · cases he
    · cases he
  | sent hr hk =>
    cases List.mem_singleton.1 hc
    rfl
  | _ => cases List.mem_singleton.1 hc

theorem Socket.Outcome.admitted (h : s.Outcome a k op res k' calls) (hop : ∀ data, op ≠ .send data)
    (hs : s.stat = .uninitialized) (hfd : s.fd < 0) :
    (∀ c ∈ calls, c.target = none) ∧
      (op.NeedsDescriptor → calls = [] ∧ res.status ≠ .success) := by
  have hcreated : s.stat ≠ .created := by
    rw [hs]
    decide
  cases h with
  | refused h =>
    exact ⟨fun c hc => (List.not_mem_nil hc).elim, fun _ => ⟨rfl, refusal_ne_success h⟩⟩
  | retyped hs hfd => exact ⟨fun c hc => (List.not_mem_nil hc).elim, fun hneed => hneed.elim⟩
  | compiledOut => exact ⟨fun c hc => (List.not_mem_nil hc).elim, fun hneed => hneed.elim⟩
  | closed hop' hfd =>
    exact ⟨fun c hc => (List.not_mem_nil hc).elim,
      fun hneed => (hop'.not_needsDescriptor hneed).elim⟩
  | noSocket hs hfd hg =>
    refine ⟨fun c hc => ?_, fun hneed => hneed.elim⟩
    cases List.mem_singleton.1 hc
    rfl
  | opened hs hfd hg hn =>
    refine ⟨fun c hc => ?_, fun hneed => hneed.elim⟩
    cases List.mem_singleton.1 hc
    rfl
  | bindFailed hs' hb => exact absurd hs' hcreated
  | bound hs' hb => exact absurd hs' hcreated
  | listenFailed ht hs' hl => cases hs.symm.trans hs'
  | listens ht hs' hl => cases hs.symm.trans hs'
  | taken ht hs' hc hr => cases hs.symm.trans hs'
  | dropped ht hs' hc hr hd => cases hs.symm.trans hs'
  | sent hr hk => exact absurd rfl (hop _)
  | flagged hs' hst hk hcalls hne =>
    rw [hs] at hs'
    exact absurd (by decide) hs'
  | released hop' hfd' => exact absurd hfd' (Int.not_le.2 hfd)

theorem Socket.Outcome.closes (h : s.Outcome a k op res k' calls) (hop : op.Closes) :
    res.socket.connected = false := by
  cases h with
  | @refused op st h =>
    cases op with
    | close => cases h
    | disconnect => cases h
    | _ => exact hop.elim
  | closed hop' hfd => rfl
  | released hop' hfd => rfl
  | _ => exact hop.elim

theorem Socket.Outcome.keeps_connected (h : s.Outcome a k op res k' calls) (hop : ¬op.Closes) :
    res.socket.connected = s.connected := by
  cases h with
  | closed hop' hfd => exact absurd hop' hop
  | released hop' hfd => exact absurd hop' hop
  | _ => rfl

end Outcomes

namespace SocketRun

/-- The calls of one operation of a socket that holds `held`: each on a descriptor that the
socket owns, and a send only while it is connected. -/
structure CallsGuarded (s : Socket) (held : Finset Int) (calls : List Call) : Prop where
  owned : ∀ c ∈ madeBy calls, ∀ n, c.target = some n → 0 ≤ n ∧ n ∈ held
  connected : ∀ fd data ret, .send fd data ret ∈ calls → s.connected = true

/-- The operation returns, its calls are guarded, and without a descriptor to work on it makes
no call and does not succeed. -/
def Guarded (r : SocketRun) : SocketInput → Prop
  | .call op a => ∃ held res kernel calls, Ledger.settle ∅ r.ledger = some held ∧
      (r.socket.operate op).run a r.kernel = .ok (res, kernel) ∧
      kernel.log = r.kernel.log ++ calls ∧ CallsGuarded r.socket held calls ∧
      (op.NeedsDescriptor → held = ∅ → calls = [] ∧ res.status ≠ .success)
  | .elsewhere _ _ => True

def SendsConnected (r : SocketRun) : SocketInput → Prop
  | .call (.send _) _ => r.socket.connected = true
  | _ => True

theorem Holds.guarded {r : SocketRun} (h : r.Holds held) (hsend : r.SendsConnected i) :
    r.Guarded i := by
  obtain ⟨hs, hf⟩ := h
  cases i with
  | elsewhere fd f => trivial
  | call op a =>
    obtain ⟨res, k', calls, hr, hlog, hout⟩ := r.socket.operate_ends op a r.kernel
    have hconn : ∀ data, op = .send data → r.socket.connected = true := by
      rintro data rfl
      exact hsend
    refine ⟨held, res, k', calls, hs, hr, hlog, ⟨?_, ?_⟩, ?_⟩
    · intro c hc n hn
      have hfd := hout.target hc hn
      subst hfd
      have hown : 0 ≤ r.socket.fd := by
        by_contra hneg
        have hst : r.socket.stat = .uninitialized := by
          by_contra hst
          exact hneg (hf.nonneg hst)
        have hop : ∀ data, op ≠ .send data := fun data he => hneg (hf.connected (hconn data he))
        have hnone := (hout.admitted hop hst (Int.not_le.1 hneg)).1 c (mem_of_madeBy hc)
        rw [hn] at hnone
        cases hnone
      exact ⟨hown, hf.owns hown⟩
    · intro fd data ret hc
      exact hconn data (hout.send hc)
    · intro hneed hheld
      subst hheld
      have hneg : ¬0 ≤ r.socket.fd := fun hfd => Finset.notMem_empty _ (hf.owns hfd)
      have hop : ∀ data, op ≠ .send data := fun data he => hneg (hf.connected (hconn data he))
      exact (hout.admitted hop hf.uninitialized (Int.not_le.1 hneg)).2 hneed

theorem Guarded.sendsConnected {r : SocketRun} (h : r.Guarded i) : r.SendsConnected i := by
  cases i with
  | elsewhere fd f => trivial
  | call op a =>
    cases op with
    | send data =>
      obtain ⟨held, res, k', calls, hs, hr, hlog, hcalls, -⟩ := h
      obtain ⟨res', k'', calls', hr', hlog', hout⟩ := r.socket.send_ends data a r.kernel
      cases hr.symm.trans hr'
      have he : calls = calls' := List.append_cancel_left (hlog.symm.trans hlog')
      subst he
      cases hout with
      | refused h => cases h
      | sent hsent hk => exact hcalls.connected _ _ _ (List.mem_singleton_self _)
      | closed hop hfd => exact hop.elim
      | released hop hfd => exact hop.elim
    | _ => trivial

/-- Over every run of a socket, however it was made, its calls are guarded exactly when every
send of the run is made while the socket is connected. -/
theorem guarded_iff (origin : SocketOrigin) (k : Kernel) (is : List SocketInput) :
    Machine.Along step Guarded (begin origin k) is ↔
      Machine.Along step SendsConnected (begin origin k) is := by
  apply Machine.along_iff (I := fun r => ∃ held, r.Holds held)
  · intro r i hI
    obtain ⟨held, h⟩ := hI
    exact ⟨Guarded.sendsConnected, h.guarded⟩
  · intro r i r' hI hsend hstep
    obtain ⟨held, h⟩ := hI
    exact step_holds h hstep
  · exact begin_holds origin k

/-- No send is made once a socket is closed, nor at all if it is not a connection's. -/
def SendsOpen : Bool → List SocketInput → Prop
  | _, [] => True
  | isOpen, .call (.send _) _ :: is => isOpen = true ∧ SendsOpen isOpen is
  | _, .call .close _ :: is => SendsOpen false is
  | _, .call .disconnect _ :: is => SendsOpen false is
  | isOpen, _ :: is => SendsOpen isOpen is

theorem step_call_connected (r : SocketRun) (op : SocketOp) (a : Answers) :
    ∃ r', r.step (.call op a) = .ok r' ∧
      (op.Closes → r'.socket.connected = false) ∧
      (¬op.Closes → r'.socket.connected = r.socket.connected) := by
  obtain ⟨res, k', calls, hr, -, hout⟩ := r.socket.operate_ends op a r.kernel
  refine ⟨⟨res.socket, k', r.extend k'⟩, ?_, hout.closes, hout.keeps_connected⟩
  rw [step, Socket.perform_of_operate hr]
  rfl

/-- The calls alone tell whether the sends are made while the socket is connected. -/
theorem along_sendsConnected (r : SocketRun) (is : List SocketInput) :
    Machine.Along step SendsConnected r is ↔ SendsOpen r.socket.connected is := by
  induction is generalizing r with
  | nil => exact Iff.rfl
  | cons i is ih =>
    cases i with
    | elsewhere fd f =>
      by_cases hfd : fd = r.socket.fd
      · have hstep : r.step (.elsewhere fd f) = .ok r := if_pos hfd
        rw [Machine.along_cons_ok hstep, ih]
        exact iff_of_eq (true_and _)
      · have hstep : r.step (.elsewhere fd f) =
            .ok { r with kernel := r.kernel.replace fd f } := if_neg hfd
        rw [Machine.along_cons_ok hstep, ih]
        exact iff_of_eq (true_and _)
    | call op a =>
      obtain ⟨r', hstep, hcloses, hkeeps⟩ := r.step_call_connected op a
      rw [Machine.along_cons_ok hstep, ih]
      cases op with
      | send data =>
        rw [hkeeps id]
        exact Iff.rfl
      | close =>
        rw [hcloses trivial]
        exact iff_of_eq (true_and _)
      | disconnect =>
        rw [hcloses trivial]
        exact iff_of_eq (true_and _)
      | _ =>
        rw [hkeeps id]
        exact iff_of_eq (true_and _)

theorem sendsConnected_iff (origin : SocketOrigin) (k : Kernel) (is : List SocketInput) :
    Machine.Along step SendsConnected (begin origin k) is ↔ SendsOpen origin.connected is := by
  rw [along_sendsConnected]
  cases origin with
  | create => exact Iff.rfl
  | createWith type => exact Iff.rfl
  | createFromAccept fd => exact Iff.rfl

theorem not_guarded_send :
    ¬Machine.Along step Guarded (begin .create .boot) [.call (.send .empty) {}] := by
  intro h
  cases h.1.sendsConnected

end SocketRun

end Gortsp
