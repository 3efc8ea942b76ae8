import Gortsp.SocketOutcome

namespace Gortsp
set_option autoImplicit true

/-- `accept` succeeds exactly when the kernel returned a descriptor that `conn` then owns. If it
does not succeed, `conn` is left alone and a descriptor that was returned is closed again. -/
def Socket.AcceptReports (s : Socket) (conn : TcpConnection) (a : Answers) (k : Kernel) : Prop :=
  ∃ st s' conn' k' calls, (s.accept (some conn)).run a k = .ok ((st, s', some conn'), k') ∧
    k'.log = k.log ++ calls ∧
    (st = .success ↔
      ∃ fd, .accept s.fd fd ∈ calls ∧ 0 ≤ fd ∧ conn'.Owns fd ∧ (k'.table fd).isSome) ∧
    (st ≠ .success → conn' = conn ∧ ∀ fd, .accept s.fd fd ∈ calls → k'.table fd = none)

def Kernel.Gives (k : Kernel) (fd : Int) (a : Answers) : Prop :=
  ∃ n k', (Sys.accept fd).run a k = .ok (n, k') ∧ 0 ≤ n

theorem Sys.accept_opens (hr : (Sys.accept fd).run a k = .ok (n, k')) (hn : 0 ≤ n) :
    (k'.table n).isSome := by
  rcases Sys.accept_cases fd a k with hr' | ⟨m, f, hm, hfree, hr'⟩
  · cases hr.symm.trans hr'
    exact absurd hn (by decide)
  · cases hr.symm.trans hr'
    rw [Kernel.record_table, Kernel.install_self k hm]
    rfl

theorem Socket.destroy_unowned (hd : (createFromAccept n).destroy.run a k = .ok ((), k')) :
    k'.table n = none := by
  by_cases hn : 0 ≤ n
  · cases hd.symm.trans (destroy_open hn)
    exact Function.update_self _ _ _
  · exact k'.table_neg n (Int.not_le.1 hn)

section Reports

variable {s : Socket} {conn : TcpConnection} {a : Answers} {k : Kernel}

theorem Socket.acceptReports_refused (h : s.type ≠ .tcpSocket ∨ s.stat ≠ .listened) :
    s.AcceptReports conn a k := by
  refine ⟨.illegalParams, s, conn, k, [], accept_refused h, (List.append_nil _).symm, ?_, ?_⟩
  · constructor
    · intro he
      cases he
    · intro hgood
      obtain ⟨fd, hc, -⟩ := hgood
      cases hc
  · intro _
    exact ⟨rfl, fun fd hc => (List.not_mem_nil hc).elim⟩

theorem Socket.acceptReports_given (ht : s.type = .tcpSocket) (hs : s.stat = .listened)
    (hc : conn.socket = none) (hr : (Sys.accept s.fd).run a k = .ok (n, k')) (hn : 0 ≤ n) :
    s.AcceptReports conn a k := by
  obtain ⟨n', k₁, hr', hlog⟩ := Sys.accept_answers s.fd a k
  cases hr.symm.trans hr'
  refine ⟨_, _, _, k', _, accept_given ht hs hc hr, hlog, ?_, fun hne => absurd rfl hne⟩
  constructor
  · intro _
    exact ⟨n, List.mem_singleton_self _, hn, ⟨rfl, rfl⟩, Sys.accept_opens hr hn⟩
  · intro _
    rfl

theorem Socket.AcceptReports.given (h : s.AcceptReports conn a k) (ht : s.type = .tcpSocket)
    (hs : s.stat = .listened) : k.Gives s.fd a ∧ conn.socket = none := by
  obtain ⟨st, s', conn', k', calls, hrun, hlog, hiff, -⟩ := h
  obtain ⟨n, k₁, hr, hlog₁⟩ := Sys.accept_answers s.fd a k
  cases hc : conn.socket with
  | none =>
    cases hrun.symm.trans (accept_given ht hs hc hr)
    obtain ⟨fd, hmem, hfd, -⟩ := hiff.1 rfl
    rw [List.append_cancel_left (hlog.symm.trans hlog₁), List.mem_singleton] at hmem
    cases hmem
    exact ⟨⟨_, _, hr, hfd⟩, rfl⟩
  | some other =>
    obtain ⟨k₂, hd, hlog₂⟩ := destroy_ofAccept n a k₁
    rw [hlog₁, List.append_assoc] at hlog₂
    cases hrun.symm.trans (accept_dropped ht hs (Option.isSome_of_eq_some hc) hr hd)
    obtain ⟨fd, hmem, hfd, -, hopen⟩ := hiff.1 rfl
    rw [List.append_cancel_left (hlog.symm.trans hlog₂), List.singleton_append,
      List.mem_cons] at hmem
    have he : fd = n := by
      rcases hmem with he | hdrop
      · cases he
        rfl
      · rw [droppedCalls] at hdrop
        split at hdrop
        · cases List.mem_singleton.1 hdrop
        · cases hdrop
    rw [he, destroy_unowned hd] at hopen
    cases hopen

/-- `accept` reports what happened exactly when its guard turns the call away, or the kernel
gives a descriptor and `conn` is empty. -/
theorem Socket.acceptReports_iff (s : Socket) (conn : TcpConnection) (a : Answers) (k : Kernel) :
    s.AcceptReports conn a k ↔
      (s.type ≠ .tcpSocket ∨ s.stat ≠ .listened) ∨ k.Gives s.fd a ∧ conn.socket = none := by
  constructor
  · intro h
    by_cases hg : s.type ≠ .tcpSocket ∨ s.stat ≠ .listened
    · exact .inl hg
    · obtain ⟨ht, hs⟩ := not_or.1 hg
      exact .inr (h.given (not_not.1 ht) (not_not.1 hs))
  · intro h
    by_cases hg : s.type ≠ .tcpSocket ∨ s.stat ≠ .listened
    · exact acceptReports_refused hg
    · obtain ⟨ht, hs⟩ := not_or.1 hg
      obtain ⟨⟨n, k', hr, hn⟩, hc⟩ := h.resolve_left hg
      exact acceptReports_given (not_not.1 ht) (not_not.1 hs) hc hr hn

end Reports

def listeningKernel : Kernel :=
  Kernel.boot.install 3 ⟨.stream, .tcp, some (Socket.anyAddr 8080), true, .none, []⟩

theorem not_acceptReports_second :
    ¬Socket.AcceptReports ⟨.tcpSocket, 3, .listened, false⟩ (.ofAccept 5) { accept := some 6 }
        listeningKernel ∧
      ¬Socket.AcceptReports ⟨.tcpSocket, 3, .listened, false⟩ .create {} listeningKernel := by
  constructor
  · intro h
    cases (h.given rfl rfl).2
  · intro h
    obtain ⟨⟨n, k', hr, hn⟩, -⟩ := h.given rfl rfl
    cases hr
    exact absurd hn (by decide)

end Gortsp
