import Gortsp.SocketGuards

namespace Gortsp
set_option autoImplicit true

def octet (digits : List UInt8) : Option Nat :=
  if 0 < digits.length ∧ digits.length ≤ 3 ∧ digits.all fun d => 48 ≤ d ∧ d ≤ 57 then
    let n := digits.foldl (fun n d => 10 * n + (d.toNat - 48)) 0
    if n ≤ 255 then some n else none
  else none

/-- The address in network byte order that a string of the form `a.b.c.d` denotes. -/
def StdString.dottedQuad (ip : StdString) : Option (BitVec 32) :=
  match ip.bytes.splitOn 46 with
  | [a, b, c, d] => do
    let a ← octet a
    let b ← octet b
    let c ← octet c
    let d ← octet d
    return BitVec.ofNat 32 (a + b * 2 ^ 8 + c * 2 ^ 16 + d * 2 ^ 24)
  | _ => none

def localhost : StdString := ⟨[49, 50, 55, 46, 48, 46, 48, 46, 49], by decide⟩

theorem localhost_dottedQuad : localhost.dottedQuad = some 0x0100007f := by decide

def SocketStat.IsBound : SocketStat → Prop
  | .binded | .listened | .accepting => True
  | .uninitialized | .created | .conneted => False

/-- The arguments of the last `bind` that succeeded since the last `init` that did. -/
def rebind (last : Option (StdString × UInt16)) (op : SocketOp) (st : RtspStatus) :
    Option (StdString × UInt16) :=
  match op with
  | .bind ip port => if st = .success then some (ip, port) else last
  | .init => if st = .success then none else last
  | _ => last

structure BindRun where
  socket : Socket
  kernel : Kernel
  last : Option (StdString × UInt16)

namespace BindRun

def begin (origin : SocketOrigin) (k : Kernel) : BindRun :=
  ⟨(SocketRun.begin origin k).socket, k, none⟩

def step (r : BindRun) : SocketInput → Except Fault BindRun
  | .call op a =>
    ((r.socket.operate op).run a r.kernel).map fun (res, kernel) =>
      ⟨res.socket, kernel, rebind r.last op res.status⟩
  | .elsewhere fd f =>
    if fd = r.socket.fd then .ok r else .ok { r with kernel := r.kernel.replace fd f }

/-- A bound socket has the address and the port that it was bound to. -/
def Addressed (r : BindRun) : Prop :=
  r.socket.stat.IsBound → ∃ ip port addr f, r.last = some (ip, port) ∧
    ip.dottedQuad = some addr ∧ r.kernel.table r.socket.fd = some f ∧ f.BoundTo addr port

/-- The step leaves a bound socket at its address, and a string that denotes no address is not
bound to. -/
def BindsTo (r : BindRun) (i : SocketInput) : Prop :=
  (∃ r', r.step i = .ok r' ∧ r'.Addressed) ∧
    ∀ ip port a, i = .call (.bind ip port) a → ip.dottedQuad = none →
      ∃ res k', (r.socket.operate (.bind ip port)).run a r.kernel = .ok (res, k') ∧
        res.status ≠ .success ∧ k'.table = r.kernel.table

/-- A `bind` that the kernel lets succeed is to `0.0.0.0`, at a port of the caller's choice. -/
def BindsAny (r : BindRun) (i : SocketInput) : Prop :=
  ∀ ip port a, i = .call (.bind ip port) a → r.socket.stat = .created → a.bind = true →
    ip.dottedQuad = some inaddrAny ∧ port ≠ 0

end BindRun

section Steps

variable {s : Socket} {a : Answers} {k k' : Kernel} {op : SocketOp} {res : Socket.Result}
  {calls : List Call}

theorem Socket.Follows.operated (h : s.Follows k held)
    (hr : (s.operate op).run a k = .ok (res, k')) : ∃ held', res.socket.Follows k' held' := by
  have hrun := Socket.perform_of_operate hr
  cases h with
  | tracks h =>
    obtain ⟨s', k'', calls, held', hr', -, -, ht⟩ := h.perform op a
    cases hrun.symm.trans hr'
    exact ⟨held', .tracks ht⟩
  | accepted hn =>
    obtain ⟨s', k'', calls, held', hr', -, -, hf⟩ := SocketRun.call_accepted hn op a k
    cases hrun.symm.trans hr'
    exact ⟨held', hf⟩

theorem Socket.Follows.replaced {n : Int} (h : s.Follows k held) (hfd : n ≠ s.fd)
    (f : Option KernelSocket) : s.Follows (k.replace n f) held := by
  cases h with
  | accepted hn => exact .accepted hn
  | tracks h =>
    refine .tracks (h.of_shape fun n hn => ?_)
    obtain ⟨rfl, -⟩ := h.isSome hn
    rw [Kernel.replace_of_ne _ _ (Ne.symm hfd)]

theorem Socket.Follows.created (h : s.Follows k held) (hs : s.stat = .created) :
    (k.table s.fd).isSome := by
  cases h with
  | accepted hn => cases hs
  | tracks h =>
    cases h with
    | closed t => cases hs
    | opened hf hd => exact Option.isSome_of_eq_some hf

def Kernel.localAddr (k : Kernel) (fd : Int) : Option SockaddrIn :=
  (k.table fd).bind KernelSocket.localAddr

theorem Kernel.Steady.localAddr (h : k.Steady k') (fd : Int) :
    k'.localAddr fd = k.localAddr fd := by
  have hshape := h.shape fd
  rw [Kernel.localAddr, Kernel.localAddr]
  cases hf : k.table fd with
  | none =>
    rw [hf, Option.map_none, Option.map_eq_none_iff] at hshape
    rw [hshape]
  | some f =>
    obtain ⟨f', hf', he⟩ := h.table hf
    simp only [KernelSocket.shape, Prod.mk.injEq] at he
    rw [hf', Option.bind_some, Option.bind_some, he.2.1]

theorem Kernel.boundTo_of_localAddr {n : Int} (h : k'.localAddr n = k.localAddr n)
    (hf : ∃ f, k.table n = some f ∧ f.BoundTo ip port) :
    ∃ f, k'.table n = some f ∧ f.BoundTo ip port := by
  obtain ⟨f, hf, addr, ha, hip, hport⟩ := hf
  rw [Kernel.localAddr, Kernel.localAddr, hf, Option.bind_some, ha] at h
  obtain ⟨f', hf', ha'⟩ := Option.bind_eq_some_iff.1 h
  exact ⟨f', hf', addr, ha', hip, hport⟩

theorem Kernel.boundTo_anyAddr {n : Int} (h : k.localAddr n = some (Socket.anyAddr port)) :
    ∃ f, k.table n = some f ∧ f.BoundTo inaddrAny port := by
  obtain ⟨f, hf, ha⟩ := Option.bind_eq_some_iff.1 h
  exact ⟨f, hf, _, ha, rfl, ntohs_htons port⟩

theorem Kernel.localAddr_congr {n : Int} (h : k'.table n = k.table n) :
    k'.localAddr n = k.localAddr n :=
  congrArg (Option.bind · _) h

theorem Kernel.localAddr_modify {n : Int} (hf : k.table n = some f)
    (g : KernelSocket → KernelSocket) (c : Call) :
    ((k.modify n g).record c).localAddr n = (g f).localAddr := by
  simp only [Kernel.localAddr, Kernel.record_table, Kernel.modify_table, hf,
    Function.update_self, Option.map_some, Option.bind_some]

theorem Socket.Outcome.bound_cases (h : s.Outcome a k op res k' calls)
    (hb : res.socket.stat.IsBound) :
    (∃ ip port, op = .bind ip port ∧ s.stat = .created ∧ a.bind = true ∧
      res.status = .success ∧ k'.localAddr res.socket.fd = some (anyAddr (a.portFor port))) ∨
    (s.stat.IsBound ∧ res.socket.fd = s.fd ∧ (∀ last, rebind last op res.status = last) ∧
      ((k.table s.fd).isSome → k'.localAddr s.fd = k.localAddr s.fd)) := by
  cases h with
  | @refused op st h =>
    have hlast (last : Option (StdString × UInt16)) : rebind last op st = last := by
      have hne := refusal_ne_success h
      cases op with
      | bind ip port => exact if_neg hne
      | init => exact if_neg hne
      | _ => rfl
    exact .inr ⟨hb, rfl, hlast, fun _ => rfl⟩
  | retyped hs hfd =>
    change s.stat.IsBound at hb
    rw [hs] at hb
    exact hb.elim
  | noSocket hs hfd hg =>
    change s.stat.IsBound at hb
    rw [hs] at hb
    exact hb.elim
  | opened hs hfd hg hn => exact hb.elim
  | bindFailed hs hb' =>
    change s.stat.IsBound at hb
    rw [hs] at hb
    exact hb.elim
  | @bound ip port hs hb' =>
    obtain ⟨f, hf⟩ := Option.isSome_iff_exists.1 hb'.1
    exact .inl ⟨ip, port, rfl, hs, hb'.2, rfl, Kernel.localAddr_modify hf _ _⟩
  | listenFailed ht hs hl => exact .inr ⟨hb, rfl, fun _ => rfl, fun _ => rfl⟩
  | listens ht hs hl =>
    refine .inr ⟨hs ▸ trivial, rfl, fun _ => rfl, fun _ => ?_⟩
    obtain ⟨f, hf⟩ := Option.isSome_iff_exists.1 hl.1
    rw [Kernel.localAddr_modify hf, Kernel.localAddr, hf, Option.bind_some]
  | taken ht hs hc hr =>
    refine .inr ⟨hs ▸ trivial, rfl, fun _ => rfl, fun hopen => ?_⟩
    obtain ⟨f, hf⟩ := Option.isSome_iff_exists.1 hopen
    exact Kernel.localAddr_congr ((Sys.accept_keeps hf hr).2.trans hf.symm)
  | dropped ht hs hc hr hd =>
    refine .inr ⟨hs ▸ trivial, rfl, fun _ => rfl, fun hopen => ?_⟩
    obtain ⟨f, hf⟩ := Option.isSome_iff_exists.1 hopen
    obtain ⟨hne, hkept⟩ := Sys.accept_keeps hf hr
    exact Kernel.localAddr_congr ((destroy_keeps hne hd).trans (hkept.trans hf.symm))
  | compiledOut => exact .inr ⟨hb, rfl, fun _ => rfl, fun _ => rfl⟩
  | sent hr hk => exact .inr ⟨hb, rfl, fun _ => rfl, fun _ => hk.localAddr _⟩
  | flagged hs hst hk hcalls hne => exact .inr ⟨hb, rfl, fun _ => rfl, fun _ => hk.localAddr _⟩
  | closed hop hfd => exact hb.elim
  | released hop hfd => exact hb.elim

end Steps

namespace BindRun

def Sound (r : BindRun) : Prop := (∃ held, r.socket.Follows r.kernel held) ∧ r.Addressed

theorem begin_sound (origin : SocketOrigin) (k : Kernel) : (begin origin k).Sound := by
  obtain ⟨held, -, hf⟩ := SocketRun.begin_holds origin k
  refine ⟨⟨held, ?_⟩, ?_⟩
  · cases origin with
    | create => exact hf
    | createWith type => exact hf
    | createFromAccept fd => exact hf
  · intro hb
    cases origin with
    | create => exact hb.elim
    | createWith type => exact hb.elim
    | createFromAccept fd => exact hb.elim

theorem step_call {r : BindRun} (h : (r.socket.operate op).run a r.kernel = .ok (res, k')) :
    r.step (.call op a) = .ok ⟨res.socket, k', rebind r.last op res.status⟩ := by
  rw [step, h]
  rfl

theorem Sound.step {r : BindRun} (h : r.Sound) (hany : r.BindsAny i) :
    ∃ r', r.step i = .ok r' ∧ r'.Sound := by
  obtain ⟨⟨held, hf⟩, haddr⟩ := h
  cases i with
  | call op a =>
    obtain ⟨res, k', calls, hr, -, hout⟩ := r.socket.operate_ends op a r.kernel
    refine ⟨_, step_call hr, hf.operated hr, fun hb => ?_⟩
    rcases hout.bound_cases hb with ⟨ip, port, rfl, hs, ha, hst, hlocal⟩ | ⟨hb', hfd, hlast, hkept⟩
    · obtain ⟨hip, hport⟩ := hany ip port a rfl hs ha
      rw [a.portFor_eq hport] at hlocal
      obtain ⟨f, hf', hto⟩ := Kernel.boundTo_anyAddr hlocal
      exact ⟨ip, port, inaddrAny, f, if_pos hst, hip, hf', hto⟩
    · obtain ⟨ip, port, addr, f, hl, hip, hf', hto⟩ := haddr hb'
      have hlocal := hkept (Option.isSome_of_eq_some hf')
      obtain ⟨g, hg, hto'⟩ := Kernel.boundTo_of_localAddr hlocal ⟨f, hf', hto⟩
      exact ⟨ip, port, addr, g, (hlast _).trans hl, hip, by rw [hfd]; exact hg, hto'⟩
  | elsewhere fd f =>
    by_cases hfd : fd = r.socket.fd
    · exact ⟨r, if_pos hfd, ⟨held, hf⟩, haddr⟩
    · refine ⟨_, if_neg hfd, ⟨held, hf.replaced hfd f⟩, fun hb => ?_⟩
      obtain ⟨ip, port, addr, g, hl, hip, hg, hto⟩ := haddr hb
      exact ⟨ip, port, addr, g, hl, hip,
        (Kernel.replace_of_ne _ _ (Ne.symm hfd)).trans hg, hto⟩

theorem Sound.undotted {r : BindRun} (hany : r.BindsAny (.call (.bind ip port) a))
    (hip : ip.dottedQuad = none) :
    ∃ res k', (r.socket.operate (.bind ip port)).run a r.kernel = .ok (res, k') ∧
      res.status ≠ .success ∧ k'.table = r.kernel.table := by
  obtain ⟨res, k', calls, hr, -, hout⟩ := r.socket.operate_ends (.bind ip port) a r.kernel
  refine ⟨res, k', hr, ?_⟩
  cases hout with
  | refused h => exact ⟨Socket.refusal_ne_success h, rfl⟩
  | bindFailed hs hb => exact ⟨(by decide : RtspStatus.ioOperatorErr ≠ .success), rfl⟩
  | bound hs hb =>
    have hnone := (hany ip port a rfl hs hb.2).1
    rw [hip] at hnone
    cases hnone
  | closed hop hfd => exact hop.elim
  | released hop hfd => exact hop.elim

theorem Sound.bindsAny {r : BindRun} (h : r.Sound) (hto : r.BindsTo i) : r.BindsAny i := by
  intro ip port a hi hs ha
  subst hi
  obtain ⟨⟨held, hf⟩, -⟩ := h
  obtain ⟨⟨r', hstep, haddr⟩, -⟩ := hto
  have hrun : (r.socket.operate (.bind ip port)).run a r.kernel = _ :=
    Routine.run_bind_ok (Socket.bind_ok hs ⟨hf.created hs, ha⟩ ip port) _
  cases hstep.symm.trans (step_call hrun)
  obtain ⟨ip', port', addr, f, hl, hip, hf', addr', ha', hany, hport⟩ := haddr trivial
  cases hl
  obtain ⟨g, hg⟩ := Option.isSome_iff_exists.1 (hf.created hs)
  simp only [Kernel.record_table, Kernel.modify_table, hg, Function.update_self,
    Option.map_some, Option.some.injEq] at hf'
  cases hf'
  cases ha'
  refine ⟨?_, ?_⟩
  · rw [hip, ← hany]
    rfl
  · rintro rfl
    exact a.portFor_ne_zero 0 ((ntohs_htons _).symm.trans hport)

/-- Over every run, a bound socket is where its last `bind` was told, and strings that denote
no address are turned away, exactly when every `bind` that the kernel lets succeed is told
`0.0.0.0` and a port. -/
theorem bindsTo_iff (origin : SocketOrigin) (k : Kernel) (is : List SocketInput) :
    Machine.Along step BindsTo (begin origin k) is ↔
      Machine.Along step BindsAny (begin origin k) is := by
  apply Machine.along_iff (I := Sound)
  · intro r i h
    constructor
    · exact h.bindsAny
    · intro hany
      obtain ⟨r', hstep, hsound⟩ := h.step hany
      refine ⟨⟨r', hstep, hsound.2⟩, ?_⟩
      intro ip port a hi hip
      subst hi
      exact Sound.undotted hany hip
  · intro r i t h hany ht
    obtain ⟨r', hstep, hsound⟩ := h.step hany
    cases ht.symm.trans hstep
    exact hsound
  · exact begin_sound origin k

theorem not_bindsTo_localhost :
    ¬Machine.Along step BindsTo (begin (.createWith .tcpSocket) .boot)
      [.call .init { socket := some 3 }, .call (.bind localhost 8080) { bind := true }] := by
  intro h
  obtain ⟨r, hstep, hsound⟩ := (begin_sound (.createWith .tcpSocket) .boot).step
    (i := .call .init { socket := some 3 }) (fun ip port a hi => by cases hi)
  obtain ⟨hto, -⟩ := h.2 r hstep
  have hs : r.socket.stat = .created := by
    cases hstep
    rfl
  have hip := (hsound.bindsAny hto localhost 8080 _ rfl hs rfl).1
  rw [localhost_dottedQuad] at hip
  cases hip

end BindRun

end Gortsp
