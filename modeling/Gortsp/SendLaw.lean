import Gortsp.SocketSimulation

namespace Gortsp
set_option autoImplicit true

theorem sizeOfSsize_ofNat {n : Nat} (h : n < 2 ^ 63) : sizeOfSsize n = n := by
  rw [sizeOfSsize]
  omega

theorem size_lt_sizeOfSsize_error (data : StdString) : data.size < sizeOfSsize (-1) := by
  have h := data.length_lt
  have he : sizeOfSsize (-1) = 2 ^ 64 - 1 := by decide
  rw [he, StdString.size]
  omega

def Kernel.sentOn (k : Kernel) (fd : Int) : List UInt8 :=
  match k.table fd with
  | some f => f.sent
  | none => []

variable {conn : TcpConnection} {k : Kernel} {a : Answers}

theorem TcpConnection.socket_of_connected (h : conn.connected) :
    ∃ s, conn.socket = some s ∧ conn.fd = s.fd := by
  cases hs : conn.socket with
  | none =>
    rw [TcpConnection.connected, hs] at h
    cases h
  | some s => exact ⟨s, rfl, by rw [TcpConnection.fd, hs]⟩

/-- A send that the kernel refuses is reported as a success. -/
theorem TcpConnection.send_error (hc : conn.connected) (ha : a.send = none) :
    (conn.send data).run a k = .ok (.success, k.record (.send conn.fd data (-1))) := by
  obtain ⟨s, hs, hfd⟩ := TcpConnection.socket_of_connected hc
  have hn : ¬sizeOfSsize (-1) < data.size := Nat.not_lt.2 (size_lt_sizeOfSsize_error data).le
  have hr : (Sys.send s.fd data).run a k = .ok (-1, k.record (.send s.fd data (-1))) := by
    cases hf : k.table s.fd <;> simp only [Sys.send, hf, ha]
  rw [TcpConnection.send, hs, Routine.deref_some, Routine.run_bind_ok (Routine.run_pure _ _ _),
    Socket.send, Routine.run_bind_ok hr, if_neg hn, hfd]
  rfl

theorem TcpConnection.send_taken (hc : conn.connected) (hopen : k.table conn.fd = some f)
    (ha : a.send = some n) (data : StdString) :
    (conn.send data).run a k =
      .ok (if n < data.size then .ioOperatorErr else .success,
        (k.modify conn.fd fun f => { f with sent := f.sent ++ data.bytes.take n }).record
          (.send conn.fd data (data.bytes.take n).length)) := by
  obtain ⟨s, hs, hfd⟩ := TcpConnection.socket_of_connected hc
  rw [hfd] at hopen ⊢
  have hlen : (data.bytes.take n).length < 2 ^ 63 := by
    have h := data.length_lt
    rw [List.length_take]
    omega
  have hr : (Sys.send s.fd data).run a k = .ok (((data.bytes.take n).length : Int),
      (k.modify s.fd fun f => { f with sent := f.sent ++ data.bytes.take n }).record
        (.send s.fd data (data.bytes.take n).length)) := by
    simp only [Sys.send, hopen, ha]
  rw [TcpConnection.send, hs, Routine.deref_some, Routine.run_bind_ok (Routine.run_pure _ _ _),
    Socket.send, Routine.run_bind_ok hr, sizeOfSsize_ofNat hlen, Routine.run_ite]
  have hiff : (data.bytes.take n).length < data.size ↔ n < data.size := by
    rw [List.length_take, StdString.size]
    omega
  simp only [hiff, Routine.run_pure]
  split <;> rfl

structure SendRun where
  kernel : Kernel
  delivered : List StdString
  failing : Option StdString

def TcpConnection.sendAll (conn : TcpConnection) (k : Kernel) :
    List (StdString × Answers) → Except Fault SendRun
  | [] => .ok ⟨k, [], none⟩
  | (data, a) :: rest =>
    match (conn.send data).run a k with
    | .ok (.success, k') =>
      (conn.sendAll k' rest).map fun r => { r with delivered := data :: r.delivered }
    | .ok (_, k') => .ok ⟨k', [], some data⟩
    | .error e => .error e

/-- The kernel took the delivered payloads and a prefix of the failing one, and answered each
successful call with the full length. -/
structure SendRun.Lawful (r : SendRun) (fd : Int) (k : Kernel) : Prop where
  bytes : ∃ p, r.kernel.sentOn fd = k.sentOn fd ++ r.delivered.flatMap (·.bytes) ++ p ∧
    p <+: r.failing.elim [] (·.bytes)
  answers : ∃ last, r.kernel.log = k.log ++ r.delivered.map (fun d => .send fd d d.size) ++ last ∧
    last.length = r.failing.toList.length

/-- No call up to the first short one is answered with an error. -/
def NoErrorBeforeShort : List (StdString × Answers) → Prop
  | [] => True
  | (data, a) :: rest =>
    match a.send with
    | none => False
    | some n => n < data.size ∨ NoErrorBeforeShort rest

theorem Kernel.sentOn_modify (hf : k.table fd = some f) (bytes : List UInt8) (c : Call) :
    ((k.modify fd fun f => { f with sent := f.sent ++ bytes }).record c).sentOn fd =
      k.sentOn fd ++ bytes := by
  simp only [Kernel.sentOn, Kernel.record_table, Kernel.modify_table, Function.update_self, hf,
    Option.map_some]

theorem SendRun.lawful_cons {r : SendRun} (hs : k'.sentOn fd = k.sentOn fd ++ data.bytes)
    (hl : k'.log = k.log ++ [.send fd data data.size]) :
    SendRun.Lawful { r with delivered := data :: r.delivered } fd k ↔ r.Lawful fd k' := by
  constructor
  · rintro ⟨⟨p, hb, hp⟩, last, ha, hlast⟩
    refine ⟨⟨p, ?_, hp⟩, last, ?_, hlast⟩
    · rw [hs, hb]
      simp
    · rw [hl, ha]
      simp
  · rintro ⟨⟨p, hb, hp⟩, last, ha, hlast⟩
    refine ⟨⟨p, ?_, hp⟩, last, ?_, hlast⟩
    · rw [hb, hs]
      simp
    · rw [ha, hl]
      simp

theorem TcpConnection.sendAll_success (h : (conn.send data).run a k = .ok (.success, k'))
    (rest : List (StdString × Answers)) :
    conn.sendAll k ((data, a) :: rest) =
      (conn.sendAll k' rest).map fun r => { r with delivered := data :: r.delivered } := by
  simp only [TcpConnection.sendAll, h]

theorem TcpConnection.sendAll_failure (h : (conn.send data).run a k = .ok (.ioOperatorErr, k'))
    (rest : List (StdString × Answers)) :
    conn.sendAll k ((data, a) :: rest) = .ok ⟨k', [], some data⟩ := by
  simp only [TcpConnection.sendAll, h]

theorem TcpConnection.sendAll_log (hc : conn.connected) (hr : conn.sendAll k calls = .ok r) :
    ∃ cs, r.kernel.log = k.log ++ cs := by
  induction calls generalizing k r with
  | nil =>
    cases hr
    exact ⟨[], (List.append_nil _).symm⟩
  | cons call calls ih =>
    obtain ⟨data, a⟩ := call
    obtain ⟨s, hs, -⟩ := TcpConnection.socket_of_connected hc
    obtain ⟨st, k', hsend, hk⟩ := s.send_steady data a k
    obtain ⟨cs, hcs, -⟩ := hk.calls
    have hsend' : (conn.send data).run a k = .ok (st, k') := by
      rw [TcpConnection.send, hs, Routine.deref_some, Routine.run_bind_ok (Routine.run_pure _ _ _),
        hsend]
    simp only [TcpConnection.sendAll, hsend'] at hr
    split at hr
    · next k'' he =>
      cases he
      obtain ⟨r', hr', rfl⟩ := Routine.map_ok_cases hr
      obtain ⟨cs', hcs'⟩ := ih hr'
      exact ⟨cs ++ cs', by rw [hcs', hcs, List.append_assoc]⟩
    · next he =>
      cases he
      cases hr
      exact ⟨cs, hcs⟩
    · next he => cases he

theorem TcpConnection.not_lawful_after_error (hc : conn.connected) (ha : a.send = none)
    (calls : List (StdString × Answers)) :
    ¬∃ r, conn.sendAll k ((data, a) :: calls) = .ok r ∧ r.Lawful conn.fd k := by
  rintro ⟨r, hr, hlaw⟩
  rw [TcpConnection.sendAll_success (TcpConnection.send_error hc ha)] at hr
  obtain ⟨r', hr', rfl⟩ := Routine.map_ok_cases hr
  obtain ⟨cs, hcs⟩ := TcpConnection.sendAll_log hc hr'
  obtain ⟨last, hlog, -⟩ := hlaw.answers
  rw [hcs] at hlog
  simp only [Kernel.record_log, List.map_cons, List.append_assoc, List.cons_append,
    List.append_cancel_left_eq, List.cons.injEq, Call.send.injEq] at hlog
  have hsize := hlog.1.2.2
  omega

/-- The law of `send` holds of a sequence of calls exactly when none of them, up to the first
short one, is answered with an error. -/
theorem TcpConnection.sendAll_lawful_iff (hc : conn.connected) (hopen : (k.table conn.fd).isSome)
    (calls : List (StdString × Answers)) :
    (∃ r, conn.sendAll k calls = .ok r ∧ r.Lawful conn.fd k) ↔ NoErrorBeforeShort calls := by
  induction calls generalizing k with
  | nil =>
    refine ⟨fun _ => trivial, fun _ => ⟨_, rfl, ⟨[], ?_, List.prefix_refl _⟩, [], ?_, rfl⟩⟩
    · simp
    · simp
  | cons call calls ih =>
    obtain ⟨data, a⟩ := call
    cases ha : a.send with
    | none =>
      simp only [NoErrorBeforeShort, ha, iff_false]
      exact TcpConnection.not_lawful_after_error hc ha calls
    | some n =>
      obtain ⟨f, hf⟩ := Option.isSome_iff_exists.1 hopen
      simp only [NoErrorBeforeShort, ha]
      have hsend := TcpConnection.send_taken hc hf ha data
      by_cases hn : n < data.size
      · rw [if_pos hn] at hsend
        refine ⟨fun _ => .inl hn, fun _ => ⟨_, TcpConnection.sendAll_failure hsend calls, ?_⟩⟩
        refine ⟨⟨data.bytes.take n, ?_, List.take_prefix _ _⟩,
          [.send conn.fd data (data.bytes.take n).length], ?_, rfl⟩
        · rw [Kernel.sentOn_modify hf]
          simp
        · simp
      · rw [if_neg hn] at hsend
        have hfull : data.bytes.take n = data.bytes := List.take_of_length_le (Nat.le_of_not_lt hn)
        rw [hfull] at hsend
        let k' := (k.modify conn.fd fun f => { f with sent := f.sent ++ data.bytes }).record
          (.send conn.fd data data.bytes.length)
        have hopen' : (k'.table conn.fd).isSome := by
          simp only [k', Kernel.record_table, Kernel.modify_table, Function.update_self, hf,
            Option.map_some, Option.isSome_some]
        have hcons (r : SendRun) :
            SendRun.Lawful { r with delivered := data :: r.delivered } conn.fd k ↔
              r.Lawful conn.fd k' :=
          SendRun.lawful_cons (Kernel.sentOn_modify hf data.bytes _) rfl
        rw [TcpConnection.sendAll_success hsend]
        constructor
        · rintro ⟨r, hr, hlaw⟩
          obtain ⟨r', hr', rfl⟩ := Routine.map_ok_cases hr
          exact .inr ((ih hopen').1 ⟨r', hr', (hcons r').1 hlaw⟩)
        · intro h
          obtain ⟨r', hr', hlaw⟩ := (ih hopen').2 (h.resolve_left hn)
          refine ⟨_, ?_, (hcons r').2 hlaw⟩
          rw [hr']
          rfl

def oneConnection : Kernel :=
  Kernel.boot.install 5 ⟨.stream, .tcp, none, false, .none, []⟩

def hi : StdString := ⟨[104, 105], by decide⟩

theorem sendAll_lawful_iff_reset :
    (∃ r, (TcpConnection.ofAccept 5).sendAll oneConnection [(hi, { send := none })] = .ok r ∧
      r.Lawful 5 oneConnection) ↔ NoErrorBeforeShort [(hi, { send := none })] := by
  have hc : (TcpConnection.ofAccept 5).connected := rfl
  exact TcpConnection.sendAll_lawful_iff hc rfl _

theorem not_sendAll_lawful_reset :
    ¬∃ r, (TcpConnection.ofAccept 5).sendAll oneConnection [(hi, { send := none })] = .ok r ∧
      r.Lawful 5 oneConnection := by
  have hc : (TcpConnection.ofAccept 5).connected := rfl
  exact TcpConnection.not_lawful_after_error hc rfl []

end Gortsp
