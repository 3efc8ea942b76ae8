import Gortsp.ServerPhases

namespace Gortsp
set_option autoImplicit true

abbrev Pieces := List (Int × List UInt8)

def EventBase.deliver (base : EventBase ε ω) :
    Pieces → Except Fault (EventBase ε ω × List (Int × Invocation ε ω))
  | [] => .ok (base, [])
  | (fd, bytes) :: rest =>
    match base.fire (.read fd bytes) with
    | .ok (base, calls) =>
      (base.deliver rest).map fun r => (r.1, calls.map (fd, ·) ++ r.2)
    | .error e => .error e

def Invocation.buff : Invocation ε ω → List UInt8
  | .event _ _ _ => []
  | .io _ _ buff => buff.bytes

/-- The calls for one connection carry its descriptor and, put together, what it received. -/
structure ReadsThrough (fd : Int) (cb : ω) (pieces : Pieces)
    (calls : List (Int × Invocation ε ω)) : Prop where
  own : ∀ call, (fd, call) ∈ calls → ∃ buff, call = .io cb fd buff
  bytes : (calls.filter (·.1 = fd)).flatMap (·.2.buff) = (pieces.filter (·.1 = fd)).flatMap (·.2)

def DeliversReads (regs : List (Registration ε ω)) (pieces : Pieces) : Prop :=
  ∀ pre, pre <+: pieces → ∃ base calls, (registered regs).deliver pre = .ok (base, calls) ∧
    ∀ fd cb wc ec, .io fd (some cb) wc ec ∈ regs → ReadsThrough fd cb pre calls

theorem deliver_faults {regs : List (Registration ε ω)} (hio : .io fd rc wc ec ∈ regs)
    (bytes : List UInt8) (rest : Pieces) :
    (registered regs).deliver ((fd, bytes) :: rest) = .error .nullDeref := by
  have hfire : (registered regs).fire (.read fd bytes) = .error .nullDeref :=
    fireBufferevent_installed hio fun _ _ _ => rfl
  simp only [EventBase.deliver, hfire]

theorem not_deliversReads_cons {regs : List (Registration ε ω)} (hio : .io fd rc wc ec ∈ regs)
    (bytes : List UInt8) (rest : Pieces) : ¬DeliversReads regs ((fd, bytes) :: rest) := by
  intro h
  obtain ⟨base, calls, hrun, -⟩ := h _ (List.prefix_refl _)
  rw [deliver_faults hio] at hrun
  cases hrun

/-- What connections receive reaches the read callback exactly when nothing is received. -/
theorem deliversReads_iff {regs : List (Registration ε ω)} {pieces : Pieces}
    (hio : ∀ p ∈ pieces, ∃ cb wc ec, .io p.1 (some cb) wc ec ∈ regs) :
    DeliversReads regs pieces ↔ pieces = [] := by
  cases pieces with
  | nil =>
    apply iff_of_true _ rfl
    intro pre hpre
    rw [List.prefix_nil.1 hpre]
    refine ⟨_, [], rfl, fun fd cb wc ec _ => ⟨fun call hcall => ?_, rfl⟩⟩
    cases hcall
  | cons p rest =>
    obtain ⟨fd, bytes⟩ := p
    obtain ⟨cb, wc, ec, hmem⟩ := hio _ List.mem_cons_self
    exact iff_of_false (not_deliversReads_cons hmem bytes rest) (List.cons_ne_nil _ _)

def oneClientRegistrations : List (Registration EventCb IOEventCb) :=
  [TcpServer.listenRegistration 3, TcpServer.connRegistration 5]

theorem deliversReads_iff_one_client :
    DeliversReads oneClientRegistrations [(5, [104, 105])] ↔
      [((5 : Int), [(104 : UInt8), 105])] = [] := by
  apply deliversReads_iff
  intro p hp
  rw [List.mem_singleton.1 hp]
  exact ⟨.onReadFunc, none, some .onDisconnectFunc,
    List.mem_cons_of_mem _ (List.mem_singleton_self _)⟩

theorem not_deliversReads_one_client :
    (TcpServer.accepted 16 3 5).taskScheduler.evtHandler = registered oneClientRegistrations ∧
      ¬DeliversReads oneClientRegistrations [(5, [104, 105])] := by
  constructor
  · rfl
  · have hmem : TcpServer.connRegistration 5 ∈ oneClientRegistrations :=
      List.mem_cons_of_mem _ (List.mem_singleton_self _)
    exact not_deliversReads_cons hmem [104, 105] []

end Gortsp
