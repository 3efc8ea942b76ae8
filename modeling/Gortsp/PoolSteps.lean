import Gortsp.Executor
import Gortsp.ThreadPool
import Mathlib.Algebra.BigOperators.Group.List.Basic
import Mathlib.Algebra.GroupWithZero.Nat
import Mathlib.Data.List.Perm.Basic

namespace Gortsp
set_option autoImplicit true

section Moves

variable {α : Type} {a b : α} {xs ys : List α}

def Moves (a b : α) (xs ys : List α) : Prop := ∃ rest, xs.Perm (a :: rest) ∧ ys.Perm (b :: rest)

theorem moves_set {n : Nat} (h : xs[n]? = some a) (b : α) : Moves a b xs (xs.set n b) := by
  obtain ⟨hlt, he⟩ := List.getElem?_eq_some_iff.1 h
  refine ⟨xs.eraseIdx n, ?_, List.set_perm_cons_eraseIdx hlt b⟩
  rw [← he]
  exact (List.getElem_cons_eraseIdx_perm hlt).symm

theorem Moves.symm (h : Moves a b xs ys) : Moves b a ys xs := by
  obtain ⟨rest, hxs, hys⟩ := h
  exact ⟨rest, hys, hxs⟩

theorem Moves.mem_old (h : Moves a b xs ys) : a ∈ xs := by
  obtain ⟨rest, hxs, -⟩ := h
  exact hxs.mem_iff.2 List.mem_cons_self

theorem Moves.mem_cases {x : α} (h : Moves a b xs ys) (hx : x ∈ ys) : x = b ∨ x ∈ xs := by
  obtain ⟨rest, hxs, hys⟩ := h
  rcases List.mem_cons.1 (hys.mem_iff.1 hx) with he | hrest
  · exact .inl he
  · exact .inr (hxs.mem_iff.2 (List.mem_cons_of_mem a hrest))

theorem Moves.length_eq (h : Moves a b xs ys) : ys.length = xs.length := by
  obtain ⟨rest, hxs, hys⟩ := h
  rw [hxs.length_eq, hys.length_eq, List.length_cons, List.length_cons]

theorem Moves.sum_map (h : Moves a b xs ys) (f : α → Nat) :
    (ys.map f).sum + f a = (xs.map f).sum + f b := by
  obtain ⟨rest, hxs, hys⟩ := h
  rw [(hxs.map f).sum_nat, (hys.map f).sum_nat, List.map_cons, List.map_cons, List.sum_cons,
    List.sum_cons]
  omega

end Moves

theorem Moves.singleton {α : Type} {a b : α} {xs ys : List α} (h : Moves a b xs ys)
    (hlen : xs.length = 1) : xs = [a] ∧ ys = [b] := by
  obtain ⟨rest, hxs, hys⟩ := h
  have hrest : rest = [] := by
    have hl := hxs.length_eq
    rw [List.length_cons, hlen] at hl
    exact List.length_eq_zero_iff.1 (by omega)
  subst hrest
  exact ⟨List.perm_singleton.1 hxs, List.perm_singleton.1 hys⟩

theorem Moves.mem_asleep {a b x : Worker τ} {ws ws' : List (Worker τ)} (h : Moves a b ws ws')
    (hb : b.isWaiting = false) (hx : x ∈ ws') (hwait : x.isWaiting = true) : x ∈ ws := by
  rcases h.mem_cases hx with he | hold
  · rw [he, hb] at hwait
    cases hwait
  · exact hold

namespace PoolRun

variable {r r' : PoolRun τ} {i : PoolInput τ} {w : Nat}

def withWorkers (r : PoolRun τ) (workers : List (Worker τ)) : PoolRun τ :=
  { r with pool := { r.pool with workers } }

inductive Took (r : PoolRun τ) : PoolInput τ → PoolRun τ → Prop where
  | enqueued {task : τ} (hstop : r.pool.stop = false) :
      Took r (.enqueue task) { r with
        pool := { r.pool with tasks := r.pool.tasks ++ [task] }
        notifiers := r.notifiers + 1
        accepted := r.accepted ++ [task] }
  | notified {w : Option Nat} {ws : List (Worker τ)} (hn : 0 < r.notifiers)
      (hm : Moves .waiting .looping r.pool.workers ws) :
      Took r (.notifyOne w) { r.withWorkers ws with notifiers := r.notifiers - 1 }
  | unheard {w : Option Nat} (hn : 0 < r.notifiers)
      (hno : ∀ x ∈ r.pool.workers, x.isWaiting = false) :
      Took r (.notifyOne w) { r with notifiers := r.notifiers - 1 }
  | slept {w : Nat} {ws : List (Worker τ)} (hstop : r.pool.stop = false) (ht : r.pool.tasks = [])
      (hm : Moves .looping .waiting r.pool.workers ws) : Took r (.work w) (r.withWorkers ws)
  | returned {w : Nat} {ws : List (Worker τ)} (hstop : r.pool.stop = true)
      (ht : r.pool.tasks = []) (hm : Moves .looping .returned r.pool.workers ws) :
      Took r (.work w) (r.withWorkers ws)
  | started {w : Nat} {ws : List (Worker τ)} {task : τ} {tasks : List τ}
      (ht : r.pool.tasks = task :: tasks)
      (hm : Moves .looping (.running task) r.pool.workers ws) :
      Took r (.work w) { r with
        pool := { r.pool with workers := ws, tasks }
        started := r.started ++ [task] }
  | finished {w : Nat} {ws : List (Worker τ)} {task : τ}
      (hm : Moves (.running task) .looping r.pool.workers ws) :
      Took r (.finish w) { r.withWorkers ws with finished := r.finished ++ [task] }
  | woken {w : Nat} {ws : List (Worker τ)} (hm : Moves .waiting .looping r.pool.workers ws) :
      Took r (.wake w) (r.withWorkers ws)
  | stopped (ht : r.teardown = .notBegun) :
      Took r .stop { r with pool := { r.pool with stop := true }, teardown := .stopping }
  | notifiedAll (ht : r.teardown = .stopping) :
      Took r .notifyAll
        { r.withWorkers (r.pool.workers.map Worker.notified) with teardown := .joining }

theorem took_work (hw : r.pool.workers[w]? = some .looping) (h : r.step (.work w) = .ok r') :
    r.Took (.work w) r' := by
  simp only [step, hw] at h
  cases h
  cases ht : r.pool.tasks with
  | nil =>
    cases hstop : r.pool.stop with
    | false =>
      have hloop : r.pool.loop = (.waiting, r.pool) := by
        rw [ThreadPool.loop, hstop, ht]
        rfl
      rw [hloop]
      have htook := Took.slept (w := w) hstop ht (moves_set hw .waiting)
      simpa only [setWorker, withWorkers, Worker.task, Option.toList_none,
        List.append_nil] using htook
    | true =>
      have hloop : r.pool.loop = (.returned, r.pool) := by
        rw [ThreadPool.loop, hstop, ht]
        rfl
      rw [hloop]
      have htook := Took.returned (w := w) hstop ht (moves_set hw .returned)
      simpa only [setWorker, withWorkers, Worker.task, Option.toList_none,
        List.append_nil] using htook
  | cons task tasks =>
    have hpred : r.pool.stop ∨ r.pool.tasks ≠ [] := by
      rw [ht]
      exact .inr (List.cons_ne_nil task tasks)
    have hloop : r.pool.loop = (.running task, { r.pool with tasks }) := by
      rw [ThreadPool.loop, if_pos hpred, ht]
    rw [hloop]
    exact .started ht (moves_set hw (.running task))

theorem took_of_step (h : r.step i = .ok r') : r.Took i r' := by
  cases i with
  | enqueue task =>
    by_cases hstop : r.pool.stop = true
    · simp only [step, ThreadPool.enqueue, if_pos hstop] at h
      cases h
    · simp only [step, ThreadPool.enqueue, if_neg hstop] at h
      cases h
      exact .enqueued (Bool.eq_false_iff.2 hstop)
  | notifyOne w =>
    simp only [step] at h
    by_cases hn : r.notifiers = 0
    · rw [if_pos hn] at h
      cases h
    · rw [if_neg hn] at h
      have hpos : 0 < r.notifiers := Nat.pos_of_ne_zero hn
      cases w with
      | none =>
        cases hany : r.pool.workers.any Worker.isWaiting with
        | true =>
          simp only [hany, if_true] at h
          cases h
        | false =>
          simp only [hany, Bool.false_eq_true, if_false] at h
          cases h
          refine .unheard hpos fun x hx => ?_
          have hall := List.any_eq_false.1 hany x hx
          exact Bool.eq_false_iff.2 hall
      | some w =>
        simp only at h
        split at h
        · next hw =>
          cases h
          exact .notified hpos (moves_set hw .looping)
        · cases h
  | work w =>
    cases hw : r.pool.workers[w]? with
    | none =>
      simp only [step, hw] at h
      cases h
    | some worker =>
      cases worker with
      | looping => exact took_work hw h
      | _ =>
        simp only [step, hw] at h
        cases h
  | finish w =>
    simp only [step] at h
    split at h
    · next hw =>
      cases h
      exact .finished (moves_set hw .looping)
    · cases h
  | wake w =>
    simp only [step] at h
    split at h
    · next hw =>
      cases h
      exact .woken (moves_set hw .looping)
    · cases h
  | stop =>
    simp only [step] at h
    split at h
    · next ht =>
      cases h
      exact .stopped ht
    · cases h
  | notifyAll =>
    simp only [step] at h
    split at h
    · next ht =>
      cases h
      exact .notifiedAll ht
    · cases h

def executor (r : PoolRun τ) : Executor τ where
  accepted := r.accepted
  queued := r.pool.tasks
  started := r.started
  active := r.pool.workers.filterMap Worker.task
  finished := r.finished

theorem active_kept {a b : Worker τ} {ws ws' : List (Worker τ)} (h : Moves a b ws ws')
    (ha : a.task = none) (hb : b.task = none) :
    (ws'.filterMap Worker.task : Multiset τ) = ws.filterMap Worker.task := by
  obtain ⟨rest, hws, hws'⟩ := h
  apply Multiset.coe_eq_coe.2
  have hold := hws.filterMap Worker.task
  have hnew := hws'.filterMap Worker.task
  rw [List.filterMap_cons_none ha] at hold
  rw [List.filterMap_cons_none hb] at hnew
  exact hnew.trans hold.symm

theorem active_begun {a b : Worker τ} {ws ws' : List (Worker τ)} {task : τ} (h : Moves a b ws ws')
    (ha : a.task = none) (hb : b.task = some task) :
    (ws'.filterMap Worker.task : Multiset τ) =
      task ::ₘ (ws.filterMap Worker.task : Multiset τ) := by
  obtain ⟨rest, hws, hws'⟩ := h
  rw [Multiset.cons_coe]
  apply Multiset.coe_eq_coe.2
  have hold := hws.filterMap Worker.task
  have hnew := hws'.filterMap Worker.task
  rw [List.filterMap_cons_none ha] at hold
  rw [List.filterMap_cons_some hb] at hnew
  exact hnew.trans (hold.symm.cons task)

theorem filterMap_notified (ws : List (Worker τ)) :
    (ws.map Worker.notified).filterMap Worker.task = ws.filterMap Worker.task := by
  rw [List.filterMap_map]
  congr 1
  funext x
  cases x with
  | _ => rfl

/-- Each step of the pool is a step of the executor, or changes nothing that its users see. -/
theorem Took.refines (h : r.Took i r') :
    Executor.Step r.executor r'.executor ∨ r'.executor = r.executor := by
  cases h with
  | enqueued hstop => exact .inl (.accept r.executor _)
  | notified hn hm =>
    right
    simp only [executor, withWorkers, active_kept hm rfl rfl]
  | unheard hn hno => exact .inr rfl
  | slept hstop ht hm =>
    right
    simp only [executor, withWorkers, active_kept hm rfl rfl]
  | returned hstop ht hm =>
    right
    simp only [executor, withWorkers, active_kept hm rfl rfl]
  | started ht hm =>
    left
    have hstep := Executor.Step.start (w := r.executor) ht
    simp only [executor, active_begun hm rfl rfl] at hstep ⊢
    exact hstep
  | @finished w ws task hm =>
    left
    have hstep := Executor.Step.finish (w := r.executor) (active_begun hm.symm rfl rfl)
    have hlog : ((r.finished ++ [task] : List τ) : Multiset τ) =
        task ::ₘ (r.finished : Multiset τ) :=
      Multiset.coe_eq_coe.2 (List.perm_append_singleton task r.finished)
    simp only [executor, withWorkers, hlog] at hstep ⊢
    exact hstep
  | woken hm =>
    right
    simp only [executor, withWorkers, active_kept hm rfl rfl]
  | stopped ht => exact .inr rfl
  | notifiedAll ht =>
    right
    simp only [executor, withWorkers, filterMap_notified]

def awakeCount (r : PoolRun τ) : Nat := (r.pool.workers.map fun w => w.awake.toNat).sum

/-- While a worker sleeps there are, for all queued tasks, enough workers awake or notifications
to come; and no worker sleeps once the destructor has notified all. -/
structure Sound (r : PoolRun τ) : Prop where
  asleep : ∀ w ∈ r.pool.workers, w.isWaiting = true → r.teardown ≠ .joining ∧
    r.pool.tasks.length ≤ r.awakeCount + r.notifiers
  stop_iff : r.pool.stop = true ↔ r.teardown ≠ .notBegun
  returned : .returned ∈ r.pool.workers → r.pool.stop = true ∧ r.pool.tasks = []

theorem start_sound (threads : Nat) : (start threads : PoolRun τ).Sound := by
  have hall (w : Worker τ) (hw : w ∈ (start threads : PoolRun τ).pool.workers) : w = .looping :=
    List.eq_of_mem_replicate hw
  refine ⟨?_, by simp [start, ThreadPool.create], ?_⟩
  · intro w hw hwait
    rw [hall w hw] at hwait
    cases hwait
  · intro hmem
    cases hall _ hmem

theorem isWaiting_cases {x : Worker τ} (h : x.isWaiting = true) : x = .waiting := by
  cases x with
  | waiting => rfl
  | _ => cases h

theorem Sound.of_moves {a b : Worker τ} {ws : List (Worker τ)} (h : r.Sound)
    (hm : Moves a b r.pool.workers ws) (hb : b ≠ .returned)
    (hpool : r'.pool.workers = ws) (hstop : r'.pool.stop = r.pool.stop)
    (hteardown : r'.teardown = r.teardown) (htasks : r.pool.tasks = [] → r'.pool.tasks = [])
    (hasleep : ∀ w ∈ ws, w.isWaiting = true → r.teardown ≠ .joining ∧
      r'.pool.tasks.length ≤ r'.awakeCount + r'.notifiers) : r'.Sound := by
  refine ⟨?_, ?_, ?_⟩
  · intro w hw hwait
    rw [hpool] at hw
    rw [hteardown]
    exact hasleep w hw hwait
  · rw [hstop, hteardown]
    exact h.stop_iff
  · intro hmem
    rw [hpool] at hmem
    rcases hm.mem_cases hmem with he | hold
    · exact absurd he.symm hb
    · obtain ⟨hs, ht⟩ := h.returned hold
      exact ⟨hstop.trans hs, htasks ht⟩

theorem Took.sound (h : r.Took i r') (hr : r.Sound) : r'.Sound := by
  cases h with
  | enqueued hstop =>
    refine ⟨fun w hw hwait => ?_, hr.stop_iff, fun hmem => ?_⟩
    · obtain ⟨hne, hle⟩ := hr.asleep w hw hwait
      refine ⟨hne, ?_⟩
      change (r.pool.tasks ++ [_]).length ≤ r.awakeCount + (r.notifiers + 1)
      rw [List.length_append, List.length_singleton]
      omega
    · rw [(hr.returned hmem).1] at hstop
      cases hstop
  | @notified w ws hn hm =>
    refine hr.of_moves hm (by simp) rfl rfl rfl id fun x hx hwait => ?_
    obtain ⟨hne, hle⟩ := hr.asleep _ hm.mem_old rfl
    refine ⟨hne, ?_⟩
    have hsum := hm.sum_map fun w => w.awake.toNat
    change r.pool.tasks.length ≤ (ws.map fun w => w.awake.toNat).sum + (r.notifiers - 1)
    change _ + 0 = r.awakeCount + 1 at hsum
    omega
  | unheard hn hno =>
    refine ⟨fun w hw hwait => ?_, hr.stop_iff, hr.returned⟩
    rw [hno w hw] at hwait
    cases hwait
  | @slept w ws hstop ht hm =>
    refine hr.of_moves hm (by simp) rfl rfl rfl id fun x hx hwait => ?_
    constructor
    · intro he
      have hs := hr.stop_iff.2 (by rw [he]; decide)
      rw [hs] at hstop
      cases hstop
    · change r.pool.tasks.length ≤ _
      rw [ht]
      exact Nat.zero_le _
  | @returned w ws hstop ht hm =>
    refine ⟨fun x hx hwait => ?_, hr.stop_iff, fun _ => ⟨hstop, ht⟩⟩
    have hold := hm.mem_asleep rfl hx hwait
    refine ⟨(hr.asleep x hold hwait).1, ?_⟩
    change r.pool.tasks.length ≤ _
    rw [ht]
    exact Nat.zero_le _
  | @started w ws task tasks ht hm =>
    refine hr.of_moves hm (by simp) rfl rfl rfl ?_ fun x hx hwait => ?_
    · intro he
      rw [he] at ht
      cases ht
    · have hold := hm.mem_asleep rfl hx hwait
      obtain ⟨hne, hle⟩ := hr.asleep x hold hwait
      refine ⟨hne, ?_⟩
      have hsum := hm.sum_map fun w => w.awake.toNat
      change tasks.length ≤ (ws.map fun w => w.awake.toNat).sum + r.notifiers
      change _ + 1 = r.awakeCount + 1 at hsum
      rw [ht, List.length_cons] at hle
      omega
  | @finished w ws task hm =>
    refine hr.of_moves hm (by simp) rfl rfl rfl id fun x hx hwait => ?_
    have hold := hm.mem_asleep rfl hx hwait
    obtain ⟨hne, hle⟩ := hr.asleep x hold hwait
    refine ⟨hne, ?_⟩
    have hsum := hm.sum_map fun w => w.awake.toNat
    change r.pool.tasks.length ≤ (ws.map fun w => w.awake.toNat).sum + r.notifiers
    change _ + 1 = r.awakeCount + 1 at hsum
    omega
  | @woken w ws hm =>
    refine hr.of_moves hm (by simp) rfl rfl rfl id fun x hx hwait => ?_
    obtain ⟨hne, hle⟩ := hr.asleep _ hm.mem_old rfl
    refine ⟨hne, ?_⟩
    have hsum := hm.sum_map fun w => w.awake.toNat
    change r.pool.tasks.length ≤ (ws.map fun w => w.awake.toNat).sum + r.notifiers
    change _ + 0 = r.awakeCount + 1 at hsum
    omega
  | stopped ht =>
    refine ⟨fun w hw hwait => ⟨by simp, (hr.asleep w hw hwait).2⟩, by simp, fun hmem => ?_⟩
    exact ⟨rfl, (hr.returned hmem).2⟩
  | notifiedAll ht =>
    have hstop := hr.stop_iff.2 (by rw [ht]; decide)
    refine ⟨fun w hw hwait => ?_, ?_, fun hmem => ?_⟩
    · obtain ⟨x, -, rfl⟩ := List.mem_map.1 hw
      cases x with
      | _ => cases hwait
    · simp [withWorkers, hstop]
    · obtain ⟨x, hx, he⟩ := List.mem_map.1 hmem
      cases x with
      | returned => exact hr.returned hx
      | _ => cases he

end PoolRun

end Gortsp
