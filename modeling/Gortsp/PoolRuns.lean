import Gortsp.PoolSteps
import Gortsp.TcpServer
import Gortsp.Termination

namespace Gortsp
set_option autoImplicit true

namespace PoolRun

variable {r r' : PoolRun τ} {i : PoolInput τ} {w : Nat}

/-- The steps that the pool and its callers make without new tasks and without a wake-up that
nobody asked for. -/
def Own : PoolInput τ → Prop
  | .notifyOne _ | .work _ | .finish _ | .notifyAll => True
  | .enqueue _ | .wake _ | .stop => False

theorem Sound.idle (h : r.Sound) (hn : r.notifiers = 0)
    (hidle : ∀ w ∈ r.pool.workers, w = .waiting ∨ w = .returned) (hlen : r.pool.workers ≠ []) :
    r.pool.tasks = [] := by
  obtain ⟨w, hw⟩ := List.exists_mem_of_ne_nil _ hlen
  rcases hidle w hw with rfl | rfl
  · have hzero : r.awakeCount = 0 := by
      apply List.sum_eq_zero
      intro n hmem
      obtain ⟨x, hx, rfl⟩ := List.mem_map.1 hmem
      rcases hidle x hx with rfl | rfl
      · rfl
      · rfl
    have hle := (h.asleep _ hw rfl).2
    rw [hzero, hn] at hle
    exact List.length_eq_zero_iff.1 (Nat.le_zero.1 hle)
  · exact (h.returned hw).2

theorem awake_steps (h : x ∈ r.pool.workers) :
    x = .waiting ∨ x = .returned ∨ ∃ i r', Own i ∧ r.step i = .ok r' := by
  obtain ⟨w, hw⟩ := List.mem_iff_getElem?.1 h
  cases x with
  | waiting => exact .inl rfl
  | returned => exact .inr (.inl rfl)
  | looping =>
    obtain ⟨r', hr⟩ : ∃ r', r.step (.work w) = .ok r' := by
      simp only [step, hw]
      exact ⟨_, rfl⟩
    exact .inr (.inr ⟨.work w, r', trivial, hr⟩)
  | running task =>
    obtain ⟨r', hr⟩ : ∃ r', r.step (.finish w) = .ok r' := by
      simp only [step, hw]
      exact ⟨_, rfl⟩
    exact .inr (.inr ⟨.finish w, r', trivial, hr⟩)

theorem notifier_steps (h : r.notifiers ≠ 0) : ∃ w r', r.step (.notifyOne w) = .ok r' := by
  cases hany : r.pool.workers.any Worker.isWaiting with
  | false =>
    refine ⟨none, ?_⟩
    simp only [step, if_neg h, hany, Bool.false_eq_true, if_false]
    exact ⟨_, rfl⟩
  | true =>
    obtain ⟨x, hx, hwait⟩ := List.any_eq_true.1 hany
    obtain ⟨w, hw⟩ := List.mem_iff_getElem?.1 hx
    rw [isWaiting_cases hwait] at hw
    refine ⟨some w, ?_⟩
    simp only [step, if_neg h, hw]
    exact ⟨_, rfl⟩

theorem stuck_idle (h : Machine.Stuck step Own r) :
    r.notifiers = 0 ∧ r.teardown ≠ .stopping ∧
      ∀ w ∈ r.pool.workers, w = .waiting ∨ w = .returned := by
  refine ⟨?_, ?_, ?_⟩
  · by_contra hn
    obtain ⟨w, r', hr⟩ := notifier_steps hn
    exact h (.notifyOne w) trivial r' hr
  · intro ht
    exact h .notifyAll trivial _ (if_pos ht)
  · intro w hw
    rcases awake_steps hw with he | he | ⟨i, r', hi, hr⟩
    · exact .inl he
    · exact .inr he
    · exact absurd hr (h i hi r')

theorem executor_idle (hidle : ∀ w ∈ r.pool.workers, w = .waiting ∨ w = .returned) :
    r.executor.active = 0 := by
  have hnil : r.pool.workers.filterMap Worker.task = [] := by
    apply List.filterMap_eq_nil_iff.2
    intro w hw
    rcases hidle w hw with rfl | rfl
    · rfl
    · rfl
  rw [executor, hnil]
  rfl

def drainWeight : Worker τ → Nat
  | .looping => 1
  | .running _ => 2
  | .waiting | .returned => 0

def drainMeasure (r : PoolRun τ) : Nat :=
  (r.pool.workers.map drainWeight).sum + 2 * r.pool.tasks.length + 2 * r.notifiers +
    r.teardown.steps * (r.pool.workers.length + 1)

theorem sum_notified_le (f : Worker τ → Nat) (ws : List (Worker τ))
    (hf : ∀ w : Worker τ, f w.notified ≤ f w + 1) :
    ((ws.map Worker.notified).map f).sum ≤ (ws.map f).sum + ws.length := by
  induction ws with
  | nil => exact Nat.le_refl 0
  | cons w ws ih =>
    have hw := hf w
    simp only [List.map_cons, List.sum_cons, List.length_cons]
    omega

theorem Took.drainMeasure_lt (h : r.Took i r') (hi : Own i) :
    r'.drainMeasure < r.drainMeasure := by
  cases h with
  | enqueued hstop => exact hi.elim
  | woken hm => exact hi.elim
  | stopped ht => exact hi.elim
  | notified hn hm =>
    have hsum := hm.sum_map drainWeight
    have hlen := hm.length_eq
    simp only [drainMeasure, withWorkers, hlen]
    simp only [drainWeight] at hsum
    omega
  | unheard hn hno =>
    simp only [drainMeasure]
    omega
  | slept hstop ht hm =>
    have hsum := hm.sum_map drainWeight
    have hlen := hm.length_eq
    simp only [drainMeasure, withWorkers, hlen]
    simp only [drainWeight] at hsum
    omega
  | returned hstop ht hm =>
    have hsum := hm.sum_map drainWeight
    have hlen := hm.length_eq
    simp only [drainMeasure, withWorkers, hlen]
    simp only [drainWeight] at hsum
    omega
  | started ht hm =>
    have hsum := hm.sum_map drainWeight
    have hlen := hm.length_eq
    simp only [drainMeasure, hlen, ht, List.length_cons]
    simp only [drainWeight] at hsum
    omega
  | finished hm =>
    have hsum := hm.sum_map drainWeight
    have hlen := hm.length_eq
    simp only [drainMeasure, withWorkers, hlen]
    simp only [drainWeight] at hsum
    omega
  | notifiedAll ht =>
    have hle := sum_notified_le drainWeight r.pool.workers fun w => by
      cases w with
      | _ => simp [Worker.notified, drainWeight]
    simp only [drainMeasure, withWorkers, ht, Teardown.steps]
    omega

theorem sum_notified_mono (f : Worker τ → Nat) (ws : List (Worker τ))
    (hf : ∀ w : Worker τ, f w.notified ≤ f w) :
    ((ws.map Worker.notified).map f).sum ≤ (ws.map f).sum := by
  induction ws with
  | nil => exact Nat.le_refl 0
  | cons w ws ih =>
    have hw := hf w
    simp only [List.map_cons, List.sum_cons]
    omega

def joinWeight : Worker τ → Nat
  | .looping => 1
  | .running _ | .waiting => 2
  | .returned => 0

def joinMeasure (r : PoolRun τ) : Nat :=
  (r.pool.workers.map joinWeight).sum + 2 * r.pool.tasks.length + r.notifiers + r.teardown.steps

theorem Took.joinMeasure_lt (h : r.Took i r') (hr : r.Sound) (hstop : r.pool.stop = true) :
    r'.joinMeasure < r.joinMeasure := by
  have hbegun := hr.stop_iff.1 hstop
  cases h with
  | enqueued hno =>
    rw [hstop] at hno
    cases hno
  | slept hno ht hm =>
    rw [hstop] at hno
    cases hno
  | stopped ht => exact absurd ht hbegun
  | notified hn hm =>
    have hsum := hm.sum_map joinWeight
    simp only [joinMeasure, withWorkers]
    simp only [joinWeight] at hsum
    omega
  | unheard hn hno =>
    simp only [joinMeasure]
    omega
  | woken hm =>
    have hsum := hm.sum_map joinWeight
    simp only [joinMeasure, withWorkers]
    simp only [joinWeight] at hsum
    omega
  | returned hs ht hm =>
    have hsum := hm.sum_map joinWeight
    simp only [joinMeasure, withWorkers]
    simp only [joinWeight] at hsum
    omega
  | started ht hm =>
    have hsum := hm.sum_map joinWeight
    simp only [joinMeasure, ht, List.length_cons]
    simp only [joinWeight] at hsum
    omega
  | finished hm =>
    have hsum := hm.sum_map joinWeight
    simp only [joinMeasure, withWorkers]
    simp only [joinWeight] at hsum
    omega
  | notifiedAll ht =>
    have hle := sum_notified_mono joinWeight r.pool.workers fun w => by
      cases w with
      | _ => simp [Worker.notified, joinWeight]
    simp only [joinMeasure, withWorkers, ht, Teardown.steps]
    omega

theorem Took.length_eq (h : r.Took i r') : r'.pool.workers.length = r.pool.workers.length := by
  cases h with
  | enqueued hstop => rfl
  | unheard hn hno => rfl
  | stopped ht => rfl
  | notified hn hm => exact hm.length_eq
  | slept hstop ht hm => exact hm.length_eq
  | returned hstop ht hm => exact hm.length_eq
  | started ht hm => exact hm.length_eq
  | finished hm => exact hm.length_eq
  | woken hm => exact hm.length_eq
  | notifiedAll ht => exact List.length_map _

theorem Took.accepted_eq (h : r.Took i r') (hi : Own i ∨ r.pool.stop = true) :
    r'.accepted = r.accepted := by
  cases h with
  | enqueued hstop =>
    rcases hi with hi | hi
    · exact hi.elim
    · rw [hi] at hstop
      cases hstop
  | _ => rfl

theorem Took.stop_kept (h : r.Took i r') (hstop : r.pool.stop = true) :
    r'.pool.stop = true := by
  cases h with
  | stopped ht => rfl
  | _ => exact hstop

/-- What holds of the pool in every run: it has come along steps of an executor. -/
structure Running (threads : Nat) (r : PoolRun τ) : Prop where
  sound : r.Sound
  refines : Relation.ReflTransGen Executor.Step .create r.executor
  length_eq : r.pool.workers.length = threads

theorem start_executor (threads : Nat) : (start threads : PoolRun τ).executor = .create := by
  have hidle : (start threads : PoolRun τ).pool.workers.filterMap Worker.task = [] := by
    apply List.filterMap_eq_nil_iff.2
    intro w hw
    rw [List.eq_of_mem_replicate hw]
    rfl
  rw [executor, hidle]
  rfl

theorem start_running (threads : Nat) : (start threads : PoolRun τ).Running threads := by
  refine ⟨start_sound threads, ?_, List.length_replicate⟩
  rw [start_executor]

theorem Running.step (h : r.Running threads) (hstep : r.step i = .ok r') :
    r'.Running threads := by
  have htook := took_of_step hstep
  refine ⟨htook.sound h.sound, ?_, htook.length_eq.trans h.length_eq⟩
  rcases htook.refines with hs | he
  · exact h.refines.tail hs
  · rw [he]
    exact h.refines

theorem Running.lawful (h : r.Running threads) : r.executor.Lawful :=
  Executor.lawful_create.run h.refines

theorem running_of_run (h : Machine.run PoolRun.step (start threads) is = .ok r) :
    r.Running threads :=
  Machine.run_invariant (fun _ _ _ hI hs => Running.step hI hs) (start_running threads) h

theorem Running.drained (h : r.Running threads) (hpos : 0 < threads)
    (hno : Machine.Stuck PoolRun.step Own r) : r.Drained := by
  obtain ⟨hn, -, hidle⟩ := stuck_idle hno
  have hne : r.pool.workers ≠ [] := by
    intro he
    have hlen := h.length_eq
    rw [he] at hlen
    exact absurd hlen (Nat.ne_of_lt hpos)
  have htasks := h.sound.idle hn hidle hne
  exact ⟨htasks, Multiset.coe_eq_coe.1 (h.lawful.drained htasks (executor_idle hidle))⟩

theorem Running.joined (h : r.Running threads) (hstop : r.pool.stop = true)
    (hno : Machine.Stuck PoolRun.step Own r) : r.Joined := by
  obtain ⟨-, hne, hidle⟩ := stuck_idle hno
  have hbegun := h.sound.stop_iff.1 hstop
  have hjoining : r.teardown = .joining := by
    cases ht : r.teardown with
    | notBegun => exact absurd ht hbegun
    | stopping => exact absurd ht hne
    | joining => rfl
  refine ⟨hjoining, fun w hw => ?_⟩
  rcases hidle w hw with rfl | he
  · exact absurd hjoining (h.sound.asleep _ hw rfl).1
  · exact he

/-- However callers, workers and the destructor interleave, tasks are taken from the queue in the
order in which they were enqueued, and each is in the queue, with a worker or finished, once. -/
theorem runs_in_order {threads : Nat} {is : List (PoolInput τ)}
    (h : Machine.run PoolRun.step (start threads) is = .ok r) :
    r.accepted = r.started ++ r.pool.tasks ∧
      r.started.Perm (r.pool.workers.filterMap Worker.task ++ r.finished) := by
  have hlawful := (running_of_run h).lawful
  exact ⟨hlawful.inOrder, Multiset.coe_eq_coe.1 hlawful.once⟩

theorem runs_in_order_two : ∃ r : PoolRun Nat,
    Machine.run PoolRun.step (start 2)
      [.enqueue 7, .work 1, .enqueue 8, .work 0, .finish 0] = .ok r ∧
    r.accepted = r.started ++ r.pool.tasks ∧
      r.started.Perm (r.pool.workers.filterMap Worker.task ++ r.finished) := by
  obtain ⟨r, hr⟩ : ∃ r : PoolRun Nat, Machine.run PoolRun.step (start 2)
      [.enqueue 7, .work 1, .enqueue 8, .work 0, .finish 0] = .ok r := ⟨_, rfl⟩
  exact ⟨r, hr, runs_in_order hr⟩

/-- No wake-up is lost: from every state that a pool with a worker reaches, the workers and the
callers that are still to notify come to an end, and then every task enqueued so far has been
run once. -/
theorem drains {threads : Nat} {is : List (PoolInput τ)} (hpos : 0 < threads)
    (h : Machine.run PoolRun.step (start threads) is = .ok r) :
    Machine.Terminates PoolRun.step Own
      (fun t => t.pool.tasks = [] ∧ t.finished.Perm r.accepted) r := by
  apply Machine.Terminates.of_measure drainMeasure
    (I := fun t => t.Running threads ∧ t.accepted = r.accepted)
  · intro s i t hi hI hs
    exact ⟨hI.1.step hs, ((took_of_step hs).accepted_eq (.inl hi)).trans hI.2⟩
  · intro s i t hi _ hs
    exact (took_of_step hs).drainMeasure_lt hi
  · intro s hI hno
    obtain ⟨htasks, hperm⟩ := hI.1.drained hpos hno
    rw [hI.2] at hperm
    exact ⟨htasks, hperm⟩
  · exact ⟨running_of_run h, rfl⟩

theorem drains_asleep : ∃ r : PoolRun Nat,
    Machine.run PoolRun.step (start 2) [.work 0, .work 1, .enqueue 7, .enqueue 8] = .ok r ∧
    Machine.Terminates PoolRun.step Own
      (fun t => t.pool.tasks = [] ∧ t.finished.Perm r.accepted) r := by
  obtain ⟨r, hr⟩ : ∃ r : PoolRun Nat, Machine.run PoolRun.step (start 2)
      [.work 0, .work 1, .enqueue 7, .enqueue 8] = .ok r := ⟨_, rfl⟩
  exact ⟨r, hr, drains (by decide) hr⟩

theorem Running.joins_all {r : PoolRun τ} (h : r.Running threads) (hstop : r.pool.stop = true) :
    Machine.Terminates PoolRun.step (fun _ => True)
      (fun t => t.Joined ∧ (0 < threads → t.finished.Perm r.accepted)) r := by
  apply Machine.Terminates.of_measure joinMeasure
    (I := fun t => t.Running threads ∧ t.pool.stop = true ∧ t.accepted = r.accepted)
  · intro s i t _ hI hs
    obtain ⟨hrun, hs', hacc⟩ := hI
    have htook := took_of_step hs
    exact ⟨hrun.step hs, htook.stop_kept hs', (htook.accepted_eq (.inr hs')).trans hacc⟩
  · intro s i t _ hI hs
    exact (took_of_step hs).joinMeasure_lt hI.1.sound hI.2.1
  · intro s hI hno
    obtain ⟨hrun, hs, hacc⟩ := hI
    have hown : Machine.Stuck PoolRun.step Own s := fun i _ t => hno i trivial t
    refine ⟨hrun.joined hs hown, fun hpos => ?_⟩
    rw [← hacc]
    exact (hrun.drained hpos hown).2
  · exact ⟨h, hstop, rfl⟩

/-- The destructor ends: once it has set `stop`, whatever steps are made, all workers return, and
if there are any, every task that was ever enqueued has been run once. -/
theorem joins {threads : Nat} {is : List (PoolInput τ)}
    (h : Machine.run PoolRun.step (start threads) is = .ok r) (hstop : r.pool.stop = true) :
    Machine.Terminates PoolRun.step (fun _ => True)
      (fun t => t.Joined ∧ (0 < threads → t.finished.Perm r.accepted)) r :=
  (running_of_run h).joins_all hstop

theorem joins_busy : ∃ r : PoolRun Nat,
    Machine.run PoolRun.step (start 2)
      [.work 0, .enqueue 7, .work 1, .enqueue 8, .stop] = .ok r ∧
    Machine.Terminates PoolRun.step (fun _ => True)
      (fun t => t.Joined ∧ (0 < 2 → t.finished.Perm r.accepted)) r := by
  obtain ⟨r, hr, hstop⟩ : ∃ r : PoolRun Nat, Machine.run PoolRun.step (start 2)
      [.work 0, .enqueue 7, .work 1, .enqueue 8, .stop] = .ok r ∧ r.pool.stop = true :=
    ⟨_, rfl, rfl⟩
  exact ⟨r, hr, joins hr hstop⟩

structure Serial (r : PoolRun τ) : Prop where
  single : r.pool.workers.length = 1
  inTurn : r.started = r.finished ++ r.pool.workers.filterMap Worker.task

theorem Took.serial (h : r.Took i r') (hlen : r.pool.workers.length = 1)
    (hr : r.started = r.finished ++ r.pool.workers.filterMap Worker.task) :
    r'.started = r'.finished ++ r'.pool.workers.filterMap Worker.task := by
  cases h with
  | enqueued hstop => exact hr
  | unheard hn hno => exact hr
  | stopped ht => exact hr
  | notifiedAll ht =>
    simp only [withWorkers, filterMap_notified]
    exact hr
  | notified hn hm =>
    obtain ⟨hold, rfl⟩ := hm.singleton hlen
    rw [hold] at hr
    exact hr
  | slept hstop ht hm =>
    obtain ⟨hold, rfl⟩ := hm.singleton hlen
    rw [hold] at hr
    exact hr
  | returned hstop ht hm =>
    obtain ⟨hold, rfl⟩ := hm.singleton hlen
    rw [hold] at hr
    exact hr
  | woken hm =>
    obtain ⟨hold, rfl⟩ := hm.singleton hlen
    rw [hold] at hr
    exact hr
  | @started w ws task tasks ht hm =>
    obtain ⟨hold, rfl⟩ := hm.singleton hlen
    rw [hold] at hr
    change r.started ++ [task] = r.finished ++ [task]
    rw [hr]
    exact congrArg (· ++ [task]) (List.append_nil r.finished)
  | @finished w ws task hm =>
    obtain ⟨hold, rfl⟩ := hm.singleton hlen
    rw [hold] at hr
    change r.started = r.finished ++ [task] ++ []
    rw [List.append_nil]
    exact hr

theorem Serial.step (h : r.Serial) (hs : r.step i = .ok r') : r'.Serial :=
  ⟨(took_of_step hs).length_eq.trans h.single, (took_of_step hs).serial h.single h.inTurn⟩

/-- A pool of one worker runs the tasks one after another, in the order of their enqueueing. -/
theorem serial_of_one {is : List (PoolInput τ)}
    (h : Machine.run PoolRun.step (start 1) is = .ok r) :
    r.accepted = r.finished ++ r.pool.workers.filterMap Worker.task ++ r.pool.tasks := by
  have hserial : r.Serial :=
    Machine.run_invariant (fun _ _ _ hI hs => hI.step hs) ⟨rfl, rfl⟩ h
  have hacc : r.accepted = r.started ++ r.pool.tasks := (running_of_run h).lawful.inOrder
  rw [hacc, hserial.inTurn]

theorem serial_of_one_busy : ∃ r : PoolRun Nat,
    Machine.run PoolRun.step (start 1)
      [.enqueue 7, .enqueue 8, .work 0, .enqueue 9, .finish 0, .work 0] = .ok r ∧
    r.accepted = r.finished ++ r.pool.workers.filterMap Worker.task ++ r.pool.tasks := by
  obtain ⟨r, hr⟩ : ∃ r : PoolRun Nat, Machine.run PoolRun.step (start 1)
      [.enqueue 7, .enqueue 8, .work 0, .enqueue 9, .finish 0, .work 0] = .ok r := ⟨_, rfl⟩
  exact ⟨r, hr, serial_of_one hr⟩

end PoolRun

/-- The scheduler of a server always has a worker, so that its pool, when it is destroyed, can be
joined, and every task was run by then. -/
theorem TcpServer.pool_joins (limit : UInt16) {is : List (PoolInput τ)} {r : PoolRun τ}
    (h : Machine.run PoolRun.step (.start (createWith limit).taskScheduler.maxThreads) is = .ok r)
    (hstop : r.pool.stop = true) :
    ∃ js t, Machine.run PoolRun.step r js = .ok t ∧ t.Joined ∧ t.finished.Perm r.accepted := by
  have hends := (PoolRun.running_of_run h).joins_all hstop
  obtain ⟨js, t, -, hr, hjoined, hperm⟩ := hends.exists_run
  exact ⟨js, t, hr, hjoined, hperm (Nat.succ_pos limit.toNat)⟩

end Gortsp
