import Gortsp.Machine

namespace Gortsp
set_option autoImplicit true

/-- Where a worker is: about to take the lock, asleep in `condition.wait`, with a task that it has
taken, or past its `return`. -/
inductive Worker (τ : Type) where
  | looping
  | waiting
  | running (task : τ)
  | returned

namespace Worker

def task : Worker τ → Option τ
  | .running task => some task
  | _ => none

def isWaiting : Worker τ → Bool
  | .waiting => true
  | _ => false

def awake : Worker τ → Bool
  | .looping | .running _ => true
  | .waiting | .returned => false

def notified : Worker τ → Worker τ
  | .waiting => .looping
  | w => w

end Worker

structure ThreadPool (τ : Type) where
  workers : List (Worker τ)
  tasks : List τ
  stop : Bool

inductive PoolError where
  | enqueueOnStopped
  | blocked
  deriving DecidableEq

namespace ThreadPool

def create (threads : Nat) : ThreadPool τ := ⟨List.replicate threads .looping, [], false⟩

/-- What a worker does under the lock, up to `task()`, to the `return`, or to sleep in
`condition.wait`. -/
def loop (p : ThreadPool τ) : Worker τ × ThreadPool τ :=
  if p.stop ∨ p.tasks ≠ [] then
    match p.tasks with
    | [] => (.returned, p)
    | task :: tasks => (.running task, { p with tasks })
  else (.waiting, p)

def enqueue (p : ThreadPool τ) (task : τ) : Except PoolError (ThreadPool τ) :=
  if p.stop then .error .enqueueOnStopped
  else .ok { p with tasks := p.tasks ++ [task] }

end ThreadPool

inductive Teardown where
  | notBegun
  | stopping
  | joining
  deriving DecidableEq

def Teardown.steps : Teardown → Nat
  | .stopping => 1
  | .notBegun | .joining => 0

/-- What runs under `queue_mutex` is one step. `notifyOne` names the worker that the notification
wakes, if any waits; `wake` is a wake-up without a notification; `finish` ends a call of `task()`,
and every one ends. -/
inductive PoolInput (τ : Type) where
  | enqueue (task : τ)
  | notifyOne (w : Option Nat)
  | work (w : Nat)
  | finish (w : Nat)
  | wake (w : Nat)
  | stop
  | notifyAll

/-- A pool in the middle of a run. `notifiers` counts the calls of `enqueue` that have left the
lock and not yet notified; the lists hold the tasks in the order of their enqueueing, start and
end. A task counts as started when a worker takes it from the queue: `task()` is called once the
lock is released. -/
structure PoolRun (τ : Type) where
  pool : ThreadPool τ
  notifiers : Nat
  teardown : Teardown
  accepted : List τ
  started : List τ
  finished : List τ

namespace PoolRun

def start (threads : Nat) : PoolRun τ := ⟨.create threads, 0, .notBegun, [], [], []⟩

def setWorker (r : PoolRun τ) (w : Nat) (worker : Worker τ) : PoolRun τ :=
  { r with pool := { r.pool with workers := r.pool.workers.set w worker } }

def step (r : PoolRun τ) : PoolInput τ → Except PoolError (PoolRun τ)
  | .enqueue task => do
    let pool ← r.pool.enqueue task
    return { r with
      pool
      notifiers := r.notifiers + 1
      accepted := r.accepted ++ [task] }
  | .notifyOne w =>
    if r.notifiers = 0 then .error .blocked
    else
      let r' := { r with notifiers := r.notifiers - 1 }
      match w with
      | none => if r.pool.workers.any Worker.isWaiting then .error .blocked else .ok r'
      | some w =>
        match r.pool.workers[w]? with
        | some .waiting => .ok (r'.setWorker w .looping)
        | _ => .error .blocked
  | .work w =>
    match r.pool.workers[w]? with
    | some .looping =>
      let (worker, pool) := r.pool.loop
      .ok (setWorker { r with pool, started := r.started ++ worker.task.toList } w worker)
    | _ => .error .blocked
  | .finish w =>
    match r.pool.workers[w]? with
    | some (.running task) =>
      .ok (setWorker { r with finished := r.finished ++ [task] } w .looping)
    | _ => .error .blocked
  | .wake w =>
    match r.pool.workers[w]? with
    | some .waiting => .ok (r.setWorker w .looping)
    | _ => .error .blocked
  | .stop =>
    if r.teardown = .notBegun then
      .ok { r with pool := { r.pool with stop := true }, teardown := .stopping }
    else .error .blocked
  | .notifyAll =>
    if r.teardown = .stopping then
      .ok { r with
        pool := { r.pool with workers := r.pool.workers.map Worker.notified }
        teardown := .joining }
    else .error .blocked

def Joined (r : PoolRun τ) : Prop :=
  r.teardown = .joining ∧ ∀ w ∈ r.pool.workers, w = .returned

def Drained (r : PoolRun τ) : Prop := r.pool.tasks = [] ∧ r.finished.Perm r.accepted

end PoolRun

end Gortsp
