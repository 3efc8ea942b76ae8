import Gortsp.Termination

namespace Gortsp
set_option autoImplicit true

/-- Where the thread of a worker is: not started, about to take `mutex_`, in `wait_for`, in the
callback with `mutex_` held, or past its `return`. -/
inductive FlushThread where
  | notStarted
  | looping
  | waiting
  | calling
  | returned
  deriving DecidableEq

structure PeriodicWorker where
  active : Bool
  workerThread : FlushThread
  deriving DecidableEq

/-- What runs under `mutex_` without waiting is one step. -/
inductive ThreadStep where
  | lock
  | wake
  | timeout
  | finish

namespace PeriodicWorker

def create (interval : Nat) : PeriodicWorker :=
  if interval > 0 then ⟨true, .looping⟩ else ⟨false, .notStarted⟩

/-- With `mutex_` the thread looks at `active_` before it waits, and after it has waited for the
whole interval. A wake-up, with or without a notification, brings it back to the lock. -/
def advance (w : PeriodicWorker) : ThreadStep → Option PeriodicWorker
  | .lock =>
    if w.workerThread = .looping then
      some { w with workerThread := if w.active then .waiting else .returned }
    else none
  | .wake => if w.workerThread = .waiting then some { w with workerThread := .looping } else none
  | .timeout =>
    if w.workerThread = .waiting then
      some { w with workerThread := if w.active then .calling else .returned }
    else none
  | .finish => if w.workerThread = .calling then some { w with workerThread := .looping } else none

def stop (w : PeriodicWorker) : Option PeriodicWorker :=
  if w.workerThread = .calling then none else some { w with active := false }

def notified (w : PeriodicWorker) : PeriodicWorker :=
  if w.workerThread = .waiting then { w with workerThread := .looping } else w

def alive (w : PeriodicWorker) : Bool :=
  w.workerThread ≠ .notStarted ∧ w.workerThread ≠ .returned

end PeriodicWorker

inductive DestroyStage where
  | stopping
  | notifying
  | joining
  deriving DecidableEq

/-- The workers made so far, the one that the registry has, and the one that a call of
`flush_every` is destroying, which holds `flusher_mutex_` so long. -/
structure Flusher where
  workers : List PeriodicWorker
  periodicFlusher : Option Nat
  destroying : Option (Nat × DestroyStage)

inductive FlusherInput where
  | flushEvery (interval : Nat)
  | stop (i : Nat)
  | notifyOne (i : Nat)
  | join (i : Nat)
  | thread (i : Nat) (s : ThreadStep)

inductive Blocked where
  | blocked
  deriving DecidableEq

namespace Flusher

def start : Flusher := ⟨[], none, none⟩

def update (r : Flusher) (i : Nat) (f : PeriodicWorker → Option PeriodicWorker) :
    Except Blocked Flusher :=
  match r.workers[i]?.bind f with
  | some w => .ok { r with workers := r.workers.set i w }
  | none => .error .blocked

/-- The new worker is made before the old one is destroyed; one without a thread is not joined. -/
def flushEvery (r : Flusher) (interval : Nat) : Flusher where
  workers := r.workers ++ [.create interval]
  periodicFlusher := some r.workers.length
  destroying := do
    let old ← r.periodicFlusher
    let w ← r.workers[old]?
    if w.workerThread = .notStarted then none else some (old, .stopping)

def step (r : Flusher) : FlusherInput → Except Blocked Flusher
  | .flushEvery interval =>
    if r.destroying = none then .ok (r.flushEvery interval) else .error .blocked
  | .stop i =>
    if r.destroying = some (i, .stopping) then do
      let r ← r.update i PeriodicWorker.stop
      return { r with destroying := some (i, .notifying) }
    else .error .blocked
  | .notifyOne i =>
    if r.destroying = some (i, .notifying) then do
      let r ← r.update i fun w => some w.notified
      return { r with destroying := some (i, .joining) }
    else .error .blocked
  | .join i =>
    if r.destroying = some (i, .joining) ∧
        r.workers[i]?.map PeriodicWorker.workerThread = some .returned then
      .ok { r with destroying := none }
    else .error .blocked
  | .thread i s => r.update i (·.advance s)

end Flusher

end Gortsp
