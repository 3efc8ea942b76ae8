import Gortsp.PeriodicWorker

namespace Gortsp
set_option autoImplicit true

namespace PeriodicWorker

variable {w w' : PeriodicWorker}

theorem checked_cases (w : PeriodicWorker) {next : FlushThread} (hnext : next ≠ .notStarted) :
    (if w.active then next else .returned) ≠ .notStarted ∧
      (w.active = false → (if w.active then next else .returned) ≠ .calling) := by
  cases w.active with
  | true => exact ⟨hnext, fun hoff => Bool.noConfusion hoff⟩
  | false => exact ⟨FlushThread.noConfusion, fun _ => FlushThread.noConfusion⟩

theorem advance_cases (h : w.advance s = some w') :
    w'.active = w.active ∧ w.alive = true ∧ w'.workerThread ≠ .notStarted ∧
      (w.active = false → w'.workerThread ≠ .calling) := by
  cases s with
  | lock =>
    rw [advance] at h
    split at h
    · next hat =>
      have hnext : FlushThread.waiting ≠ .notStarted := FlushThread.noConfusion
      have hchecked := w.checked_cases hnext
      cases h
      exact ⟨rfl, by simp [alive, hat], hchecked⟩
    · cases h
  | wake =>
    rw [advance] at h
    split at h
    · next hat =>
      cases h
      exact ⟨rfl, by simp [alive, hat], FlushThread.noConfusion, fun _ => FlushThread.noConfusion⟩
    · cases h
  | timeout =>
    rw [advance] at h
    split at h
    · next hat =>
      have hnext : FlushThread.calling ≠ .notStarted := FlushThread.noConfusion
      have hchecked := w.checked_cases hnext
      cases h
      exact ⟨rfl, by simp [alive, hat], hchecked⟩
    · cases h
  | finish =>
    rw [advance] at h
    split at h
    · next hat =>
      cases h
      exact ⟨rfl, by simp [alive, hat], FlushThread.noConfusion, fun _ => FlushThread.noConfusion⟩
    · cases h

theorem stop_cases (h : w.stop = some w') :
    w'.active = false ∧ w'.workerThread = w.workerThread ∧ w.workerThread ≠ .calling := by
  rw [stop] at h
  split at h
  · cases h
  · next hcalling =>
    cases h
    exact ⟨rfl, rfl, hcalling⟩

theorem notified_cases (w : PeriodicWorker) :
    w.notified.active = w.active ∧ w.notified.alive = w.alive ∧
      (w.notified.workerThread = .calling ↔ w.workerThread = .calling) ∧
      (w.notified.workerThread = .notStarted ↔ w.workerThread = .notStarted) := by
  obtain ⟨active, thread⟩ := w
  cases thread with
  | waiting =>
    exact ⟨rfl, rfl, ⟨FlushThread.noConfusion, FlushThread.noConfusion⟩,
      ⟨FlushThread.noConfusion, FlushThread.noConfusion⟩⟩
  | _ => exact ⟨rfl, rfl, Iff.rfl, Iff.rfl⟩

def left (w : PeriodicWorker) : Nat :=
  match w.workerThread with
  | .waiting => 2
  | .looping => 1
  | _ => 0

theorem advance_left (h : w.advance s = some w') (hoff : w.active = false)
    (hcalling : w.workerThread ≠ .calling) : w'.left < w.left := by
  obtain ⟨active, thread⟩ := w
  cases hoff
  cases thread with
  | notStarted => cases s <;> cases h
  | looping =>
    cases s with
    | lock =>
      cases h
      exact Nat.zero_lt_one
    | _ => cases h
  | waiting =>
    cases s with
    | wake =>
      cases h
      exact Nat.lt_succ_self 1
    | timeout =>
      cases h
      exact Nat.zero_lt_two
    | _ => cases h
  | calling => exact absurd rfl hcalling
  | returned => cases s <;> cases h

theorem notified_left (w : PeriodicWorker) : w.notified.left ≤ w.left := by
  obtain ⟨active, thread⟩ := w
  cases thread with
  | waiting => exact Nat.le_succ 1
  | _ => exact Nat.le_refl _

end PeriodicWorker

namespace Flusher

variable {r r' : Flusher}

theorem update_cases {f : PeriodicWorker → Option PeriodicWorker} (h : r.update i f = .ok r') :
    ∃ w w', r.workers[i]? = some w ∧ f w = some w' ∧
      r' = { r with workers := r.workers.set i w' } := by
  rw [update] at h
  split at h
  · next w' hw =>
    cases h
    obtain ⟨w, hi, hf⟩ := Option.bind_eq_some_iff.1 hw
    exact ⟨w, w', hi, hf, rfl⟩
  · cases h

theorem getElem?_set_cases {xs : List α} {a b : α} (hi : xs[i]? = some a)
    (hj : (xs.set i b)[j]? = some c) : j = i ∧ c = b ∨ j ≠ i ∧ xs[j]? = some c := by
  by_cases he : i = j
  · subst he
    obtain ⟨hlt, -⟩ := List.getElem?_eq_some_iff.1 hi
    rw [List.getElem?_set_self hlt] at hj
    cases hj
    exact .inl ⟨rfl, rfl⟩
  · rw [List.getElem?_set_ne he] at hj
    exact .inr ⟨fun h => he h.symm, hj⟩

/-- The registry has the last worker that was made. Any other is being destroyed or its thread has
ended; and no thread is in the callback once it was told to stop. -/
structure Sound (r : Flusher) : Prop where
  current : ∀ i, r.periodicFlusher = some i → i + 1 = r.workers.length
  none_made : r.periodicFlusher = none → r.workers = []
  stopped : ∀ (i : Nat) (w : PeriodicWorker), r.workers[i]? = some w → w.active = false →
    w.workerThread ≠ .calling
  ended : ∀ (i : Nat) (w : PeriodicWorker), r.workers[i]? = some w → w.alive = true →
    r.periodicFlusher = some i ∨ ∃ stage, r.destroying = some (i, stage)
  destroyed : ∀ (i : Nat) (stage : DestroyStage), r.destroying = some (i, stage) →
    i + 1 < r.workers.length ∧
      ∃ w : PeriodicWorker, r.workers[i]? = some w ∧ w.workerThread ≠ .notStarted ∧
        (stage ≠ .stopping → w.active = false)

theorem Sound.set (h : r.Sound) {w w' : PeriodicWorker} (hw : r.workers[i]? = some w)
    (halive : w'.alive = true → w.alive = true) (hnot : w'.workerThread ≠ .notStarted)
    (hstopped : w'.active = false → w'.workerThread ≠ .calling)
    (hactive : w.active = false → w'.active = false) :
    Sound { r with workers := r.workers.set i w' } where
  current j hj := by
    rw [List.length_set]
    exact h.current j hj
  none_made hnone := by
    rw [h.none_made hnone]
    rfl
  stopped j v hv hoff := by
    rcases getElem?_set_cases hw hv with ⟨-, rfl⟩ | ⟨-, hold⟩
    · exact hstopped hoff
    · exact h.stopped j v hold hoff
  ended j v hv hv' := by
    rcases getElem?_set_cases hw hv with ⟨rfl, rfl⟩ | ⟨-, hold⟩
    · exact h.ended _ w hw (halive hv')
    · exact h.ended j v hold hv'
  destroyed j stage hj := by
    obtain ⟨hlt, v, hv, hstarted, hoff⟩ := h.destroyed j stage hj
    rw [List.length_set]
    refine ⟨hlt, ?_⟩
    by_cases he : j = i
    · subst he
      cases hw.symm.trans hv
      exact ⟨w', List.getElem?_set_self (by omega), hnot, fun hstage => hactive (hoff hstage)⟩
    · exact ⟨v, (List.getElem?_set_ne (fun h => he h.symm)).trans hv, hstarted, hoff⟩

theorem Sound.restage (h : r.Sound) (hat : r.destroying = some (i, stage))
    (hw : r.workers[i]? = some w) (hoff : w.active = false) (stage' : DestroyStage) :
    Sound { r with destroying := some (i, stage') } where
  current := h.current
  none_made := h.none_made
  stopped := h.stopped
  ended j v hv halive := by
    rcases h.ended j v hv halive with hcurrent | ⟨s, hs⟩
    · exact .inl hcurrent
    · cases hat.symm.trans hs
      exact .inr ⟨stage', rfl⟩
  destroyed j s hj := by
    cases hj
    obtain ⟨hlt, v, hv, hstarted, -⟩ := h.destroyed i stage hat
    cases hw.symm.trans hv
    exact ⟨hlt, w, hw, hstarted, fun _ => hoff⟩

inductive Took (r : Flusher) : FlusherInput → Flusher → Prop where
  | replaced (hfree : r.destroying = none) : Took r (.flushEvery interval) (r.flushEvery interval)
  | stopped (hat : r.destroying = some (i, .stopping)) (hw : r.workers[i]? = some w)
      (hstop : w.stop = some w') :
      Took r (.stop i) ⟨r.workers.set i w', r.periodicFlusher, some (i, .notifying)⟩
  | notified (hat : r.destroying = some (i, .notifying)) (hw : r.workers[i]? = some w) :
      Took r (.notifyOne i) ⟨r.workers.set i w.notified, r.periodicFlusher, some (i, .joining)⟩
  | joined (hat : r.destroying = some (i, .joining)) (hw : r.workers[i]? = some w)
      (hreturned : w.workerThread = .returned) :
      Took r (.join i) ⟨r.workers, r.periodicFlusher, none⟩
  | advanced (hw : r.workers[i]? = some w) (hadvance : w.advance s = some w') :
      Took r (.thread i s) ⟨r.workers.set i w', r.periodicFlusher, r.destroying⟩

theorem took_of_step (h : r.step i = .ok r') : r.Took i r' := by
  cases i with
  | flushEvery interval =>
    rw [step] at h
    split at h
    · next hfree =>
      cases h
      exact .replaced hfree
    · cases h
  | stop i =>
    rw [step] at h
    split at h
    · next hat =>
      cases hu : r.update i PeriodicWorker.stop with
      | error e =>
        rw [hu] at h
        cases h
      | ok u =>
        rw [hu] at h
        cases h
        obtain ⟨w, w', hw, hstop, rfl⟩ := update_cases hu
        exact .stopped hat hw hstop
    · cases h
  | notifyOne i =>
    rw [step] at h
    split at h
    · next hat =>
      cases hu : r.update i fun w => some w.notified with
      | error e =>
        rw [hu] at h
        cases h
      | ok u =>
        rw [hu] at h
        cases h
        obtain ⟨w, w', hw, hnotified, rfl⟩ := update_cases hu
        cases hnotified
        exact .notified hat hw
    · cases h
  | join i =>
    rw [step] at h
    split at h
    · next hat =>
      cases h
      obtain ⟨w, hw, hreturned⟩ := Option.map_eq_some_iff.1 hat.2
      exact .joined hat.1 hw hreturned
    · cases h
  | thread i s =>
    obtain ⟨w, w', hw, hadvance, rfl⟩ := update_cases h
    exact .advanced hw hadvance

theorem destroying_cases (h : (r.flushEvery interval).destroying = some (i, stage)) :
    r.periodicFlusher = some i ∧ stage = .stopping ∧
      ∃ w, r.workers[i]? = some w ∧ w.workerThread ≠ .notStarted := by
  obtain ⟨old, hold, hrest⟩ := Option.bind_eq_some_iff.1 h
  obtain ⟨w, hw, hstarted⟩ := Option.bind_eq_some_iff.1 hrest
  split at hstarted
  · cases hstarted
  · next hne =>
    cases hstarted
    exact ⟨hold, rfl, w, hw, hne⟩

theorem create_cases (interval : Nat) : (PeriodicWorker.create interval).workerThread ≠ .calling ∧
    (PeriodicWorker.create interval).workerThread ≠ .returned := by
  rw [PeriodicWorker.create]
  split
  · exact ⟨FlushThread.noConfusion, FlushThread.noConfusion⟩
  · exact ⟨FlushThread.noConfusion, FlushThread.noConfusion⟩

theorem getElem?_concat_cases {xs : List α} {a b : α} (h : (xs ++ [a])[j]? = some b) :
    xs[j]? = some b ∨ j = xs.length ∧ b = a := by
  by_cases hj : j < xs.length
  · rw [List.getElem?_append_left hj] at h
    exact .inl h
  · rw [List.getElem?_append_right (by omega)] at h
    obtain ⟨hlt, hb⟩ := List.getElem?_eq_some_iff.1 h
    rw [List.length_singleton] at hlt
    refine .inr ⟨by omega, ?_⟩
    rw [← hb]
    exact List.getElem_singleton _

theorem flushEvery_length (r : Flusher) (interval : Nat) :
    (r.flushEvery interval).workers.length = r.workers.length + 1 :=
  List.length_append

theorem Sound.flushEvery (h : r.Sound) (hfree : r.destroying = none) (interval : Nat) :
    (r.flushEvery interval).Sound where
  current i hi := by
    cases hi
    exact (flushEvery_length r interval).symm
  none_made hnone := by cases hnone
  stopped j w hw hoff := by
    rcases getElem?_concat_cases hw with hold | ⟨-, rfl⟩
    · exact h.stopped j w hold hoff
    · exact (create_cases interval).1
  ended j w hw halive := by
    rcases getElem?_concat_cases hw with hold | ⟨rfl, -⟩
    · right
      rcases h.ended j w hold halive with hcurrent | ⟨stage, hstage⟩
      · have hstarted : w.workerThread ≠ .notStarted := (of_decide_eq_true halive).1
        refine ⟨.stopping, ?_⟩
        simp only [Flusher.flushEvery, hcurrent, hold, bind, Option.bind, if_neg hstarted]
      · rw [hfree] at hstage
        cases hstage
    · exact .inl rfl
  destroyed j stage hj := by
    obtain ⟨hcurrent, rfl, w, hw, hstarted⟩ := destroying_cases hj
    have hlast := h.current j hcurrent
    have hlen := flushEvery_length r interval
    refine ⟨by omega, w, ?_, hstarted, fun hno => absurd rfl hno⟩
    exact (List.getElem?_append_left (by omega)).trans hw

theorem Sound.step (h : r.Sound) (hstep : r.step i = .ok r') : r'.Sound := by
  cases took_of_step hstep with
  | replaced hfree => exact h.flushEvery hfree _
  | @stopped i w w' hat hw hstop =>
    obtain ⟨hoff, hsame, hcalling⟩ := PeriodicWorker.stop_cases hstop
    obtain ⟨hlt, v, hv, hstarted, -⟩ := h.destroyed i _ hat
    cases hw.symm.trans hv
    have hset : Sound { r with workers := r.workers.set i w' } := by
      apply h.set hw
      · rw [PeriodicWorker.alive, PeriodicWorker.alive, hsame]
        exact id
      · rw [hsame]
        exact hstarted
      · intro _
        rw [hsame]
        exact hcalling
      · exact fun _ => hoff
    exact hset.restage hat (List.getElem?_set_self (by omega)) hoff .notifying
  | @notified i w hat hw =>
    obtain ⟨hlt, v, hv, hstarted, hoff⟩ := h.destroyed i _ hat
    cases hw.symm.trans hv
    obtain ⟨hactive, halive, hcalling, hnot⟩ := w.notified_cases
    have hset : Sound { r with workers := r.workers.set i w.notified } := by
      apply h.set hw
      · rw [halive]
        exact id
      · exact mt hnot.1 hstarted
      · intro hoff'
        rw [hactive] at hoff'
        exact mt hcalling.1 (h.stopped i w hw hoff')
      · rw [hactive]
        exact id
    apply hset.restage hat (List.getElem?_set_self (by omega))
    rw [hactive]
    exact hoff DestroyStage.noConfusion
  | @joined i w hat hw hreturned =>
    refine ⟨h.current, h.none_made, h.stopped, ?_, ?_⟩
    · intro j v hv halive
      rcases h.ended j v hv halive with hcurrent | ⟨stage, hstage⟩
      · exact .inl hcurrent
      · cases hat.symm.trans hstage
        cases hw.symm.trans hv
        exact absurd hreturned (of_decide_eq_true halive).2
    · intro j stage hj
      cases hj
  | @advanced i w s w' hw hadvance =>
    obtain ⟨hactive, halive, hstarted, hcalling⟩ := PeriodicWorker.advance_cases hadvance
    apply h.set hw (fun _ => halive) hstarted
    · rw [hactive]
      exact hcalling
    · rw [hactive]
      exact id

theorem sound_of_run (h : Machine.run Flusher.step start is = .ok r) : r.Sound := by
  apply Machine.run_invariant (fun _ _ _ hI hs => Sound.step hI hs) _ h
  refine ⟨?_, fun _ => rfl, ?_, ?_, ?_⟩
  · intro i hi
    cases hi
  · intro i w hw
    cases hw
  · intro i w hw
    cases hw
  · intro i stage hi
    cases hi

/-- However often `initLogger` is called, and whatever the threads do, no flushing thread is left
but that of the last call and the one that is being destroyed. -/
theorem one_flusher (h : Machine.run Flusher.step start is = .ok r)
    (hw : r.workers[i]? = some w) (halive : w.alive = true) :
    i + 1 = r.workers.length ∨ ∃ stage, r.destroying = some (i, stage) := by
  have hsound := sound_of_run h
  rcases hsound.ended i w hw halive with hcurrent | hdestroying
  · exact .inl (hsound.current i hcurrent)
  · exact .inr hdestroying

theorem one_flusher_second : ∃ r w,
    Machine.run Flusher.step start [.flushEvery 5, .thread 0 .lock, .flushEvery 5, .stop 0,
      .notifyOne 0, .thread 1 .lock, .thread 0 .lock, .join 0] = .ok r ∧
    r.workers[1]? = some w ∧ w.alive = true ∧
    (1 + 1 = r.workers.length ∨ ∃ stage, r.destroying = some (1, stage)) := by
  obtain ⟨r, w, hr, hw, halive⟩ : ∃ r w,
      Machine.run Flusher.step start [.flushEvery 5, .thread 0 .lock, .flushEvery 5, .stop 0,
        .notifyOne 0, .thread 1 .lock, .thread 0 .lock, .join 0] = .ok r ∧
      r.workers[1]? = some w ∧ w.alive = true := ⟨_, _, rfl, rfl, rfl⟩
  exact ⟨r, w, hr, hw, halive, one_flusher hr hw halive⟩

def About (i : Nat) : FlusherInput → Bool
  | .flushEvery _ => false
  | .stop j | .notifyOne j | .join j | .thread j _ => i = j

def Destroyed (i : Nat) (r : Flusher) : Prop :=
  r.workers[i]?.map PeriodicWorker.workerThread = some .returned ∧
    ∀ stage, r.destroying ≠ some (i, stage)

/-- The destructor of a worker has cleared `active_`, or is done. -/
structure Ending (i : Nat) (r : Flusher) : Prop where
  sound : r.Sound
  replaced : i + 1 < r.workers.length
  ending : (∃ stage, r.destroying = some (i, stage) ∧ stage ≠ .stopping) ∨ r.Destroyed i

theorem Destroyed.of_eq (h : r.Destroyed i) (hw : r'.workers[i]? = r.workers[i]?)
    (hno : ∀ stage, r'.destroying ≠ some (i, stage)) : r'.Destroyed i := by
  refine ⟨?_, hno⟩
  rw [hw]
  exact h.1

theorem Destroyed.not_alive (h : r.Destroyed i) (hw : r.workers[i]? = some w) :
    ¬w.alive = true := by
  intro halive
  have hreturned := h.1
  rw [hw] at hreturned
  exact (of_decide_eq_true halive).2 (Option.some.inj hreturned)

theorem Took.ending {input : FlusherInput} (h : r.Took input r') (hr : r.Ending i)
    (hsound : r'.Sound) : r'.Ending i := by
  obtain ⟨hr, hlt, hending⟩ := hr
  cases h with
  | @replaced interval hfree =>
    rcases hending with ⟨stage, hstage, -⟩ | hdone
    · rw [hfree] at hstage
      cases hstage
    · have hlen := flushEvery_length r interval
      refine ⟨hsound, by omega, .inr (hdone.of_eq (List.getElem?_append_left (by omega)) ?_)⟩
      intro stage hstage
      have hlast := (hsound.destroyed i stage hstage).1
      obtain ⟨hcurrent, -⟩ := destroying_cases hstage
      have hold := hr.current i hcurrent
      omega
  | @stopped j w w' hat hw hstop =>
    rcases hending with ⟨stage, hstage, hne⟩ | hdone
    · cases hat.symm.trans hstage
      exact absurd rfl hne
    · have hji : j ≠ i := by
        rintro rfl
        exact hdone.2 _ hat
      refine ⟨hsound, by rw [List.length_set]; exact hlt, .inr (hdone.of_eq ?_ ?_)⟩
      · exact List.getElem?_set_ne hji
      · intro stage hstage
        cases hstage
        exact hji rfl
  | @notified j w hat hw =>
    refine ⟨hsound, by rw [List.length_set]; exact hlt, ?_⟩
    rcases hending with ⟨stage, hstage, -⟩ | hdone
    · cases hat.symm.trans hstage
      exact .inl ⟨.joining, rfl, DestroyStage.noConfusion⟩
    · have hji : j ≠ i := by
        rintro rfl
        exact hdone.2 _ hat
      refine .inr (hdone.of_eq (List.getElem?_set_ne hji) ?_)
      intro stage hstage
      cases hstage
      exact hji rfl
  | @joined j w hat hw hreturned =>
    refine ⟨hsound, hlt, .inr ?_⟩
    have hno (stage : DestroyStage) : (none : Option (Nat × DestroyStage)) ≠ some (i, stage) :=
      fun hstage => by cases hstage
    rcases hending with ⟨stage, hstage, -⟩ | hdone
    · cases hat.symm.trans hstage
      exact ⟨Option.map_eq_some_iff.2 ⟨w, hw, hreturned⟩, hno⟩
    · exact hdone.of_eq rfl hno
  | @advanced j w s w' hw hadvance =>
    refine ⟨hsound, by rw [List.length_set]; exact hlt, ?_⟩
    rcases hending with hstage | hdone
    · exact .inl hstage
    · have hji : j ≠ i := by
        rintro rfl
        exact hdone.not_alive hw (PeriodicWorker.advance_cases hadvance).2.1
      exact .inr (hdone.of_eq (List.getElem?_set_ne hji) hdone.2)

def stageLeft (i : Nat) : Option (Nat × DestroyStage) → Nat
  | some (j, .notifying) => if j = i then 2 else 0
  | some (j, .joining) => if j = i then 1 else 0
  | _ => 0

def endMeasure (i : Nat) (r : Flusher) : Nat :=
  stageLeft i r.destroying + (r.workers[i]?.map PeriodicWorker.left).getD 0

theorem stageLeft_other (h : j ≠ i) (stage : DestroyStage) : stageLeft i (some (j, stage)) = 0 := by
  cases stage with
  | stopping => rfl
  | notifying => exact if_neg h
  | joining => exact if_neg h

theorem endMeasure_eq (hw : r.workers[i]? = some w) :
    r.endMeasure i = stageLeft i r.destroying + w.left := by
  rw [endMeasure, hw]
  rfl

theorem endMeasure_set (hw : r.workers[i]? = some w) (w' : PeriodicWorker)
    (current : Option Nat) (d : Option (Nat × DestroyStage)) :
    endMeasure i ⟨r.workers.set i w', current, d⟩ = stageLeft i d + w'.left := by
  obtain ⟨hlt, -⟩ := List.getElem?_eq_some_iff.1 hw
  exact endMeasure_eq (List.getElem?_set_self hlt)

theorem Took.endMeasure_lt {input : FlusherInput} (h : r.Took input r') (hr : r.Ending i)
    (habout : About i input = true) : r'.endMeasure i < r.endMeasure i := by
  obtain ⟨hsound, -, hending⟩ := hr
  cases h with
  | replaced hfree => cases habout
  | @stopped j w w' hat hw hstop =>
    cases of_decide_eq_true habout
    rcases hending with ⟨stage, hstage, hne⟩ | hdone
    · cases hat.symm.trans hstage
      exact absurd rfl hne
    · exact absurd hat (hdone.2 _)
  | @notified j w hat hw =>
    cases of_decide_eq_true habout
    have hleft := w.notified_left
    rw [endMeasure_set hw, endMeasure_eq hw, hat]
    simp only [stageLeft, if_true]
    omega
  | @joined j w hat hw hreturned =>
    cases of_decide_eq_true habout
    rw [endMeasure, endMeasure_eq hw, hat]
    dsimp only
    rw [hw]
    simp only [stageLeft, if_true, Option.map_some, Option.getD_some]
    omega
  | @advanced j w s w' hw hadvance =>
    cases of_decide_eq_true habout
    rcases hending with ⟨stage, hstage, hne⟩ | hdone
    · obtain ⟨-, v, hv, -, hoff⟩ := hsound.destroyed i stage hstage
      cases hw.symm.trans hv
      have hcalling := hsound.stopped i w hw (hoff hne)
      have hless := PeriodicWorker.advance_left hadvance (hoff hne) hcalling
      rw [endMeasure_set hw, endMeasure_eq hw]
      omega
    · exact absurd (PeriodicWorker.advance_cases hadvance).2.1 (hdone.not_alive hw)

theorem Took.endMeasure_le {input : FlusherInput} (h : r.Took input r') (hr : r.Ending i)
    (habout : About i input = false) : r'.endMeasure i ≤ r.endMeasure i := by
  obtain ⟨-, hlt, -⟩ := hr
  cases h with
  | @replaced interval hfree =>
    have hkept : (r.flushEvery interval).workers[i]? = r.workers[i]? :=
      List.getElem?_append_left (by omega)
    have hnone : stageLeft i (r.flushEvery interval).destroying = 0 := by
      cases hd : (r.flushEvery interval).destroying with
      | none => rfl
      | some d =>
        obtain ⟨j, stage⟩ := d
        obtain ⟨-, rfl, -⟩ := destroying_cases hd
        rfl
    rw [endMeasure, endMeasure, hkept, hnone]
    omega
  | @stopped j w w' hat hw hstop =>
    have hij : j ≠ i := fun he => of_decide_eq_false habout he.symm
    rw [endMeasure, endMeasure, stageLeft_other hij]
    dsimp only
    rw [List.getElem?_set_ne hij]
    omega
  | @notified j w hat hw =>
    have hij : j ≠ i := fun he => of_decide_eq_false habout he.symm
    rw [endMeasure, endMeasure, stageLeft_other hij]
    dsimp only
    rw [List.getElem?_set_ne hij]
    omega
  | @joined j w hat hw hreturned =>
    rw [endMeasure, endMeasure]
    exact Nat.add_le_add_right (Nat.zero_le _) _
  | @advanced j w s w' hw hadvance =>
    have hij : j ≠ i := fun he => of_decide_eq_false habout he.symm
    rw [endMeasure, endMeasure]
    dsimp only
    rw [List.getElem?_set_ne hij]

/-- A destructor that waits for its thread is never left alone: one of the two can go on. -/
theorem Ending.destroyed (h : r.Ending i)
    (hno : Machine.Stuck Flusher.step (About i · = true) r) : r.Destroyed i := by
  rcases h.ending with ⟨stage, hstage, hne⟩ | hdone
  · exfalso
    obtain ⟨-, w, hw, hstarted, hoff⟩ := h.sound.destroyed i stage hstage
    have habout : decide (i = i) = true := decide_eq_true rfl
    have hthread (s : ThreadStep) (w' : PeriodicWorker) : w.advance s ≠ some w' := by
      intro hadvance
      apply hno (.thread i s) habout { r with workers := r.workers.set i w' }
      rw [Flusher.step, update, hw, Option.bind_some, hadvance]
    cases stage with
    | stopping => exact hne rfl
    | notifying =>
      apply hno (.notifyOne i) habout
        ⟨r.workers.set i w.notified, r.periodicFlusher, some (i, .joining)⟩
      rw [Flusher.step, if_pos hstage, update, hw]
      rfl
    | joining =>
      obtain ⟨active, thread⟩ := w
      cases thread with
      | notStarted => exact hstarted rfl
      | looping => exact hthread .lock _ rfl
      | waiting => exact hthread .wake _ rfl
      | calling => exact h.sound.stopped i _ hw (hoff DestroyStage.noConfusion) rfl
      | returned =>
        apply hno (.join i) habout { r with destroying := none }
        rw [Flusher.step, hw]
        exact if_pos ⟨hstage, rfl⟩
  · exact hdone

/-- Once a call of `flush_every` has told the old worker to stop, the thread of that worker and the
call come to the end of both, whatever the other threads do in between. -/
theorem destroys (h : Machine.run Flusher.step start is = .ok r)
    (hstage : r.destroying = some (i, .notifying)) :
    Machine.TerminatesAmid Flusher.step (About i) (Destroyed i) r := by
  have hsound := sound_of_run h
  apply Machine.TerminatesAmid.of_measure (endMeasure i) (I := Ending i)
  · intro s input t hI hs
    exact (took_of_step hs).ending hI (hI.sound.step hs)
  · intro s input t habout hI hs
    exact (took_of_step hs).endMeasure_lt hI habout
  · intro s input t habout hI hs
    exact (took_of_step hs).endMeasure_le hI habout
  · intro s hI hno
    exact hI.destroyed hno
  · exact ⟨hsound, (hsound.destroyed i _ hstage).1, .inl ⟨_, hstage, DestroyStage.noConfusion⟩⟩

theorem destroys_called : ∃ r,
    Machine.run Flusher.step start [.flushEvery 5, .thread 0 .lock, .thread 0 .timeout,
      .flushEvery 5, .thread 0 .finish, .stop 0] = .ok r ∧
    r.destroying = some (0, .notifying) ∧
    Machine.TerminatesAmid Flusher.step (About 0) (Destroyed 0) r := by
  obtain ⟨r, hr, hstage⟩ : ∃ r,
      Machine.run Flusher.step start [.flushEvery 5, .thread 0 .lock, .thread 0 .timeout,
        .flushEvery 5, .thread 0 .finish, .stop 0] = .ok r ∧
      r.destroying = some (0, .notifying) := ⟨_, rfl, rfl⟩
  exact ⟨r, hr, hstage, destroys hr hstage⟩

end Flusher

end Gortsp
