import Gortsp.Logger
import Gortsp.Machine

namespace Gortsp
set_option autoImplicit true

inductive CallPoint where
  | start
  | missing
  | furnished
  | built (l : Logger)
  | enrolled
  | returned (r : Option Logger)
  | threw (e : SpdlogEx)

def CallPoint.ofResult : Except SpdlogEx (Option Logger) → CallPoint
  | .ok r => .returned r
  | .error e => .threw e

/-- One atomic step of a call: a lookup, or a part of `addLogger` up to its lock or under it. -/
def LogProcess.advance (p : LogProcess) (name : StdString) :
    CallPoint → Except Fault (CallPoint × LogProcess)
  | .start =>
    if p.koo.mIsInit = false then .ok (.returned none, p)
    else
      match p.get name with
      | some l => .ok (.returned (some l), p)
      | none => .ok (.missing, p)
  | .missing => do
    let _ ← Fault.deref p.koo.mLogger
    if p.koo.mIsInit = false then .ok (.enrolled, p) else .ok (.furnished, p.furnish)
  | .furnished => .ok (.built (p.makeLogger name).1, (p.makeLogger name).2)
  | .built l =>
    match p.enroll l with
    | (.ok (), p) => .ok (.enrolled, p)
    | (.error e, p) => .ok (.threw e, p)
  | .enrolled => .ok (.returned (p.get name), p)
  | .returned r => .ok (.returned r, p)
  | .threw e => .ok (.threw e, p)

/-- Any number of threads that call `getLogger` with the same name. -/
structure LogThreads (ι : Type) where
  process : LogProcess
  point : ι → CallPoint

def LogProcess.Ready (p : LogProcess) : Prop :=
  p.koo.mIsInit = true ∧ p.koo.mLogger.isSome

theorem LogProcess.initLogger_ready {p p' : LogProcess}
    (h : p.initLogger level path isConsoleLog isSimpleLog opens = (.ok (), p')) : p'.Ready := by
  simp only [initLogger] at h
  split at h
  · cases h
  · cases h
    exact ⟨rfl, rfl⟩

namespace LogThreads

variable {ι : Type} [DecidableEq ι]

def begin (p : LogProcess) : LogThreads ι := ⟨p, fun _ => .start⟩

def step (name : StdString) (s : LogThreads ι) (t : ι) : Except Fault (LogThreads ι) :=
  (s.process.advance name (s.point t)).map fun (c, p) => ⟨p, Function.update s.point t c⟩

/-- So far no call threw, and the calls that returned have the logger that the registry holds
and that was added to the list, where `list` was before. -/
structure OneLogger (name : StdString) (list : List Logger) (s : LogThreads ι) : Prop where
  calm : ∀ t e, s.point t ≠ .threw e
  shared : ∀ t r, s.point t = .returned r → ∃ l, r = some l ∧
    s.process.registry name = some l ∧ s.process.koo.mLoggerList = list ++ [l]

/-- A thread that finds no logger looks before any thread has left its start. -/
def LooksAlone (name : StdString) (s : LogThreads ι) (t : ι) : Prop :=
  s.point t = .start → s.process.get name = none → ∀ u, s.point u = .start

def Done (s : LogThreads ι) : Prop :=
  ∀ t, (∃ r, s.point t = .returned r) ∨ ∃ e, s.point t = .threw e

end LogThreads

def CallPoint.Pending (name : StdString) : CallPoint → Prop
  | .missing | .furnished => True
  | .built l => l.name = name
  | .start | .enrolled | .returned _ | .threw _ => False

def CallPoint.toGo : CallPoint → Nat
  | .missing => 3
  | .furnished => 2
  | .built _ => 1
  | .start | .enrolled | .returned _ | .threw _ => 0

namespace LogProcess

variable {p p' : LogProcess} {name : StdString} {c c' : CallPoint}

theorem Ready.furnish (h : p.Ready) : p.furnish.Ready := by
  rw [LogProcess.furnish]
  split
  · exact h
  · exact h

theorem Ready.initialised (h : p.Ready) : ¬p.koo.mIsInit = false := by
  rw [h.1]
  exact Bool.true_eq_false_eq_False

theorem advance_unknown (h : p.Ready) (hnone : p.get name = none) :
    p.advance name .start = .ok (.missing, p) := by
  simp only [advance, if_neg h.initialised, hnone]

theorem advance_known (h : p.Ready) (hsome : p.get name = some l) :
    p.advance name .start = .ok (.returned (some l), p) := by
  simp only [advance, if_neg h.initialised, hsome]

theorem advance_pending (h : p.Ready) (hc : c.Pending name) :
    ∃ c' p', p.advance name c = .ok (c', p') ∧ p'.Ready ∧
      ((c'.Pending name ∧ p'.registry = p.registry ∧
          p'.koo.mLoggerList = p.koo.mLoggerList) ∨
        (∃ l, p.get name = none ∧ c' = .enrolled ∧ p'.get name = some l ∧
          p'.koo.mLoggerList = p.koo.mLoggerList ++ [l]) ∨
        ∃ e, (p.get name).isSome ∧ c' = .threw e ∧ p'.registry = p.registry) := by
  cases c with
  | missing =>
    obtain ⟨l, hl⟩ := Option.isSome_iff_exists.1 h.2
    have hrun : p.advance name .missing = .ok (.furnished, p.furnish) := by
      simp only [advance, hl, Fault.deref, bind, Except.bind, if_neg h.initialised]
    exact ⟨_, _, hrun, h.furnish, .inl ⟨trivial, furnish_registry p, furnish_mLoggerList p⟩⟩
  | furnished => exact ⟨_, _, rfl, h, .inl ⟨rfl, rfl, rfl⟩⟩
  | built l =>
    have hname : l.name = name := hc
    cases hreg : p.registry l.name with
    | none =>
      have hrun : p.advance name (.built l) = .ok (.enrolled, { p with
          registry := Function.update p.registry l.name (some l)
          koo := { p.koo with mLoggerList := p.koo.mLoggerList ++ [l] } }) := by
        simp only [advance, enroll_new hreg]
      refine ⟨_, _, hrun, h, .inr (.inl ⟨l, hname ▸ hreg, rfl, ?_, rfl⟩)⟩
      rw [get, ← hname]
      exact Function.update_self _ _ _
    | some other =>
      have hsome : (p.registry l.name).isSome := Option.isSome_of_eq_some hreg
      have hrun : p.advance name (.built l) = .ok (.threw (.alreadyExists l.name),
          { p with koo := { p.koo with mLoggerList := p.koo.mLoggerList ++ [l] } }) := by
        simp only [advance, enroll_exists hsome]
      exact ⟨_, _, hrun, h, .inr (.inr ⟨_, hname ▸ hsome, rfl, rfl⟩)⟩
  | start => exact hc.elim
  | enrolled => exact hc.elim
  | returned r => exact hc.elim
  | threw e => exact hc.elim

theorem advance_toGo (h : p.Ready) (hnone : p.get name = none) (hc : c.Pending name) :
    ∃ c' p', p.advance name c = .ok (c', p') ∧ p'.Ready ∧ c'.toGo + 1 = c.toGo ∧
      (c'.Pending name ∧ p'.get name = none ∨ c'.toGo = 0 ∧ (p'.get name).isSome) := by
  obtain ⟨c', p', hrun, hready, hcases⟩ := advance_pending h hc
  have htoGo : c'.toGo + 1 = c.toGo := by
    cases c with
    | missing =>
      obtain ⟨l, hl⟩ := Option.isSome_iff_exists.1 h.2
      simp only [advance, hl, Fault.deref, bind, Except.bind, if_neg h.initialised] at hrun
      cases hrun
      rfl
    | furnished =>
      cases hrun
      rfl
    | built l =>
      simp only [advance] at hrun
      split at hrun
      · cases hrun
        rfl
      · cases hrun
        rfl
    | _ => exact hc.elim
  refine ⟨c', p', hrun, hready, htoGo, ?_⟩
  rcases hcases with ⟨hc', hreg, -⟩ | ⟨l, -, rfl, hl, -⟩ | ⟨e, hsome, -, -⟩
  · left
    refine ⟨hc', ?_⟩
    rw [get, hreg]
    exact hnone
  · exact .inr ⟨rfl, Option.isSome_of_eq_some hl⟩
  · rw [hnone] at hsome
    cases hsome

theorem advance_keeps (h : p.Ready) (hrun : p.advance name c = .ok (c', p')) :
    p'.Ready ∧ ((p.get name).isSome → (p'.get name).isSome) := by
  have hpending (hc : c.Pending name) :
      p'.Ready ∧ ((p.get name).isSome → (p'.get name).isSome) := by
    obtain ⟨c'', p'', hrun', hready, hcases⟩ := advance_pending h hc
    cases hrun.symm.trans hrun'
    refine ⟨hready, fun hsome => ?_⟩
    rcases hcases with ⟨-, hreg, -⟩ | ⟨l, -, -, hl, -⟩ | ⟨e, -, -, hreg⟩
    · rw [get, hreg]
      exact hsome
    · exact Option.isSome_of_eq_some hl
    · rw [get, hreg]
      exact hsome
  cases c with
  | start =>
    cases hget : p.get name with
    | none =>
      cases hrun.symm.trans (advance_unknown h hget)
      refine ⟨h, fun hsome => ?_⟩
      cases hsome
    | some l =>
      cases hrun.symm.trans (advance_known h hget)
      exact ⟨h, fun _ => Option.isSome_of_eq_some hget⟩
  | missing => exact hpending trivial
  | furnished => exact hpending trivial
  | built l =>
    by_cases hname : l.name = name
    · exact hpending hname
    · have hkept : Function.update p.registry l.name (some l) name = p.registry name :=
        Function.update_of_ne (Ne.symm hname) _ _
      cases hreg : p.registry l.name with
      | none =>
        simp only [advance, enroll_new hreg] at hrun
        cases hrun
        refine ⟨h, fun hsome => ?_⟩
        change (Function.update p.registry l.name (some l) name).isSome
        rw [hkept]
        exact hsome
      | some other =>
        simp only [advance, enroll_exists (Option.isSome_of_eq_some hreg)] at hrun
        cases hrun
        exact ⟨h, id⟩
  | enrolled =>
    cases hrun
    exact ⟨h, id⟩
  | returned r =>
    cases hrun
    exact ⟨h, id⟩
  | threw e =>
    cases hrun
    exact ⟨h, id⟩

end LogProcess

namespace LogThreads

variable {ι : Type} [DecidableEq ι] {name : StdString} {list : List Logger}
  {s s' : LogThreads ι} {t u : ι}

theorem step_ok {c : CallPoint} {p : LogProcess}
    (h : s.process.advance name (s.point t) = .ok (c, p)) :
    s.step name t = .ok ⟨p, Function.update s.point t c⟩ := by
  rw [step, h]
  rfl

section Solo

variable {p p' : LogProcess} {c c' : CallPoint}

theorem solo_step (h : p.advance name c = .ok (c', p')) :
    step name (⟨p, fun _ => c⟩ : LogThreads Unit) () = .ok ⟨p', fun _ => c'⟩ := by
  have hpoint : Function.update (fun _ : Unit => c) () c' = fun _ => c' :=
    funext fun _ => Function.update_self _ _ _
  rw [step_ok h]
  change Except.ok (LogThreads.mk p' (Function.update (fun _ : Unit => c) () c')) = _
  rw [hpoint]

theorem solo_done (p : LogProcess) (r : Except SpdlogEx (Option Logger)) (n : Nat) :
    Machine.run (step name) (⟨p, fun _ => .ofResult r⟩ : LogThreads Unit) (List.replicate n ()) =
      .ok ⟨p, fun _ => .ofResult r⟩ := by
  induction n with
  | zero => rfl
  | succ n ih =>
    have hstay : p.advance name (.ofResult r) = .ok (.ofResult r, p) := by
      cases r with
      | ok v => rfl
      | error e => rfl
    rw [List.replicate_succ, Machine.run_cons_ok (solo_step hstay), ih]

theorem solo_enroll (p : LogProcess) (l : Logger) :
    Machine.run (step name) (⟨p, fun _ => .built l⟩ : LogThreads Unit) [(), ()] =
      match p.enroll l with
      | (.ok (), p') => .ok ⟨p', fun _ => .ofResult (.ok (p'.get name))⟩
      | (.error e, p') => .ok ⟨p', fun _ => .ofResult (.error e)⟩ := by
  cases hreg : p.registry l.name with
  | none =>
    have hrun := LogProcess.enroll_new hreg
    have hadvance : p.advance name (.built l) = .ok (.enrolled, (p.enroll l).2) := by
      rw [LogProcess.advance, hrun]
    rw [Machine.run_cons_ok (solo_step hadvance), Machine.run_cons_ok (solo_step rfl), hrun]
    rfl
  | some other =>
    have hrun := LogProcess.enroll_exists (Option.isSome_of_eq_some hreg)
    have hadvance : p.advance name (.built l) =
        .ok (.threw (.alreadyExists l.name), (p.enroll l).2) := by
      rw [LogProcess.advance, hrun]
    rw [Machine.run_cons_ok (solo_step hadvance), Machine.run_cons_ok (solo_step rfl), hrun]
    rfl

/-- The steps of a thread that is alone are the call of `getLogger`. -/
theorem solo_getLogger (p : LogProcess) (name : StdString) :
    Machine.run (step name) (begin p : LogThreads Unit) (List.replicate 5 ()) =
      (p.getLogger name).map fun (r, p') => ⟨p', fun _ => .ofResult r⟩ := by
  by_cases hinit : p.koo.mIsInit = false
  · have hstart : p.advance name .start = .ok (.ofResult (.ok none), p) := if_pos hinit
    rw [List.replicate_succ, begin, Machine.run_cons_ok (solo_step hstart), solo_done,
      LogProcess.getLogger, if_pos hinit]
    rfl
  · cases hget : p.get name with
    | some l =>
      have hstart : p.advance name .start = .ok (.ofResult (.ok (some l)), p) := by
        simp only [LogProcess.advance, if_neg hinit, hget, CallPoint.ofResult]
      rw [List.replicate_succ, begin, Machine.run_cons_ok (solo_step hstart), solo_done,
        LogProcess.getLogger, if_neg hinit, hget]
      rfl
    | none =>
      have hstart : p.advance name .start = .ok (.missing, p) := by
        simp only [LogProcess.advance, if_neg hinit, hget]
      rw [List.replicate_succ, begin, Machine.run_cons_ok (solo_step hstart),
        LogProcess.getLogger, if_neg hinit, hget]
      cases hl : p.koo.mLogger with
      | none =>
        have hfault : p.advance name .missing = .error .nullDeref := by
          simp only [LogProcess.advance, hl, Fault.deref, bind, Except.bind]
        rw [List.replicate_succ, Machine.run_cons_error]
        · rfl
        · rw [step, hfault]
          rfl
      | some l =>
        have hmissing : p.advance name .missing = .ok (.furnished, p.furnish) := by
          simp only [LogProcess.advance, hl, Fault.deref, bind, Except.bind, if_neg hinit]
        have hadd := LogProcess.addLogger_initialised hinit hl name
        rw [List.replicate_succ, Machine.run_cons_ok (solo_step hmissing), List.replicate_succ,
          Machine.run_cons_ok (solo_step rfl)]
        refine (solo_enroll _ _).trans ?_
        simp only [hadd, Fault.deref, bind, Except.bind]
        generalize (p.furnish.makeLogger name).2.enroll (p.furnish.makeLogger name).1 = out
        obtain ⟨r, p'⟩ := out
        cases r with
        | ok u => rfl
        | error e => rfl

end Solo

/-- The states of a run in which one thread at most registers a logger: before any call, while
the call of `t` is alone, and once there is a logger. -/
inductive Phase (name : StdString) (list : List Logger) : LogThreads ι → Prop where
  | fresh {p : LogProcess} {point : ι → CallPoint} (h : p.Ready) (hnone : p.get name = none)
      (hlist : p.koo.mLoggerList = list) (hpoint : ∀ u, point u = .start) :
      Phase name list ⟨p, point⟩
  | alone {p : LogProcess} {point : ι → CallPoint} (t : ι) (h : p.Ready)
      (hnone : p.get name = none) (hlist : p.koo.mLoggerList = list)
      (ht : (point t).Pending name) (hpoint : ∀ u, u ≠ t → point u = .start) :
      Phase name list ⟨p, point⟩
  | shared {p : LogProcess} {point : ι → CallPoint} (l : Logger) (h : p.Ready)
      (hsome : p.get name = some l) (hlist : p.koo.mLoggerList = list ++ [l])
      (hpoint : ∀ u, point u = .start ∨ point u = .enrolled ∨ point u = .returned (some l)) :
      Phase name list ⟨p, point⟩

theorem Phase.oneLogger (h : Phase name list s) : s.OneLogger name list := by
  cases h with
  | fresh h hnone hlist hpoint =>
    constructor
    · intro u e he
      cases (hpoint u).symm.trans he
    · intro u r hr
      cases (hpoint u).symm.trans hr
  | @alone p point t h hnone hlist ht hpoint =>
    constructor
    · intro u e he
      by_cases hu : u = t
      · change point u = _ at he
        rw [← hu, he] at ht
        exact ht
      · cases (hpoint u hu).symm.trans he
    · intro u r hr
      by_cases hu : u = t
      · change point u = _ at hr
        rw [← hu, hr] at ht
        exact ht.elim
      · cases (hpoint u hu).symm.trans hr
  | shared l h hsome hlist hpoint =>
    constructor
    · intro u e he
      rcases hpoint u with hu | hu | hu
      · cases hu.symm.trans he
      · cases hu.symm.trans he
      · cases hu.symm.trans he
    · intro u r hr
      rcases hpoint u with hu | hu | hu
      · cases hu.symm.trans hr
      · cases hu.symm.trans hr
      · cases hu.symm.trans hr
        exact ⟨l, rfl, hsome, hlist⟩

theorem Phase.step (h : Phase name list s) (halone : s.LooksAlone name t) :
    ∃ s', s.step name t = .ok s' ∧ s'.Phase name list := by
  cases h with
  | @fresh p point h hnone hlist hpoint =>
    have hrun : p.advance name (point t) = .ok (.missing, p) := by
      rw [hpoint t]
      exact LogProcess.advance_unknown h hnone
    refine ⟨_, step_ok hrun, .alone t h hnone hlist ?_ fun u hu => ?_⟩
    · rw [Function.update_self]
      trivial
    · rw [Function.update_of_ne hu]
      exact hpoint u
  | @alone p point v h hnone hlist hv hpoint =>
    have hvt : t = v := by
      by_contra hne
      have hstart := halone (hpoint t hne) hnone v
      change point v = _ at hstart
      rw [hstart] at hv
      exact hv
    subst hvt
    obtain ⟨c, p', hrun, hready, hcases⟩ := LogProcess.advance_pending h hv
    have hothers (u : ι) (hu : u ≠ t) : Function.update point t c u = .start := by
      rw [Function.update_of_ne hu]
      exact hpoint u hu
    refine ⟨_, step_ok hrun, ?_⟩
    rcases hcases with ⟨hc, hreg, hlist'⟩ | ⟨l, -, rfl, hl, hlist'⟩ | ⟨e, hsome, -, -⟩
    · refine .alone t hready ?_ (hlist'.trans hlist) ?_ hothers
      · rw [LogProcess.get, hreg]
        exact hnone
      · rw [Function.update_self]
        exact hc
    · refine .shared l hready hl (hlist'.trans (by rw [hlist])) fun u => ?_
      by_cases hu : u = t
      · right
        left
        rw [hu, Function.update_self]
      · exact .inl (hothers u hu)
    · rw [hnone] at hsome
      cases hsome
  | @shared p point l h hsome hlist hpoint =>
    have hrun : p.advance name (point t) = .ok (.returned (some l), p) := by
      rcases hpoint t with ht | ht | ht
      · rw [ht]
        exact LogProcess.advance_known h hsome
      · rw [ht, LogProcess.advance, hsome]
      · rw [ht]
        rfl
    refine ⟨_, step_ok hrun, .shared l h hsome hlist fun u => ?_⟩
    by_cases hu : u = t
    · right
      right
      rw [hu, Function.update_self]
    · rw [Function.update_of_ne hu]
      exact hpoint u

/-- Some call has thrown, or will throw once it comes to its registration. -/
inductive Doomed (name : StdString) : LogThreads ι → Prop where
  | threw {p : LogProcess} {point : ι → CallPoint} (t : ι) (e : SpdlogEx)
      (ht : point t = .threw e) : Doomed name ⟨p, point⟩
  | late {p : LogProcess} {point : ι → CallPoint} (t : ι) (h : p.Ready)
      (hsome : (p.get name).isSome) (ht : (point t).Pending name) : Doomed name ⟨p, point⟩
  | both {p : LogProcess} {point : ι → CallPoint} (t u : ι) (hne : t ≠ u) (h : p.Ready)
      (hnone : p.get name = none) (ht : (point t).Pending name)
      (hu : (point u).Pending name) : Doomed name ⟨p, point⟩

theorem step_cases (h : s.step name t = .ok s') :
    ∃ c p, s.process.advance name (s.point t) = .ok (c, p) ∧
      s' = ⟨p, Function.update s.point t c⟩ := by
  cases hrun : s.process.advance name (s.point t) with
  | error e =>
    rw [step, hrun] at h
    cases h
  | ok r =>
    cases h.symm.trans (step_ok hrun)
    exact ⟨r.1, r.2, rfl, rfl⟩

theorem doomed_of_pending {p : LogProcess} {point : ι → CallPoint} {c : CallPoint} {v : ι}
    (hne : t ≠ v) (h : p.Ready) (ht : (point t).Pending name)
    (hother : (p.get name).isSome ∨ ∃ u, t ≠ u ∧ (Function.update point v c u).Pending name) :
    Doomed name ⟨p, Function.update point v c⟩ := by
  have ht' : (Function.update point v c t).Pending name := by
    rw [Function.update_of_ne hne]
    exact ht
  rcases hother with hsome | ⟨u, hu, hpending⟩
  · exact .late t h hsome ht'
  · cases hget : p.get name with
    | none => exact .both t u hu h hget ht' hpending
    | some l => exact .late t h (Option.isSome_of_eq_some hget) ht'

theorem Doomed.step (h : Doomed name s) (hstep : s.step name t = .ok s') : Doomed name s' := by
  obtain ⟨c, p', hrun, rfl⟩ := step_cases hstep
  cases h with
  | @threw p point v e hv =>
    apply Doomed.threw v e
    by_cases hvt : v = t
    · subst hvt
      change p.advance name (point v) = _ at hrun
      rw [hv] at hrun
      cases hrun
      exact Function.update_self _ _ _
    · exact (Function.update_of_ne hvt _ _).trans hv
  | @late p point v h hsome hv =>
    obtain ⟨hready, hkept⟩ := LogProcess.advance_keeps h hrun
    by_cases hvt : v = t
    · subst hvt
      obtain ⟨c', p'', hrun', -, hcases⟩ := LogProcess.advance_pending h hv
      cases hrun.symm.trans hrun'
      rcases hcases with ⟨hc, -, -⟩ | ⟨l, hnone, -⟩ | ⟨e, -, rfl, -⟩
      · apply Doomed.late v hready (hkept hsome)
        rw [Function.update_self]
        exact hc
      · rw [hnone] at hsome
        cases hsome
      · exact .threw v e (Function.update_self _ _ _)
    · exact doomed_of_pending hvt hready hv (.inl (hkept hsome))
  | @both p point v u hne h hnone hv hu =>
    obtain ⟨hready, hkept⟩ := LogProcess.advance_keeps h hrun
    -- the step of one of the two leaves the other pending
    have hmoved {x y : ι} (hxy : x ≠ y) (hx : (point x).Pending name)
        (hy : (point y).Pending name) (hyt : y = t) :
        Doomed name ⟨p', Function.update point t c⟩ := by
      subst hyt
      obtain ⟨c', p'', hrun', -, hcases⟩ := LogProcess.advance_pending h hy
      cases hrun.symm.trans hrun'
      rcases hcases with ⟨hc, -, -⟩ | ⟨l, -, -, hl, -⟩ | ⟨e, hsome, -, -⟩
      · refine doomed_of_pending hxy hready hx (.inr ⟨y, hxy, ?_⟩)
        rw [Function.update_self]
        exact hc
      · exact doomed_of_pending hxy hready hx (.inl (Option.isSome_of_eq_some hl))
      · rw [hnone] at hsome
        cases hsome
    by_cases hvt : v = t
    · exact hmoved hne.symm hu hv hvt
    · by_cases hut : u = t
      · exact hmoved hne hv hu hut
      · refine doomed_of_pending hvt hready hv (.inr ⟨u, hne, ?_⟩)
        rw [Function.update_of_ne hut]
        exact hu

omit [DecidableEq ι] in
theorem Doomed.threw_of_done (h : Doomed name s) (hdone : s.Done) :
    ∃ t e, s.point t = .threw e := by
  have hnot {v : ι} (hv : (s.point v).Pending name) : ∃ t e, s.point t = .threw e := by
    rcases hdone v with ⟨r, hr⟩ | ⟨e, he⟩
    · rw [hr] at hv
      exact hv.elim
    · exact ⟨v, e, he⟩
  cases h with
  | threw t e ht => exact ⟨t, e, ht⟩
  | late t h hsome ht => exact hnot ht
  | both t u hne h hnone ht hu => exact hnot ht

theorem Phase.doomed (h : Phase name list s) (halone : ¬s.LooksAlone name t)
    (hstep : s.step name t = .ok s') : Doomed name s' := by
  simp only [LooksAlone, Classical.not_imp, not_forall] at halone
  obtain ⟨ht, hnone, u, hu⟩ := halone
  cases h with
  | fresh h hnone hlist hpoint => exact absurd (hpoint u) hu
  | shared l h hsome hlist hpoint => cases hnone.symm.trans hsome
  | @alone p point v h hnone hlist hv hpoint =>
    have hvt : v ≠ t := by
      intro he
      subst he
      change point v = _ at ht
      rw [ht] at hv
      exact hv
    have hrun : p.advance name (point t) = .ok (.missing, p) := by
      change point t = _ at ht
      rw [ht]
      exact LogProcess.advance_unknown h hnone
    cases hstep.symm.trans (step_ok hrun)
    refine doomed_of_pending hvt h hv (.inr ⟨t, hvt, ?_⟩)
    rw [Function.update_self]
    trivial

theorem Phase.looksAlone (h : Phase name list s) {sched : List ι}
    (hrun : Machine.run (LogThreads.step name) s sched = .ok s') (hdone : s'.Done)
    (hone : s'.OneLogger name list) :
    Machine.Along (LogThreads.step name) (LooksAlone name) s sched := by
  induction sched generalizing s with
  | nil => trivial
  | cons t sched ih =>
    obtain ⟨s₁, hstep, hrest⟩ := Machine.run_cons_cases hrun
    have halone : s.LooksAlone name t := by
      by_contra hno
      have hdoomed : Doomed name s' := Machine.run_invariant
        (fun _ _ _ hd hs => Doomed.step hd hs) (h.doomed hno hstep) hrest
      obtain ⟨u, e, he⟩ := hdoomed.threw_of_done hdone
      exact hone.calm u e he
    obtain ⟨s₂, hstep', hphase⟩ := h.step halone
    cases hstep.symm.trans hstep'
    refine ⟨halone, fun s₃ hs₃ => ?_⟩
    cases hstep.symm.trans hs₃
    exact ih hphase hrest

theorem looksAlone_known {p : LogProcess} {point : ι → CallPoint} (h : p.Ready)
    (hsome : (p.get name).isSome) (sched : List ι) :
    Machine.Along (LogThreads.step name) (LooksAlone name) ⟨p, point⟩ sched := by
  apply Machine.along_of_invariant
    (I := fun s : LogThreads ι => s.process.Ready ∧ (s.process.get name).isSome)
  · intro s t hs _ hnone
    rw [hnone] at hs
    cases hs.2
  · intro s t s' hs hstep
    obtain ⟨c, p', hrun, rfl⟩ := step_cases hstep
    obtain ⟨hready, hkept⟩ := LogProcess.advance_keeps hs.1 hrun
    exact ⟨hready, hkept hs.2⟩
  · exact ⟨h, hsome⟩

theorem looksAlone_pending {p : LogProcess} {point : ι → CallPoint} (h : p.Ready)
    (hnone : p.get name = none) (ht : (point t).Pending name)
    (hothers : ∀ u, u ≠ t → point u = .start) (sched : List ι) :
    Machine.Along (LogThreads.step name) (LooksAlone name) ⟨p, point⟩ sched ↔
      ∀ u ∈ sched.take (point t).toGo, u = t := by
  induction sched generalizing p point with
  | nil =>
    rw [List.take_nil]
    exact iff_of_true trivial fun u hu => (List.not_mem_nil hu).elim
  | cons u sched ih =>
    obtain ⟨c, p', hrun, hready, htoGo, hcases⟩ := LogProcess.advance_toGo h hnone ht
    by_cases hu : u = t
    · subst hu
      have hlook : (LogThreads.mk p point).LooksAlone name u := by
        intro hstart
        change point u = _ at hstart
        rw [hstart] at ht
        exact ht.elim
      have hpoint : Function.update point u c u = c := Function.update_self _ _ _
      rw [Machine.along_cons_ok (step_ok hrun), ← htoGo, List.take_succ_cons,
        List.forall_mem_cons]
      refine and_congr (iff_of_true hlook rfl) ?_
      rcases hcases with ⟨hc, hnone'⟩ | ⟨hc, hsome⟩
      · rw [← hpoint] at hc
        have hrest := ih hready hnone' hc fun v hv => by
          rw [Function.update_of_ne hv]
          exact hothers v hv
        rw [hpoint] at hrest
        exact hrest
      · rw [hc, List.take_zero]
        exact iff_of_true (looksAlone_known hready hsome sched)
          fun v hv => (List.not_mem_nil hv).elim
    · rw [← htoGo, List.take_succ_cons, List.forall_mem_cons]
      apply iff_of_false
      · intro halong
        have hstart := halong.1 (hothers u hu) hnone t
        change point t = _ at hstart
        rw [hstart] at ht
        exact ht
      · intro hall
        exact hu hall.1

/-- The lookups that find nothing are made alone when the thread that is scheduled first makes its
four steps up to its registration without a break. -/
theorem looksAlone_iff {p : LogProcess} (h : p.Ready) (hnone : p.get name = none)
    (sched : List ι) :
    Machine.Along (LogThreads.step name) (LooksAlone name) (begin p) sched ↔
      ∀ t ∈ sched.head?, ∀ u ∈ sched.take 4, u = t := by
  cases sched with
  | nil => exact iff_of_true trivial fun t ht => by cases ht
  | cons t sched =>
    have hpoint : Function.update (fun _ : ι => CallPoint.start) t .missing t = .missing :=
      Function.update_self _ _ _
    have hpending : (Function.update (fun _ : ι => CallPoint.start) t .missing t).Pending name := by
      rw [hpoint]
      trivial
    have hrest := looksAlone_pending h hnone hpending
      (fun u hu => Function.update_of_ne hu _ _) sched
    rw [hpoint] at hrest
    have hlook : (begin p : LogThreads ι).LooksAlone name t := fun _ _ _ => rfl
    rw [Machine.along_cons_ok (step_ok (LogProcess.advance_unknown h hnone)), List.take_succ_cons,
      List.head?_cons]
    constructor
    · rintro ⟨-, halong⟩ v hv
      cases hv
      exact List.forall_mem_cons.2 ⟨rfl, hrest.1 halong⟩
    · intro hall
      exact ⟨hlook, hrest.2 (List.forall_mem_cons.1 (hall t rfl)).2⟩

structure Known (name : StdString) (list : List Logger) (s : LogThreads ι) : Prop where
  ready : s.process.Ready
  isSome : (s.process.get name).isSome
  kept : s.process.koo.mLoggerList = list
  point : ∀ u, s.point u = .start ∨ ∃ r, s.point u = .returned r

theorem Known.step (h : Known name list s) (hstep : s.step name t = .ok s') :
    Known name list s' := by
  obtain ⟨l, hl⟩ := Option.isSome_iff_exists.1 h.isSome
  obtain ⟨r, hrun⟩ : ∃ r, s.process.advance name (s.point t) = .ok (.returned r, s.process) := by
    rcases h.point t with ht | ⟨r, ht⟩
    · exact ⟨some l, by rw [ht]; exact LogProcess.advance_known h.ready hl⟩
    · exact ⟨r, by rw [ht]; rfl⟩
  cases hstep.symm.trans (step_ok hrun)
  refine ⟨h.ready, h.isSome, h.kept, fun u => ?_⟩
  by_cases hu : u = t
  · exact .inr ⟨r, by rw [hu]; exact Function.update_self _ _ _⟩
  · have hpoint : Function.update s.point t (.returned r) u = s.point u :=
      Function.update_of_ne hu _ _
    change Function.update s.point t _ u = _ ∨ ∃ r', Function.update s.point t _ u = _
    rw [hpoint]
    exact h.point u

theorem OneLogger.unknown [Nonempty ι] {p : LogProcess} (h : p.Ready) {sched : List ι}
    (hrun : Machine.run (step name) (begin p) sched = .ok s) (hdone : s.Done)
    (hone : s.OneLogger name p.koo.mLoggerList) : p.get name = none := by
  by_contra hsome
  have hknown : Known name p.koo.mLoggerList (begin p : LogThreads ι) :=
    ⟨h, Option.isSome_iff_ne_none.2 hsome, rfl, fun _ => .inl rfl⟩
  have hend := Machine.run_invariant (fun _ _ _ hk hs => Known.step hk hs) hknown hrun
  obtain ⟨t⟩ : Nonempty ι := inferInstance
  rcases hdone t with ⟨r, hr⟩ | ⟨e, he⟩
  · obtain ⟨l, -, -, hlist⟩ := hone.shared t r hr
    have hlen := congrArg List.length (hend.kept.symm.trans hlist)
    rw [List.length_append, List.length_singleton] at hlen
    omega
  · exact hone.calm t e he

/-- If the name is new and every lookup that finds nothing is made alone, then in every state of
every schedule the calls share one logger; and a schedule that completes the calls leaves them
with one logger only then. -/
theorem oneLogger_iff [Nonempty ι] {p : LogProcess} (h : p.Ready) (name : StdString)
    (sched : List ι) :
    (p.get name = none ∧ Machine.Along (step name) (LooksAlone name) (begin p) sched →
      ∃ s, Machine.run (step name) (begin p) sched = .ok s ∧
        s.OneLogger name p.koo.mLoggerList) ∧
    ∀ s, Machine.run (step name) (begin p) sched = .ok s → s.Done →
      (s.OneLogger name p.koo.mLoggerList ↔
        p.get name = none ∧
          Machine.Along (step name) (LooksAlone name) (begin p) sched) := by
  have hsafe : p.get name = none ∧
      Machine.Along (step name) (LooksAlone name) (begin p) sched →
      ∃ s, Machine.run (step name) (begin p) sched = .ok s ∧
        s.OneLogger name p.koo.mLoggerList := by
    intro hcond
    obtain ⟨hnone, halong⟩ := hcond
    have hfresh : Phase name p.koo.mLoggerList (begin p : LogThreads ι) :=
      .fresh h hnone rfl fun _ => rfl
    obtain ⟨s, hrun, hphase⟩ :=
      Machine.run_along (fun _ _ hp ha => Phase.step hp ha) hfresh halong
    exact ⟨s, hrun, hphase.oneLogger⟩
  refine ⟨hsafe, fun s hrun hdone => ⟨fun hone => ?_, fun hcond => ?_⟩⟩
  · have hnone := hone.unknown h hrun hdone
    have hfresh : Phase name p.koo.mLoggerList (begin p : LogThreads ι) :=
      .fresh h hnone rfl fun _ => rfl
    exact ⟨hnone, hfresh.looksAlone hrun hdone hone⟩
  · obtain ⟨s', hrun', hone⟩ := hsafe hcond
    cases hrun.symm.trans hrun'
    exact hone

def started : LogProcess := (LogProcess.boot.initLogger .info .empty true true true).2

theorem started_ready : started.Ready := by
  have hinit : LogProcess.boot.initLogger .info .empty true true true = (.ok (), started) := rfl
  exact LogProcess.initLogger_ready hinit

def unlucky : List Bool := [false, true, false, false, false, false, true, true, true]

theorem oneLogger_iff_unlucky :
    (started.get goBot = none ∧
        Machine.Along (step goBot) (LooksAlone goBot) (begin started) unlucky →
      ∃ s, Machine.run (step goBot) (begin started) unlucky = .ok s ∧
        s.OneLogger goBot started.koo.mLoggerList) ∧
    ∀ s, Machine.run (step goBot) (begin started) unlucky = .ok s → s.Done →
      (s.OneLogger goBot started.koo.mLoggerList ↔
        started.get goBot = none ∧
          Machine.Along (step goBot) (LooksAlone goBot) (begin started) unlucky) :=
  oneLogger_iff started_ready goBot unlucky

theorem not_oneLogger_unlucky : ∃ s,
    Machine.run (step goBot) (begin started) unlucky = .ok s ∧ s.Done ∧
      ¬s.OneLogger goBot started.koo.mLoggerList := by
  refine ⟨_, rfl, ?_, ?_⟩
  · intro t
    cases t with
    | false => exact .inl ⟨_, rfl⟩
    | true => exact .inr ⟨_, rfl⟩
  · intro h
    exact h.calm true _ rfl

end LogThreads

end Gortsp
