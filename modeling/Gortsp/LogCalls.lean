import Gortsp.LogWorld

namespace Gortsp
set_option autoImplicit true

namespace LogProcess

variable {p p' : LogProcess} {h : LogHistory} {name : StdString}

/-- What a call does to the sinks: new ones are added to the end, or all that the singleton put up
get its pattern, from a logger that is made. -/
inductive Grows (p p' : LogProcess) : Prop where
  | added (new : List Sink) (hsinks : p'.sinks = p.sinks ++ new)
      (hnew : ∀ s ∈ new, s.pattern = fullPattern) (hmade : p'.made = p.made)
  | refitted (hlen : p.sinks.length ≤ p'.sinks.length)
      (hpattern : ∀ s ∈ p'.own, s.pattern = p'.koo.mPattern) (hinit : p'.koo.mIsInit = true)
      (hmade : p'.made = p.made + 1)

/-- What a call does to the loggers: none is lost, and a new one in the registry is in the list,
and flushes on errors. -/
structure Enrolls (p p' : LogProcess) : Prop where
  old : ∀ name l, p.registry name = some l → p'.registry name = some l
  list : ∀ l ∈ p.koo.mLoggerList, l ∈ p'.koo.mLoggerList
  new : ∀ name l, p'.registry name = some l → p.registry name = some l ∨
    l.name = name ∧ l.flushLevel = .err ∧ l ∈ p'.koo.mLoggerList

structure Went (p p' : LogProcess) : Prop where
  grows : p.Grows p'
  enrolls : p.Enrolls p'

theorem Enrolls.of_eq (hregistry : p'.registry = p.registry)
    (hlist : p'.koo.mLoggerList = p.koo.mLoggerList) : p.Enrolls p' where
  old name l hl := by
    rw [hregistry]
    exact hl
  list l hl := by
    rw [hlist]
    exact hl
  new name l hl := by
    rw [hregistry] at hl
    exact .inl hl

theorem Went.of_eq (hsinks : p'.sinks = p.sinks) (hmade : p'.made = p.made)
    (hregistry : p'.registry = p.registry)
    (hlist : p'.koo.mLoggerList = p.koo.mLoggerList) : p.Went p' := by
  refine ⟨.added [] ?_ (fun s hs => (List.not_mem_nil hs).elim) hmade, .of_eq hregistry hlist⟩
  rw [hsinks, List.append_nil]

theorem pushSink_if (p : LogProcess) (c : Prop) [Decidable c] (kind : SinkKind) :
    ∃ new, (if c then p.pushSink kind else p).sinks = p.sinks ++ new ∧
      (∀ s ∈ new, s.pattern = fullPattern) ∧
      (if c then p.pushSink kind else p).made = p.made ∧
      (if c then p.pushSink kind else p).registry = p.registry ∧
      (if c then p.pushSink kind else p).koo.mLoggerList = p.koo.mLoggerList := by
  by_cases hc : c
  · rw [if_pos hc]
    exact ⟨[⟨kind, fullPattern⟩], rfl, List.forall_mem_singleton.2 rfl, rfl, rfl, rfl⟩
  · rw [if_neg hc]
    exact ⟨[], (List.append_nil _).symm, fun s hs => (List.not_mem_nil hs).elim, rfl, rfl, rfl⟩

theorem length_le_of_append {xs ys zs : List α} (h : ys = xs ++ zs) : xs.length ≤ ys.length := by
  rw [h, List.length_append]
  exact Nat.le_add_right _ _

theorem Grows.length_le (hgrows : p.Grows p') : p.sinks.length ≤ p'.sinks.length := by
  cases hgrows with
  | added new hsinks hnew hmade => exact length_le_of_append hsinks
  | refitted hlen hpattern hinit hmade => exact hlen

theorem Mirrors.patterned (hm : p.Mirrors h) {l : Logger} (hl : l.sinks = p.koo.mSinks)
    {pattern : String} (hsinks : p'.sinks = (p.setPattern l pattern).sinks) :
    p.sinks.length = p'.sinks.length ∧ ∀ s ∈ p'.own, s.pattern = pattern := by
  constructor
  · rw [hsinks, setPattern, List.length_mapIdx]
  · intro s hs
    rw [own, hsinks, hm.setPattern_sinks hl, List.tail_cons] at hs
    obtain ⟨s', -, rfl⟩ := List.mem_map.1 hs
    rfl

theorem initLogger_went (hm : p.Mirrors h) (logLevel : LevelEnum) (path : StdString)
    (isConsoleLog isSimpleLog opens : Bool) :
    p.Went (p.initLogger logLevel path isConsoleLog isSimpleLog opens).2 := by
  have hconsole := hm.console isConsoleLog
  obtain ⟨new, hsinks, hnew, hmade, hregistry, hlist⟩ :=
    p.pushSink_if (isConsoleLog = true) .stdoutColor
  rw [initLogger]
  generalize (if isConsoleLog then p.pushSink .stdoutColor else p) = p₁ at *
  by_cases hopen : path ≠ .empty ∧ opens = false
  · rw [if_pos hopen]
    exact ⟨.added new hsinks hnew hmade, .of_eq hregistry hlist⟩
  · rw [if_neg hopen]
    have hfile := hconsole.file path
    obtain ⟨new₂, hsinks₂, -, hmade₂, hregistry₂, hlist₂⟩ :=
      p₁.pushSink_if (path ≠ .empty) (.basicFile path)
    generalize (if path ≠ .empty then p₁.pushSink (.basicFile path) else p₁) = p₂ at *
    have hl : (Logger.mk p₂.made loggerName p₂.koo.mSinks .err .err).sinks = p₂.koo.mSinks := rfl
    obtain ⟨hlen, hpattern⟩ := hfile.patterned hl rfl
    refine ⟨.refitted ?_ hpattern rfl ?_, .of_eq ?_ ?_⟩
    · rw [← hlen]
      exact (length_le_of_append hsinks).trans (length_le_of_append hsinks₂)
    · change p₂.made + 1 = p.made + 1
      rw [hmade₂, hmade]
    · exact hregistry₂.trans hregistry
    · exact hlist₂.trans hlist

theorem enroll_keeps (p : LogProcess) (l : Logger) :
    (p.enroll l).2.sinks = p.sinks ∧ (p.enroll l).2.made = p.made ∧
      (p.enroll l).2.koo.mPattern = p.koo.mPattern ∧
      (p.enroll l).2.koo.mIsInit = p.koo.mIsInit ∧
      (p.enroll l).2.koo.mLoggerList = p.koo.mLoggerList ++ [l] := by
  by_cases hsome : (p.registry l.name).isSome
  · rw [enroll_exists hsome]
    exact ⟨rfl, rfl, rfl, rfl, rfl⟩
  · rw [enroll_new (Option.not_isSome_iff_eq_none.1 hsome)]
    exact ⟨rfl, rfl, rfl, rfl, rfl⟩

theorem enroll_enrolls (p : LogProcess) {l : Logger} (hflush : l.flushLevel = .err) :
    p.Enrolls (p.enroll l).2 := by
  have hlist := (enroll_keeps p l).2.2.2.2
  have hmem : l ∈ (p.enroll l).2.koo.mLoggerList := by
    rw [hlist]
    exact List.mem_append_right _ List.mem_cons_self
  have hkept : ∀ k ∈ p.koo.mLoggerList, k ∈ (p.enroll l).2.koo.mLoggerList := by
    intro k hk
    rw [hlist]
    exact List.mem_append_left _ hk
  by_cases hsome : (p.registry l.name).isSome
  · have hregistry : (p.enroll l).2.registry = p.registry := by
      rw [enroll_exists hsome]
    constructor
    · intro name k hk
      rw [hregistry]
      exact hk
    · exact hkept
    · intro name k hk
      rw [hregistry] at hk
      exact .inl hk
  · have hnone := Option.not_isSome_iff_eq_none.1 hsome
    have hregistry : (p.enroll l).2.registry = Function.update p.registry l.name (some l) := by
      rw [enroll_new hnone]
    constructor
    · intro name k hk
      have hne : name ≠ l.name := by
        rintro rfl
        rw [hnone] at hk
        cases hk
      rw [hregistry, Function.update_of_ne hne]
      exact hk
    · exact hkept
    · intro name k hk
      rw [hregistry] at hk
      by_cases hname : name = l.name
      · subst hname
        rw [Function.update_self] at hk
        cases hk
        exact .inr ⟨rfl, hflush, hmem⟩
      · rw [Function.update_of_ne hname] at hk
        exact .inl hk

theorem addLogger_went (hm : p.Mirrors h) {out : Except SpdlogEx Unit × LogProcess}
    (ha : p.addLogger name = .ok out) : p.Went out.2 := by
  by_cases hinit : p.koo.mIsInit = false
  · rw [addLogger, if_pos hinit] at ha
    cases ha
    exact .of_eq rfl rfl rfl rfl
  · cases hl : p.koo.mLogger with
    | none =>
      rw [addLogger, if_neg hinit, hl] at ha
      cases ha
    | some mLogger =>
      rw [addLogger_initialised hinit hl] at ha
      cases ha
      obtain ⟨new, hsinks, -, hmade, hregistry, hlist⟩ :=
        p.pushSink_if (p.koo.mSinks.length = 0) .stdoutColor
      have hactive : ¬p.furnish.koo.mIsInit = false := by
        rw [hm.furnish.active]
        exact fun hno => hinit (hm.active.trans hno)
      have hmk : (p.furnish.makeLogger name).1.sinks = p.furnish.koo.mSinks := rfl
      have hset : (p.furnish.makeLogger name).2.sinks =
        (p.furnish.setPattern (p.furnish.makeLogger name).1 p.furnish.koo.mPattern).sinks := rfl
      obtain ⟨hlen, hpattern⟩ := hm.furnish.patterned hmk hset
      obtain ⟨hsinks', hmade', hpattern', hinit', -⟩ :=
        enroll_keeps (p.furnish.makeLogger name).2 (p.furnish.makeLogger name).1
      constructor
      · apply Grows.refitted
        · rw [hsinks', ← hlen]
          exact length_le_of_append hsinks
        · rw [own, hsinks', hpattern']
          exact hpattern
        · rw [hinit']
          exact Bool.not_eq_false _ ▸ hactive
        · rw [hmade']
          exact congrArg (· + 1) hmade
      · have hq := enroll_enrolls (p.furnish.makeLogger name).2
          (show (p.furnish.makeLogger name).1.flushLevel = .err from rfl)
        have hreg : (p.furnish.makeLogger name).2.registry = p.registry := hregistry
        have hlst : (p.furnish.makeLogger name).2.koo.mLoggerList = p.koo.mLoggerList := hlist
        refine ⟨fun n l hnl => hq.old n l (hreg ▸ hnl), fun l hl => hq.list l (hlst ▸ hl), ?_⟩
        intro n l hnl
        have hnew := hq.new n l hnl
        rw [hreg] at hnew
        exact hnew

theorem getLogger_went (hm : p.Mirrors h) {out : Except SpdlogEx (Option Logger) × LogProcess}
    (hg : p.getLogger name = .ok out) : p.Went out.2 := by
  by_cases hinit : p.koo.mIsInit = false
  · rw [getLogger, if_pos hinit] at hg
    cases hg
    exact .of_eq rfl rfl rfl rfl
  · rw [getLogger, if_neg hinit, get] at hg
    cases hl : p.registry name with
    | some l =>
      rw [hl] at hg
      cases hg
      exact .of_eq rfl rfl rfl rfl
    | none =>
      cases hk : p.koo.mLogger with
      | none =>
        simp only [hl, hk, Fault.deref, bind, Except.bind] at hg
        cases hg
      | some mLogger =>
        cases ha : p.addLogger name with
        | error f =>
          simp only [hl, hk, Fault.deref, bind, Except.bind, ha] at hg
          cases hg
        | ok added =>
          have hwent := addLogger_went hm ha
          obtain ⟨r, q⟩ := added
          simp only [hl, hk, Fault.deref, bind, Except.bind, ha] at hg
          cases r with
          | ok u =>
            cases hg
            exact hwent
          | error e =>
            cases hg
            exact hwent

theorem perform_went (hm : p.Mirrors h) {op : LogOp} (hp : p.perform op = .ok p') : p.Went p' := by
  cases op with
  | initLogger logLevel path isConsoleLog isSimpleLog opens =>
    cases hp
    exact initLogger_went hm logLevel path isConsoleLog isSimpleLog opens
  | uninitLogger =>
    cases hp
    exact .of_eq rfl rfl rfl rfl
  | addLogger name =>
    cases ha : p.addLogger name with
    | error f =>
      rw [perform, ha] at hp
      cases hp
    | ok out =>
      rw [perform, ha] at hp
      cases hp
      exact addLogger_went hm ha
  | getLogger name =>
    cases hg : p.getLogger name with
    | error f =>
      rw [perform, hg] at hp
      cases hp
    | ok out =>
      rw [perform, hg] at hp
      cases hp
      exact getLogger_went hm hg

theorem Mirrors.perform (hm : p.Mirrors h) (op : LogOp) :
    ∃ p', p.perform op = .ok p' ∧ p'.Mirrors (h.after op) ∧ p.Went p' := by
  obtain ⟨r', hstep, hm'⟩ := LogRun.step_mirrors (r := ⟨p, h⟩) hm op
  rw [LogRun.step] at hstep
  cases hp : p.perform op with
  | error f =>
    rw [hp] at hstep
    cases hstep
  | ok p' =>
    rw [hp] at hstep
    cases hstep
    exact ⟨p', rfl, hm', perform_went hm hp⟩

theorem Mirrors.length_eq (hm : p.Mirrors h) : p.sinks.length = p.own.length + 1 :=
  congrArg List.length hm.head

theorem Mirrors.mem_mSinks (hm : p.Mirrors h) {s : Sink} (hs : p.sinks[i]? = some s) :
    i = 0 ∧ s = ⟨.stdoutColor, fullPattern⟩ ∨ i ∈ p.koo.mSinks ∧ s ∈ p.own := by
  rw [hm.head] at hs
  cases i with
  | zero =>
    cases hs
    exact .inl ⟨rfl, rfl⟩
  | succ i =>
    right
    rw [List.getElem?_cons_succ] at hs
    obtain ⟨hi, -⟩ := List.getElem?_eq_some_iff.1 hs
    refine ⟨?_, List.mem_of_getElem? hs⟩
    rw [hm.mSinks, List.mem_range'_1]
    omega

structure Routed (p : LogProcess) (l : Logger) (r : LogRoute) : Prop where
  level : r.level = l.level
  sinks : r.sinks = l.sinks
  nodup : l.sinks.Nodup
  pattern : ∀ i ∈ l.sinks, ∃ s, p.sinks[i]? = some s ∧ s.pattern = r.pattern

theorem Mirrors.routed (hm : p.Mirrors (h.after (.getLogger name))) (ha : h.active = true)
    {cfg : LogConfig} (hc : h.config = some cfg) {l : Logger} (hl : p.registry name = some l) :
    ∃ r, h.route name = some r ∧ p.Routed l r := by
  by_cases hname : name = .empty
  · have hroute : h.route name = some ⟨.info, [0], fullPattern⟩ := by
      rw [LogHistory.route, ha, hc]
      exact if_pos hname
    rw [hname, hm.unnamed] at hl
    cases hl
    refine ⟨_, hroute, rfl, rfl, List.nodup_singleton 0, List.forall_mem_singleton.2 ?_⟩
    rw [hm.head]
    exact ⟨_, rfl, rfl⟩
  · have hroute : h.route name = some
        ⟨(h.use cfg name).1, List.range' 1 (h.use cfg name).2.length, cfg.pattern⟩ := by
      rw [LogHistory.route, ha, hc]
      exact if_neg hname
    have hr := hm.named name hname
    rw [hl, firstUse_after ha hc hname] at hr
    have hpattern : p.koo.mPattern = cfg.pattern :=
      (hm.config cfg ((config_after h name).trans hc)).2.2.1
    generalize h.use cfg name = use at hr hroute
    cases hr with
    | @present l j hj hsinks hpat =>
      have hlen : ((p.own.take j).map Sink.kind).length = j := by
        rw [List.length_map, List.length_take, Nat.min_eq_left hj]
      rw [hlen] at hroute
      refine ⟨_, hroute, rfl, hsinks.symm, ?_, ?_⟩
      · rw [hsinks]
        exact List.nodup_range'
      · intro i hi
        rw [hsinks, List.mem_range'_1] at hi
        obtain ⟨k, rfl⟩ := Nat.exists_eq_add_of_le' hi.1
        have hk : k < (p.own.take j).length := by
          rw [List.length_take]
          omega
        refine ⟨(p.own.take j)[k], ?_, ?_⟩
        · rw [hm.head, List.getElem?_cons_succ, List.getElem_take, List.getElem?_eq_getElem]
        · rw [← hpattern]
          exact hpat _ (List.getElem_mem hk)

end LogProcess

end Gortsp
