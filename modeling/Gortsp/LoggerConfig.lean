import Gortsp.Logger
import Gortsp.Machine

namespace Gortsp
set_option autoImplicit true

inductive LogOp where
  | initLogger (logLevel : LevelEnum) (path : StdString) (isConsoleLog isSimpleLog opens : Bool)
  | uninitLogger
  | addLogger (name : StdString)
  | getLogger (name : StdString)

/-- What is thrown is caught by the caller, who goes on. -/
def LogProcess.perform (p : LogProcess) : LogOp → Except Fault LogProcess
  | .initLogger logLevel path isConsoleLog isSimpleLog opens =>
    .ok (p.initLogger logLevel path isConsoleLog isSimpleLog opens).2
  | .uninitLogger => .ok p.uninitLogger
  | .addLogger name => (p.addLogger name).map (·.2)
  | .getLogger name => (p.getLogger name).map (·.2)

def furnished (kinds : List SinkKind) : List SinkKind :=
  if kinds = [] then [.stdoutColor] else kinds

def consoleSinks (isConsoleLog : Bool) : List SinkKind :=
  if isConsoleLog then [.stdoutColor] else []

def fileSinks (path : StdString) : List SinkKind :=
  if path ≠ .empty then [.basicFile path] else []

structure LogConfig where
  level : LevelEnum
  sinks : List SinkKind
  pattern : String

def LogConfig.ask (logLevel : LevelEnum) (path : StdString) (isConsoleLog isSimpleLog : Bool) :
    LogConfig where
  level := logLevel
  sinks := consoleSinks isConsoleLog ++ fileSinks path
  pattern := if isSimpleLog then simpleLogPattern else detailedLogPattern

/-- The history of the calls: what the last `initLogger` that returned asked for, all sinks put up
so far, and the level and the sinks with which each name was first used. -/
structure LogHistory where
  config : Option LogConfig
  active : Bool
  put : List SinkKind
  firstUse : StdString → Option (LevelEnum × List SinkKind)

namespace LogHistory

def empty : LogHistory := ⟨none, false, [], fun _ => none⟩

def use (h : LogHistory) (cfg : LogConfig) (name : StdString) : LevelEnum × List SinkKind :=
  (h.firstUse name).getD (cfg.level, furnished h.put)

def used (h : LogHistory) (name : StdString) : LogHistory :=
  match h.active, h.config with
  | true, some cfg =>
    { h with
      put := furnished h.put
      firstUse := if name = .empty then h.firstUse
        else Function.update h.firstUse name (some (h.use cfg name)) }
  | _, _ => h

def after (h : LogHistory) : LogOp → LogHistory
  | .initLogger logLevel path isConsoleLog isSimpleLog opens =>
    if path ≠ .empty ∧ opens = false then { h with put := h.put ++ consoleSinks isConsoleLog }
    else { h with
      config := some (.ask logLevel path isConsoleLog isSimpleLog)
      active := true
      put := h.put ++ consoleSinks isConsoleLog ++ fileSinks path }
  | .uninitLogger => { h with active := false }
  | .addLogger name => h.used name
  | .getLogger name => if name = .empty ∨ (h.firstUse name).isSome then h else h.used name

end LogHistory

structure LogRun where
  process : LogProcess
  history : LogHistory

namespace LogRun

def start : LogRun := ⟨.boot, .empty⟩

def step (r : LogRun) (op : LogOp) : Except Fault LogRun :=
  (r.process.perform op).map fun p => ⟨p, r.history.after op⟩

/-- While the logger is initialised, `getLogger` returns a logger as the last `initLogger`
asked for it. -/
def Configured (r : LogRun) (op : LogOp) : Prop :=
  (∃ r', r.step op = .ok r') ∧
    ∀ name, op = .getLogger name → r.process.koo.mIsInit = true →
      ∃ cfg l p, r.history.config = some cfg ∧
        r.process.getLogger name = .ok (.ok (some l), p) ∧ l.level = cfg.level ∧
        ((p.sinksOf l).map Sink.kind).Perm (furnished cfg.sinks) ∧
        ∀ s ∈ p.sinksOf l, s.pattern = cfg.pattern

/-- A name that is looked up was first used with the level of the last `initLogger`, when the
sinks put up were the ones that it asked for. -/
def FirstUsedSo (r : LogRun) (op : LogOp) : Prop :=
  ∀ name cfg, op = .getLogger name → r.history.active = true → r.history.config = some cfg →
    name ≠ .empty ∧ (r.history.use cfg name).1 = cfg.level ∧
      (r.history.use cfg name).2.Perm (furnished cfg.sinks)

end LogRun

section Lists

variable {α : Type}

theorem filterMap_range' (d : α) {xs : List α} {j : Nat} (hj : j ≤ xs.length) :
    (List.range' 1 j).filterMap ((d :: xs)[·]?) = xs.take j := by
  induction j with
  | zero => rfl
  | succ j ih =>
    have hget : (d :: xs)[1 + 1 * j]? = some xs[j] := by
      rw [Nat.one_mul, Nat.add_comm, List.getElem?_cons_succ, List.getElem?_eq_getElem]
    rw [List.range'_concat, List.filterMap_append, ih (Nat.le_of_succ_le hj),
      List.filterMap_cons_some hget, List.filterMap_nil, List.take_concat_get']

theorem mapIdx_range' (d : α) (xs : List α) (f : α → α) :
    (d :: xs).mapIdx (fun i x => if i ∈ List.range' 1 xs.length then f x else x) =
      d :: xs.map f := by
  have hzero : ¬0 ∈ List.range' 1 xs.length := by
    rw [List.mem_range'_1]
    omega
  rw [List.mapIdx_cons, if_neg hzero]
  congr 1
  apply List.ext_getElem
  · rw [List.length_mapIdx, List.length_map]
  · intro i h₁ h₂
    have hi : i + 1 ∈ List.range' 1 xs.length := by
      rw [List.length_map] at h₂
      rw [List.mem_range'_1]
      omega
    rw [List.getElem_mapIdx, if_pos hi, List.getElem_map]

end Lists

def LogProcess.own (p : LogProcess) : List Sink := p.sinks.tail

inductive LogProcess.Registered (p : LogProcess) :
    Option (LevelEnum × List SinkKind) → Option Logger → Prop where
  | absent : Registered p none none
  | present {l : Logger} {j : Nat} (hj : j ≤ p.own.length) (hsinks : l.sinks = List.range' 1 j)
      (hpattern : ∀ s ∈ p.own.take j, s.pattern = p.koo.mPattern) :
      Registered p (some (l.level, (p.own.take j).map Sink.kind)) (some l)

/-- The process as its history tells it. -/
structure LogProcess.Mirrors (p : LogProcess) (h : LogHistory) : Prop where
  head : p.sinks = ⟨.stdoutColor, fullPattern⟩ :: p.own
  put : p.own.map Sink.kind = h.put
  mSinks : p.koo.mSinks = List.range' 1 p.own.length
  active : p.koo.mIsInit = h.active
  unset : h.config = none → h.active = false
  config : ∀ cfg, h.config = some cfg → p.koo.mLogger.isSome ∧ p.koo.mLevel = cfg.level ∧
    p.koo.mPattern = cfg.pattern ∧ cfg.pattern ≠ fullPattern
  unnamed : p.registry .empty = some defaultLogger
  named : ∀ name, name ≠ .empty → p.Registered (h.firstUse name) (p.registry name)

namespace LogProcess

variable {p p' : LogProcess} {h : LogHistory} {name : StdString}

theorem boot_registry :
    boot.registry = Function.update (fun _ => none) .empty (some defaultLogger) := rfl

theorem mirrors_boot : boot.Mirrors .empty where
  head := rfl
  put := rfl
  mSinks := rfl
  active := rfl
  unset := fun _ => rfl
  config := fun cfg hc => by cases hc
  unnamed := by rw [boot_registry, Function.update_self]
  named := by
    intro name hname
    rw [boot_registry, Function.update_of_ne hname]
    exact .absent

theorem Registered.transfer {use : Option (LevelEnum × List SinkKind)} {entry : Option Logger}
    (hr : p.Registered use entry) (hlen : p.own.length ≤ p'.own.length)
    (hkind : ∀ j, j ≤ p.own.length →
      (p'.own.take j).map Sink.kind = (p.own.take j).map Sink.kind)
    (hpattern : ∀ j, j ≤ p.own.length → (∀ s ∈ p.own.take j, s.pattern = p.koo.mPattern) →
      ∀ s ∈ p'.own.take j, s.pattern = p'.koo.mPattern) : p'.Registered use entry := by
  cases hr with
  | absent => exact .absent
  | present hj hsinks hpat =>
    rw [← hkind _ hj]
    exact .present (hj.trans hlen) hsinks (hpattern _ hj hpat)

theorem Registered.of_sinks {use : Option (LevelEnum × List SinkKind)} {entry : Option Logger}
    (hr : p.Registered use entry) (hsinks : p'.sinks = p.sinks)
    (hpattern : p'.koo.mPattern = p.koo.mPattern) : p'.Registered use entry := by
  have hown : p'.own = p.own := congrArg List.tail hsinks
  apply hr.transfer
  · rw [hown]
  · intro j _
    rw [hown]
  · intro j _ hpat
    rw [hown, hpattern]
    exact hpat

theorem Mirrors.pushSink (hm : p.Mirrors h) (kind : SinkKind) :
    (p.pushSink kind).Mirrors { h with put := h.put ++ [kind] } := by
  have hown : (p.pushSink kind).own = p.own ++ [⟨kind, fullPattern⟩] := by
    rw [own, LogProcess.pushSink, hm.head]
    rfl
  have htake (j : Nat) (hj : j ≤ p.own.length) : (p.pushSink kind).own.take j = p.own.take j := by
    rw [hown, List.take_append_of_le_length hj]
  constructor
  · rw [hown]
    change p.sinks ++ [_] = _
    rw [hm.head]
    rfl
  · rw [hown, List.map_append, hm.put]
    rfl
  · change p.koo.mSinks ++ [p.sinks.length] = _
    rw [hown, hm.mSinks, hm.head, List.length_append, List.length_singleton, List.range'_concat,
      Nat.one_mul, List.length_cons, Nat.add_comm]
  · exact hm.active
  · exact hm.unset
  · exact hm.config
  · exact hm.unnamed
  · intro name hname
    apply (hm.named name hname).transfer
    · rw [hown, List.length_append]
      omega
    · intro j hj
      rw [htake j hj]
    · intro j hj hpat
      rw [htake j hj]
      exact hpat

theorem Mirrors.console (hm : p.Mirrors h) (isConsoleLog : Bool) :
    (if isConsoleLog then p.pushSink .stdoutColor else p).Mirrors
      { h with put := h.put ++ consoleSinks isConsoleLog } := by
  cases isConsoleLog with
  | true => exact hm.pushSink .stdoutColor
  | false =>
    have hput : h.put ++ consoleSinks false = h.put := List.append_nil _
    rw [hput]
    exact hm

theorem Mirrors.file (hm : p.Mirrors h) (path : StdString) :
    (if path ≠ .empty then p.pushSink (.basicFile path) else p).Mirrors
      { h with put := h.put ++ fileSinks path } := by
  by_cases hpath : path ≠ .empty
  · rw [if_pos hpath, fileSinks, if_pos hpath]
    exact hm.pushSink (.basicFile path)
  · rw [if_neg hpath, fileSinks, if_neg hpath, List.append_nil]
    exact hm

theorem Mirrors.furnish (hm : p.Mirrors h) :
    p.furnish.Mirrors { h with put := furnished h.put } := by
  have hempty : p.koo.mSinks.length = 0 ↔ h.put = [] := by
    rw [hm.mSinks, List.length_range', ← hm.put, List.map_eq_nil_iff, List.length_eq_zero_iff]
  rw [LogProcess.furnish, furnished]
  by_cases hput : h.put = []
  · rw [if_pos (hempty.2 hput), if_pos hput]
    have hpush := hm.pushSink .stdoutColor
    rw [hput] at hpush
    exact hpush
  · rw [if_neg (mt hempty.1 hput), if_neg hput]
    exact hm

theorem Mirrors.setPattern_sinks (hm : p.Mirrors h) {l : Logger} (hl : l.sinks = p.koo.mSinks)
    (pattern : String) : (p.setPattern l pattern).sinks =
      ⟨.stdoutColor, fullPattern⟩ :: p.own.map fun s => { s with pattern } := by
  rw [setPattern, hl, hm.mSinks, hm.head]
  exact mapIdx_range' _ p.own _

theorem Mirrors.repattern (hm : p.Mirrors h) {l : Logger} (hl : l.sinks = p.koo.mSinks)
    {pattern : String} (hsinks : p'.sinks = (p.setPattern l pattern).sinks)
    (hregistry : p'.registry = p.registry) (hpattern : p'.koo.mPattern = pattern) :
    p'.own = p.own.map (fun s => { s with pattern }) ∧
      ∀ name, name ≠ .empty → p'.Registered (h.firstUse name) (p'.registry name) := by
  have hown : p'.own = p.own.map fun s => { s with pattern } := by
    rw [own, hsinks, hm.setPattern_sinks hl]
    rfl
  refine ⟨hown, fun name hname => ?_⟩
  rw [hregistry]
  apply (hm.named name hname).transfer
  · rw [hown, List.length_map]
  · intro j _
    rw [hown, ← List.map_take, List.map_map]
    rfl
  · intro j _ _ s hs
    rw [hown, ← List.map_take, List.mem_map] at hs
    obtain ⟨s', -, rfl⟩ := hs
    exact hpattern.symm

theorem pattern_ne_fullPattern (isSimpleLog : Bool) :
    (if isSimpleLog then simpleLogPattern else detailedLogPattern) ≠ fullPattern := by
  cases isSimpleLog with
  | true => exact (by decide : simpleLogPattern ≠ fullPattern)
  | false => exact (by decide : detailedLogPattern ≠ fullPattern)

theorem Mirrors.configure (hm : p.Mirrors h) {l : Logger} (hl : l.sinks = p.koo.mSinks)
    {cfg : LogConfig} (hstyle : cfg.pattern ≠ fullPattern)
    (hsinks : p'.sinks = (p.setPattern l cfg.pattern).sinks)
    (hregistry : p'.registry = p.registry)
    (hkoo : p'.koo = { p.koo with
      mLogger := some l, mPattern := cfg.pattern, mLevel := cfg.level, mIsInit := true }) :
    p'.Mirrors { h with config := some cfg, active := true } := by
  have hpattern : p'.koo.mPattern = cfg.pattern := by rw [hkoo]
  obtain ⟨hown, hnamed⟩ := hm.repattern hl hsinks hregistry hpattern
  constructor
  · rw [hown, hsinks, hm.setPattern_sinks hl]
  · rw [hown, List.map_map]
    exact hm.put
  · rw [hkoo, hown, List.length_map]
    exact hm.mSinks
  · rw [hkoo]
  · intro hnone
    cases hnone
  · intro cfg' hcfg
    cases hcfg
    rw [hkoo]
    exact ⟨rfl, rfl, rfl, hstyle⟩
  · rw [hregistry]
    exact hm.unnamed
  · exact hnamed

theorem Mirrors.initLogger (hm : p.Mirrors h) (logLevel : LevelEnum) (path : StdString)
    (isConsoleLog isSimpleLog opens : Bool) :
    (p.initLogger logLevel path isConsoleLog isSimpleLog opens).2.Mirrors
      (h.after (.initLogger logLevel path isConsoleLog isSimpleLog opens)) := by
  have hconsole := hm.console isConsoleLog
  rw [LogProcess.initLogger, LogHistory.after]
  generalize (if isConsoleLog then p.pushSink .stdoutColor else p) = p₁ at hconsole ⊢
  by_cases hopen : path ≠ .empty ∧ opens = false
  · rw [if_pos hopen, if_pos hopen]
    exact hconsole
  · rw [if_neg hopen, if_neg hopen]
    have hfile := hconsole.file path
    generalize (if path ≠ .empty then p₁.pushSink (.basicFile path) else p₁) = p₂ at hfile ⊢
    have hsinks : (Logger.mk p₂.made loggerName p₂.koo.mSinks .err .err).sinks =
      p₂.koo.mSinks := rfl
    have hstyle : (LogConfig.ask logLevel path isConsoleLog isSimpleLog).pattern ≠ fullPattern :=
      pattern_ne_fullPattern isSimpleLog
    exact hfile.configure hsinks hstyle rfl rfl rfl

theorem Mirrors.uninitLogger (hm : p.Mirrors h) :
    p.uninitLogger.Mirrors (h.after .uninitLogger) where
  head := hm.head
  put := hm.put
  mSinks := hm.mSinks
  active := rfl
  unset := fun _ => rfl
  config := hm.config
  unnamed := hm.unnamed
  named := fun name hname => (hm.named name hname).of_sinks rfl rfl

theorem Mirrors.config_of_active (hm : p.Mirrors h) (ha : h.active = true) :
    ∃ cfg, h.config = some cfg := by
  cases hc : h.config with
  | none =>
    rw [hm.unset hc] at ha
    cases ha
  | some cfg => exact ⟨cfg, rfl⟩

theorem used_active {cfg : LogConfig} (ha : h.active = true) (hc : h.config = some cfg) :
    h.used name = { h with
      put := furnished h.put
      firstUse := if name = .empty then h.firstUse
        else Function.update h.firstUse name (some (h.use cfg name)) } := by
  rw [LogHistory.used, ha, hc]

theorem Registered.isSome_iff {use : Option (LevelEnum × List SinkKind)} {entry : Option Logger}
    (hr : p.Registered use entry) : use.isSome ↔ entry.isSome := by
  cases hr with
  | absent => exact Iff.rfl
  | present hj hsinks hpattern => exact Iff.rfl

theorem Mirrors.initialised (hm : p.Mirrors h) (ha : h.active = true) :
    ¬p.koo.mIsInit = false := by
  rw [hm.active, ha]
  exact Bool.true_eq_false_eq_False

theorem Mirrors.ne_empty (hm : p.Mirrors h) (hnone : p.registry name = none) :
    name ≠ .empty := by
  intro he
  rw [he, hm.unnamed] at hnone
  cases hnone

theorem Mirrors.unused (hm : p.Mirrors h) (hnone : p.registry name = none) :
    h.firstUse name = none := by
  have hiff := (hm.named name (hm.ne_empty hnone)).isSome_iff
  rw [hnone] at hiff
  exact Option.not_isSome_iff_eq_none.1 (mt hiff.1 Bool.false_ne_true)

theorem Mirrors.used_before {l : Logger} (hm : p.Mirrors h) (hname : name ≠ .empty)
    (hsome : p.registry name = some l) : (h.firstUse name).isSome :=
  (hm.named name hname).isSome_iff.2 (Option.isSome_of_eq_some hsome)

theorem Mirrors.makeLogger (hm : p.Mirrors h) (name : StdString) :
    (p.makeLogger name).2.Mirrors h := by
  have hsinks : (p.makeLogger name).1.sinks = p.koo.mSinks := rfl
  have hset : (p.makeLogger name).2.sinks =
    (p.setPattern (p.makeLogger name).1 p.koo.mPattern).sinks := rfl
  obtain ⟨hown, hnamed⟩ := hm.repattern hsinks hset rfl rfl
  constructor
  · rw [hown, hset]
    exact hm.setPattern_sinks hsinks p.koo.mPattern
  · rw [hown, List.map_map]
    exact hm.put
  · rw [hown, List.length_map]
    exact hm.mSinks
  · exact hm.active
  · exact hm.unset
  · exact hm.config
  · exact hm.unnamed
  · exact hnamed

theorem Mirrors.made_registered {cfg : LogConfig} (hm : p.Mirrors h)
    (hc : h.config = some cfg) (name : StdString) :
    (p.makeLogger name).2.Registered (some (cfg.level, h.put)) (some (p.makeLogger name).1) := by
  have hsinks : (p.makeLogger name).1.sinks = p.koo.mSinks := rfl
  have hset : (p.makeLogger name).2.sinks =
    (p.setPattern (p.makeLogger name).1 p.koo.mPattern).sinks := rfl
  obtain ⟨hown, -⟩ := hm.repattern hsinks hset rfl rfl
  have hq := hm.makeLogger name
  have hlevel : (p.makeLogger name).1.level = cfg.level := (hm.config cfg hc).2.1
  have hall : (p.makeLogger name).2.own.take (p.makeLogger name).2.own.length =
    (p.makeLogger name).2.own := List.take_length
  rw [← hlevel, ← hq.put, ← hall]
  apply Registered.present (Nat.le_refl _)
  · rw [hsinks]
    exact hq.mSinks
  · intro s hs
    rw [hall, hown, List.mem_map] at hs
    obtain ⟨s', -, rfl⟩ := hs
    rfl

theorem Mirrors.enlist (hm : p.Mirrors h) (list : List Logger) :
    LogProcess.Mirrors { p with koo := { p.koo with mLoggerList := list } } h where
  head := hm.head
  put := hm.put
  mSinks := hm.mSinks
  active := hm.active
  unset := hm.unset
  config := hm.config
  unnamed := hm.unnamed
  named := fun name hname => (hm.named name hname).of_sinks rfl rfl

theorem Mirrors.register {l : Logger} {use : Option (LevelEnum × List SinkKind)}
    (hm : p.Mirrors h) (hl : p.Registered use (some l)) (hnew : l.name ≠ .empty) :
    LogProcess.Mirrors { p with registry := Function.update p.registry l.name (some l) }
      { h with firstUse := Function.update h.firstUse l.name use } where
  head := hm.head
  put := hm.put
  mSinks := hm.mSinks
  active := hm.active
  unset := hm.unset
  config := hm.config
  unnamed := (Function.update_of_ne hnew.symm _ _).trans hm.unnamed
  named := by
    intro name hname
    change LogProcess.Registered _ (Function.update h.firstUse l.name use name)
      (Function.update p.registry l.name (some l) name)
    by_cases he : name = l.name
    · subst he
      rw [Function.update_self, Function.update_self]
      exact hl.of_sinks rfl rfl
    · rw [Function.update_of_ne he, Function.update_of_ne he]
      exact (hm.named name hname).of_sinks rfl rfl

theorem Mirrors.enroll_new {l : Logger} {use : Option (LevelEnum × List SinkKind)}
    (hm : p.Mirrors h) (hl : p.Registered use (some l)) (hnone : p.registry l.name = none) :
    (p.enroll l).2.Mirrors { h with firstUse := Function.update h.firstUse l.name use } := by
  rw [LogProcess.enroll_new hnone]
  exact (hm.enlist _).register (hl.of_sinks rfl rfl) (hm.ne_empty hnone)

theorem Mirrors.enroll_exists {l : Logger} (hm : p.Mirrors h)
    (hsome : (p.registry l.name).isSome) : (p.enroll l).2.Mirrors h := by
  rw [LogProcess.enroll_exists hsome]
  exact hm.enlist _

theorem used_again {cfg : LogConfig} (ha : h.active = true) (hc : h.config = some cfg)
    (hsome : name ≠ .empty → (h.firstUse name).isSome) :
    h.used name = { h with put := furnished h.put } := by
  rw [used_active ha hc]
  by_cases hname : name = .empty
  · rw [if_pos hname]
  · obtain ⟨use, huse⟩ := Option.isSome_iff_exists.1 (hsome hname)
    have hsame : some (h.use cfg name) = h.firstUse name := by
      rw [LogHistory.use, huse, Option.getD_some]
    rw [if_neg hname, hsame, Function.update_eq_self]

theorem Mirrors.addLogger (hm : p.Mirrors h) (ha : h.active = true) (name : StdString) :
    ∃ out, p.addLogger name = .ok out ∧ out.2.Mirrors (h.used name) ∧
      (p.registry name = none → out.1 = .ok () ∧ ∃ l, out.2.registry name = some l) := by
  obtain ⟨cfg, hc⟩ := hm.config_of_active ha
  obtain ⟨mLogger, hl⟩ := Option.isSome_iff_exists.1 (hm.config cfg hc).1
  have hfurnish := hm.furnish
  have hmake := hfurnish.makeLogger name
  have hreg : (p.furnish.makeLogger name).2.registry = p.registry := furnish_registry p
  refine ⟨_, addLogger_initialised (hm.initialised ha) hl name, ?_⟩
  cases hget : p.registry name with
  | none =>
    have hnone : (p.furnish.makeLogger name).2.registry
        (p.furnish.makeLogger name).1.name = none := by
      rw [hreg]
      exact hget
    have huse : h.use cfg name = (cfg.level, furnished h.put) := by
      rw [LogHistory.use, hm.unused hget, Option.getD_none]
    constructor
    · rw [used_active ha hc, if_neg (hm.ne_empty hget), huse]
      exact hmake.enroll_new (hfurnish.made_registered hc name) hnone
    · intro _
      rw [LogProcess.enroll_new hnone]
      exact ⟨rfl, _, Function.update_self _ _ _⟩
  | some l =>
    have hsome : ((p.furnish.makeLogger name).2.registry
        (p.furnish.makeLogger name).1.name).isSome := by
      rw [hreg]
      exact Option.isSome_of_eq_some hget
    constructor
    · rw [used_again ha hc fun hname => hm.used_before hname hget]
      exact hmake.enroll_exists hsome
    · intro hnone
      cases hnone

theorem used_inactive (ha : h.active = false) (name : StdString) : h.used name = h := by
  rw [LogHistory.used, ha]

theorem Mirrors.getLogger (hm : p.Mirrors h) (name : StdString) :
    ∃ out, p.getLogger name = .ok out ∧ out.2.Mirrors (h.after (.getLogger name)) ∧
      (h.active = true → ∃ l, out.1 = .ok (some l) ∧ out.2.registry name = some l) := by
  cases ha : h.active with
  | false =>
    have hinit : p.koo.mIsInit = false := hm.active.trans ha
    refine ⟨(.ok none, p), if_pos hinit, ?_, fun he => by cases he⟩
    have hafter : h.after (.getLogger name) = h := by
      rw [LogHistory.after, used_inactive ha, ite_self]
    rw [hafter]
    exact hm
  | true =>
    have hinit := hm.initialised ha
    cases hget : p.registry name with
    | some l =>
      have hagain : name = .empty ∨ (h.firstUse name).isSome := by
        by_cases hname : name = .empty
        · exact .inl hname
        · exact .inr (hm.used_before hname hget)
      refine ⟨(.ok (some l), p), ?_, ?_, fun _ => ⟨l, rfl, hget⟩⟩
      · rw [LogProcess.getLogger, if_neg hinit, LogProcess.get, hget]
      · rw [LogHistory.after, if_pos hagain]
        exact hm
    | none =>
      obtain ⟨cfg, hc⟩ := hm.config_of_active ha
      obtain ⟨mLogger, hl⟩ := Option.isSome_iff_exists.1 (hm.config cfg hc).1
      obtain ⟨⟨r, p'⟩, hadd, hm', hnew⟩ := hm.addLogger ha name
      obtain ⟨hr, l, hl'⟩ := hnew hget
      cases hr
      have hfound : p'.registry name = some l := hl'
      have hfirst : ¬(name = .empty ∨ (h.firstUse name).isSome) := by
        intro hor
        rcases hor with he | hsome
        · exact hm.ne_empty hget he
        · rw [hm.unused hget] at hsome
          cases hsome
      refine ⟨(.ok (some l), p'), ?_, ?_, fun _ => ⟨l, rfl, hfound⟩⟩
      · rw [LogProcess.getLogger, if_neg hinit, LogProcess.get, hget]
        simp only [hl, Fault.deref, bind, Except.bind, hadd, LogProcess.get]
        rw [hfound]
        rfl
      · rw [LogHistory.after, if_neg hfirst]
        exact hm'

theorem firstUse_after {cfg : LogConfig} (ha : h.active = true) (hc : h.config = some cfg)
    (hname : name ≠ .empty) :
    (h.after (.getLogger name)).firstUse name = some (h.use cfg name) := by
  rw [LogHistory.after]
  split
  · next hor =>
    obtain ⟨use, huse⟩ := Option.isSome_iff_exists.1 (hor.resolve_left hname)
    rw [LogHistory.use, huse, Option.getD_some]
  · rw [used_active ha hc, if_neg hname]
    exact Function.update_self _ _ _

theorem config_after (h : LogHistory) (name : StdString) :
    (h.after (.getLogger name)).config = h.config := by
  rw [LogHistory.after]
  split
  · rfl
  · rw [LogHistory.used]
    split
    · rfl
    · rfl

theorem Mirrors.registered (hm : p.Mirrors h) {l : Logger}
    (hr : p.Registered (some use) (some l)) :
    l.level = use.1 ∧ (p.sinksOf l).map Sink.kind = use.2 ∧
      ∀ s ∈ p.sinksOf l, s.pattern = p.koo.mPattern := by
  cases hr with
  | @present l j hj hsinks hpattern =>
    have hof : p.sinksOf l = p.own.take j := by
      rw [sinksOf, hsinks, hm.head]
      exact filterMap_range' _ hj
    rw [hof]
    exact ⟨rfl, rfl, hpattern⟩

end LogProcess

namespace LogRun

variable {r r' : LogRun} {op : LogOp}

theorem step_mirrors (hm : r.process.Mirrors r.history) (op : LogOp) :
    ∃ r', r.step op = .ok r' ∧ r'.process.Mirrors r'.history := by
  cases op with
  | initLogger logLevel path isConsoleLog isSimpleLog opens =>
    exact ⟨_, rfl, hm.initLogger logLevel path isConsoleLog isSimpleLog opens⟩
  | uninitLogger => exact ⟨_, rfl, hm.uninitLogger⟩
  | addLogger name =>
    cases ha : r.history.active with
    | true =>
      obtain ⟨out, hrun, hm', -⟩ := hm.addLogger ha name
      refine ⟨⟨out.2, r.history.used name⟩, ?_, hm'⟩
      rw [step, LogProcess.perform, hrun]
      rfl
    | false =>
      have hinit : r.process.koo.mIsInit = false := hm.active.trans ha
      have hrun : r.process.addLogger name = .ok (.ok (), r.process) := if_pos hinit
      have hused := LogProcess.used_inactive ha name
      refine ⟨⟨r.process, r.history.used name⟩, ?_, ?_⟩
      · rw [step, LogProcess.perform, hrun]
        rfl
      · rw [hused]
        exact hm
  | getLogger name =>
    obtain ⟨out, hrun, hm', -⟩ := hm.getLogger name
    refine ⟨⟨out.2, r.history.after (.getLogger name)⟩, ?_, hm'⟩
    rw [step, LogProcess.perform, hrun]
    rfl

theorem not_configured_unnamed (hm : r.process.Mirrors r.history)
    (ha : r.history.active = true) : ¬r.Configured (.getLogger .empty) := by
  intro h
  obtain ⟨-, h⟩ := h
  obtain ⟨cfg, l, p, hc, hrun, -, -, hpattern⟩ := h .empty rfl (hm.active.trans ha)
  have hdefault : r.process.getLogger .empty = .ok (.ok (some defaultLogger), r.process) := by
    rw [LogProcess.getLogger, if_neg (hm.initialised ha), LogProcess.get, hm.unnamed]
  cases hrun.symm.trans hdefault
  have hmem : ⟨.stdoutColor, fullPattern⟩ ∈ r.process.sinksOf defaultLogger := by
    rw [LogProcess.sinksOf, hm.head]
    exact List.mem_singleton_self _
  exact (hm.config cfg hc).2.2.2 (hpattern _ hmem).symm

theorem configured_iff (hm : r.process.Mirrors r.history) (op : LogOp) :
    r.Configured op ↔ r.FirstUsedSo op := by
  obtain ⟨r', hstep, -⟩ := step_mirrors hm op
  constructor
  · intro h name cfg hop ha hc
    subst hop
    by_cases hname : name = .empty
    · subst hname
      exact absurd h (not_configured_unnamed hm ha)
    · refine ⟨hname, ?_⟩
      obtain ⟨cfg', l, p, hc', hrun, hlevel, hsinks, -⟩ := h.2 name rfl (hm.active.trans ha)
      cases hc.symm.trans hc'
      obtain ⟨out, hrun', hm', hnew⟩ := hm.getLogger name
      obtain ⟨l', hl', hreg⟩ := hnew ha
      cases hrun.symm.trans hrun'
      cases hl'
      have hr := hm'.named name hname
      rw [hreg, LogProcess.firstUse_after ha hc hname] at hr
      obtain ⟨hlevel', hsinks', -⟩ := hm'.registered hr
      rw [← hlevel', ← hsinks']
      exact ⟨hlevel, hsinks⟩
  · intro h
    refine ⟨⟨r', hstep⟩, ?_⟩
    intro name hop hinit
    subst hop
    have ha : r.history.active = true := hm.active.symm.trans hinit
    obtain ⟨cfg, hc⟩ := hm.config_of_active ha
    obtain ⟨hname, hlevel, hsinks⟩ := h name cfg rfl ha hc
    obtain ⟨⟨res, p⟩, hrun, hm', hnew⟩ := hm.getLogger name
    obtain ⟨l, hl, hreg⟩ := hnew ha
    cases hl
    have hr := hm'.named name hname
    rw [hreg, LogProcess.firstUse_after ha hc hname] at hr
    obtain ⟨hlevel', hsinks', hpattern⟩ := hm'.registered hr
    refine ⟨cfg, l, p, hc, hrun, hlevel'.trans hlevel, ?_, ?_⟩
    · rw [hsinks']
      exact hsinks
    · intro s hs
      have hkept : (r.history.after (.getLogger name)).config = some cfg :=
        (LogProcess.config_after r.history name).trans hc
      exact (hpattern s hs).trans (hm'.config cfg hkept).2.2.1

/-- Over every sequence of calls, `getLogger` returns what the last `initLogger` asked for exactly
when each name that is looked up was first used under a configuration like that. -/
theorem configuredAlong_iff (ops : List LogOp) :
    Machine.Along step Configured start ops ↔ Machine.Along step FirstUsedSo start ops := by
  apply Machine.along_iff (I := fun r => r.process.Mirrors r.history)
  · intro r op hm
    exact configured_iff hm op
  · intro r op t hm _ ht
    obtain ⟨r', hstep, hm'⟩ := step_mirrors hm op
    cases ht.symm.trans hstep
    exact hm'
  · exact LogProcess.mirrors_boot

def aLog : StdString := ⟨"a.log".toUTF8.data.toList, by decide⟩

def bLog : StdString := ⟨"b.log".toUTF8.data.toList, by decide⟩

theorem not_configuredAlong_reopened :
    ¬Machine.Along step Configured start [.initLogger .info aLog false true true, .uninitLogger,
      .initLogger .info bLog false true true, .getLogger goBot] := by
  intro h
  obtain ⟨-, h⟩ := h
  obtain ⟨-, h⟩ := h _ rfl
  obtain ⟨-, h⟩ := h _ rfl
  obtain ⟨⟨-, h⟩, -⟩ := h _ rfl
  obtain ⟨cfg, l, p, hc, hrun, -, hsinks, -⟩ := h goBot rfl rfl
  cases hc
  cases hrun
  cases hsinks.length_eq

end LogRun

end Gortsp
