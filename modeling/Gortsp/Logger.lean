import Gortsp.Platform

namespace Gortsp
set_option autoImplicit true

inductive LevelEnum where
  | trace
  | debug
  | info
  | warn
  | err
  | critical
  | off
  deriving DecidableEq, Repr

inductive SinkKind where
  | stdoutColor
  | basicFile (path : StdString)
  deriving DecidableEq

structure Sink where
  kind : SinkKind
  pattern : String
  deriving DecidableEq

/-- A logger holds the numbers of the sinks that it shares with others; `id` tells it from every
other logger. -/
structure Logger where
  id : Nat
  name : StdString
  sinks : List Nat
  level : LevelEnum
  flushLevel : LevelEnum
  deriving DecidableEq

inductive SpdlogEx where
  | openFailed (path : StdString)
  | alreadyExists (name : StdString)
  deriving DecidableEq

structure KooLogger where
  mLogger : Option Logger
  mLoggerList : List Logger
  mSinks : List Nat
  mLevel : LevelEnum
  mPattern : String
  mIsInit : Bool

structure LogProcess where
  koo : KooLogger
  registry : StdString → Option Logger
  sinks : List Sink
  made : Nat

def KooLogger.create : KooLogger := ⟨none, [], [], .info, "", false⟩

def fullPattern : String := "%+"

def simpleLogPattern : String := "%D %T:%e %5t %^%L%$: [%n] %v ; (%s:%#)"

def detailedLogPattern : String := "%t [%D %T:%e][%^%7l%$][%n] %v (%! %s:%#)"

def loggerName : StdString := ⟨"Logger".toUTF8.data.toList, by decide⟩

def goBot : StdString := ⟨"GoBot".toUTF8.data.toList, by decide⟩

def defaultLogger : Logger := ⟨0, .empty, [0], .info, .off⟩

namespace LogProcess

def boot : LogProcess where
  koo := .create
  registry := Function.update (fun _ => none) .empty (some defaultLogger)
  sinks := [⟨.stdoutColor, fullPattern⟩]
  made := 1

def pushSink (p : LogProcess) (kind : SinkKind) : LogProcess :=
  { p with
    sinks := p.sinks ++ [⟨kind, fullPattern⟩]
    koo := { p.koo with mSinks := p.koo.mSinks ++ [p.sinks.length] } }

/-- The pattern is a property of the sinks, which other loggers may write to as well. -/
def setPattern (p : LogProcess) (l : Logger) (pattern : String) : LogProcess :=
  { p with sinks := p.sinks.mapIdx fun i s => if i ∈ l.sinks then { s with pattern } else s }

/-- `opens` says whether the file can be opened; if not, the constructor of its sink throws. -/
def initLogger (p : LogProcess) (logLevel : LevelEnum) (path : StdString)
    (isConsoleLog isSimpleLog opens : Bool) : Except SpdlogEx Unit × LogProcess :=
  let p := if isConsoleLog then p.pushSink .stdoutColor else p
  if path ≠ .empty ∧ opens = false then (.error (.openFailed path), p)
  else
    let p := if path ≠ .empty then p.pushSink (.basicFile path) else p
    let mLogger := ⟨p.made, loggerName, p.koo.mSinks, .err, .err⟩
    let mPattern := if isSimpleLog then simpleLogPattern else detailedLogPattern
    let p := p.setPattern mLogger mPattern
    (.ok (), { p with
      made := p.made + 1
      koo := { p.koo with
        mLogger := some mLogger
        mPattern
        mLevel := logLevel
        mIsInit := true } })

/-- The second loop resets copies of the pointers, so that the list keeps its loggers. -/
def uninitLogger (p : LogProcess) : LogProcess := { p with koo := { p.koo with mIsInit := false } }

def furnish (p : LogProcess) : LogProcess :=
  if p.koo.mSinks.length = 0 then p.pushSink .stdoutColor else p

def makeLogger (p : LogProcess) (name : StdString) : Logger × LogProcess :=
  let retLogger := ⟨p.made, name, p.koo.mSinks, p.koo.mLevel, .err⟩
  (retLogger, { p.setPattern retLogger p.koo.mPattern with made := p.made + 1 })

def get (p : LogProcess) (name : StdString) : Option Logger := p.registry name

def registerLogger (p : LogProcess) (l : Logger) : Except SpdlogEx LogProcess :=
  if (p.registry l.name).isSome then .error (.alreadyExists l.name)
  else .ok { p with registry := Function.update p.registry l.name (some l) }

/-- The section of `addLogger` under the lock. The list has the logger already when the
registration throws. -/
def enroll (p : LogProcess) (l : Logger) : Except SpdlogEx Unit × LogProcess :=
  let p := { p with koo := { p.koo with mLoggerList := p.koo.mLoggerList ++ [l] } }
  match p.registerLogger l with
  | .ok p => (.ok (), p)
  | .error e => (.error e, p)

/-- The messages of `addLogger` and `getLogger` go through `_mLogger`. -/
def addLogger (p : LogProcess) (name : StdString) :
    Except Fault (Except SpdlogEx Unit × LogProcess) :=
  if p.koo.mIsInit = false then .ok (.ok (), p)
  else do
    let _ ← Fault.deref p.koo.mLogger
    let p := p.furnish
    let (retLogger, p) := p.makeLogger name
    return p.enroll retLogger

def getLogger (p : LogProcess) (name : StdString) :
    Except Fault (Except SpdlogEx (Option Logger) × LogProcess) :=
  if p.koo.mIsInit = false then .ok (.ok none, p)
  else
    match p.get name with
    | some l => .ok (.ok (some l), p)
    | none => do
      let _ ← Fault.deref p.koo.mLogger
      match ← p.addLogger name with
      | (.ok (), p) => return (.ok (p.get name), p)
      | (.error e, p) => return (.error e, p)

def sinksOf (p : LogProcess) (l : Logger) : List Sink := l.sinks.filterMap (p.sinks[·]?)

@[simp] theorem furnish_registry (p : LogProcess) : p.furnish.registry = p.registry := by
  rw [furnish]
  split
  · rfl
  · rfl

@[simp] theorem furnish_mLoggerList (p : LogProcess) :
    p.furnish.koo.mLoggerList = p.koo.mLoggerList := by
  rw [furnish]
  split
  · rfl
  · rfl

theorem enroll_new {p : LogProcess} {l : Logger} (h : p.registry l.name = none) :
    p.enroll l = (.ok (), { p with
      registry := Function.update p.registry l.name (some l)
      koo := { p.koo with mLoggerList := p.koo.mLoggerList ++ [l] } }) := by
  have hno : ¬(p.registry l.name).isSome := by
    rw [h]
    exact Bool.false_ne_true
  simp only [enroll, registerLogger, if_neg hno]

theorem enroll_exists {p : LogProcess} {l : Logger} (h : (p.registry l.name).isSome) :
    p.enroll l = (.error (.alreadyExists l.name),
      { p with koo := { p.koo with mLoggerList := p.koo.mLoggerList ++ [l] } }) := by
  simp only [enroll, registerLogger, if_pos h]

theorem addLogger_initialised {p : LogProcess} {l : Logger} (hinit : ¬p.koo.mIsInit = false)
    (hl : p.koo.mLogger = some l) (name : StdString) :
    p.addLogger name =
      .ok ((p.furnish.makeLogger name).2.enroll (p.furnish.makeLogger name).1) := by
  simp only [addLogger, if_neg hinit, hl, Fault.deref, bind, Except.bind]
  rfl

end LogProcess

end Gortsp
