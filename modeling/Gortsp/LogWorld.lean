import Gortsp.LoggerConfig
import Gortsp.LoggerLines

namespace Gortsp
set_option autoImplicit true

def LevelEnum.value : LevelEnum → Nat
  | .trace => 0
  | .debug => 1
  | .info => 2
  | .warn => 3
  | .err => 4
  | .critical => 5
  | .off => 6

def StdString.chars (name : StdString) : List Char := name.bytes.map fun b => Char.ofNat b.toNat

/-- A sink at work: the lines that its file was given, each with the level of its message, and the
number of those that were there when `fflush` last went well. One that fails leaves them in the
buffer, and its result is dropped. -/
structure SinkFile where
  formatter : LineFormatter
  lines : List (LevelEnum × List Char)
  flushed : Nat

namespace SinkFile

def new (now : Nat) : SinkFile := ⟨.new fullPattern.toList now, [], 0⟩

def flush (f : SinkFile) (ok : Bool) : SinkFile :=
  if ok then { f with flushed := f.lines.length } else f

/-- The file takes the first `took` characters of the line. A sink of the console flushes itself;
the codes for colors that it puts into the line are left out. -/
def log (env : FormatEnv) (kind : SinkKind) (f : SinkFile) (msg : LogMsg) (took : Nat)
    (ok : Bool) : Except FormatFault SinkFile := do
  let (formatter, buf) ← f.formatter.format env msg
  let f : SinkFile := ⟨formatter, f.lines ++ [(msg.level, buf.dest.take took)], f.flushed⟩
  return if kind = .stdoutColor then f.flush ok else f

end SinkFile

structure LogWorld where
  process : LogProcess
  files : Nat → SinkFile

inductive LogStop where
  | fault (f : Fault)
  | format (f : FormatFault)

/-- A call on the singleton, a message given to one of the macros, with what each file takes of
its line, or the flush that spdlog makes every five seconds. `flushes` tells for which sinks an
`fflush` goes well meanwhile. -/
inductive LogEvent where
  | call (op : LogOp) (flushes : Nat → Bool) (now : Nat)
  | glog (name : StdString) (msg : LogMsg) (took : Nat → Nat) (flushes : Nat → Bool) (now : Nat)
  | flushAll (flushes : Nat → Bool)

/-- The loggers that spdlog knows: the default one, and those that the singleton registered. -/
def LogProcess.loggers (p : LogProcess) : List Logger :=
  (p.registry .empty).toList ++ p.koo.mLoggerList.filter fun l => p.registry l.name = some l

namespace LogWorld

def boot (now : Nat) : LogWorld := ⟨.boot, fun _ => .new now⟩

def setFile (w : LogWorld) (i : Nat) (f : SinkFile) : LogWorld :=
  { w with files := Function.update w.files i f }

def kind (w : LogWorld) (i : Nat) : SinkKind :=
  (w.process.sinks[i]?.map Sink.kind).getD .stdoutColor

def setFormatter (w : LogWorld) (sinks : List Nat) (pattern : String) (now : Nat) : LogWorld :=
  { w with files := fun i =>
      if i ∈ sinks then { w.files i with formatter := .new pattern.toList now } else w.files i }

def grown (w : LogWorld) (p : LogProcess) (now : Nat) : LogWorld where
  process := p
  files i := if w.process.sinks.length ≤ i ∧ i < p.sinks.length then .new now else w.files i

/-- A logger that was made has set the pattern of its sinks, which are all of the singleton. -/
def become (w : LogWorld) (p : LogProcess) (now : Nat) : LogWorld :=
  if p.made = w.process.made then w.grown p now
  else (w.grown p now).setFormatter p.koo.mSinks p.koo.mPattern now

def flush (flushes : Nat → Bool) (w : LogWorld) (l : Logger) : LogWorld :=
  l.sinks.foldl (fun w i => w.setFile i ((w.files i).flush (flushes i))) w

def flushAll (flushes : Nat → Bool) (w : LogWorld) (ls : List Logger) : LogWorld :=
  ls.foldl (flush flushes) w

/-- Of the calls only `uninitLogger` flushes, through the loggers of its list. -/
def flushFor (flushes : Nat → Bool) (w : LogWorld) : LogOp → LogWorld
  | .uninitLogger => w.flushAll flushes w.process.koo.mLoggerList
  | _ => w

/-- What is thrown is caught by the caller, as in `LogProcess.perform`. -/
def call (w : LogWorld) (op : LogOp) (flushes : Nat → Bool) (now : Nat) :
    Except Fault LogWorld := do
  let w := w.flushFor flushes op
  return w.become (← w.process.perform op) now

def sinkIt (env : FormatEnv) (msg : LogMsg) (took : Nat → Nat) (flushes : Nat → Bool)
    (w : LogWorld) (i : Nat) : Except FormatFault LogWorld := do
  return w.setFile i (← (w.files i).log env (w.kind i) msg (took i) (flushes i))

/-- A message carries the name of the logger. One that is below the logger's level is dropped. -/
def log (env : FormatEnv) (w : LogWorld) (l : Logger) (msg : LogMsg) (took : Nat → Nat)
    (flushes : Nat → Bool) : Except FormatFault LogWorld :=
  if msg.level.value ≥ l.level.value then do
    let w ← l.sinks.foldlM (sinkIt env { msg with loggerName := l.name.chars } took flushes) w
    return if msg.level.value ≥ l.flushLevel.value ∧ msg.level ≠ .off then w.flush flushes l
      else w
  else .ok w

/-- The logging macros. What `getLogger` throws goes to the caller. -/
def glog (env : FormatEnv) (w : LogWorld) (name : StdString) (msg : LogMsg) (took : Nat → Nat)
    (flushes : Nat → Bool) (now : Nat) : Except LogStop LogWorld :=
  if w.process.koo.mIsInit = true then do
    match ← (w.process.getLogger name).mapError .fault with
    | (.ok l, p) => do
      let l ← (Fault.deref l).mapError .fault
      ((w.become p now).log env l msg took flushes).mapError .format
    | (.error _, p) => return w.become p now
  else .ok w

def step (env : FormatEnv) (w : LogWorld) : LogEvent → Except LogStop LogWorld
  | .call op flushes now => (w.call op flushes now).mapError .fault
  | .glog name msg took flushes now => w.glog env name msg took flushes now
  | .flushAll flushes => .ok (w.flushAll flushes w.process.loggers)

end LogWorld

def fullText (env : FormatEnv) (msg : LogMsg) : List Char :=
  (fullLine (datetimeText (env.localtime (msg.time / 1000000000))) msg ⟨[], 0, 0⟩).dest ++ ['\n']

def lineOf (pattern : String) : FormatEnv → LogMsg → List Char :=
  if pattern = simpleLogPattern then simpleLine
  else if pattern = detailedLogPattern then detailedLine
  else fullText

structure LogRoute where
  level : LevelEnum
  sinks : List Nat
  pattern : String

def LogHistory.route (h : LogHistory) (name : StdString) : Option LogRoute :=
  match h.active, h.config with
  | true, some cfg =>
    if name = .empty then some ⟨.info, [0], fullPattern⟩
    else some ⟨(h.use cfg name).1, List.range' 1 (h.use cfg name).2.length, cfg.pattern⟩
  | _, _ => none

/-- What should be in the sinks, told by the calls alone: without loggers, formatters or caches. -/
structure LogBook where
  history : LogHistory
  lines : Nat → List (LevelEnum × List Char)

namespace LogBook

def empty : LogBook := ⟨.empty, fun _ => []⟩

def note (env : FormatEnv) (b : LogBook) (r : LogRoute) (msg : LogMsg) (took : Nat → Nat) :
    LogBook :=
  if msg.level.value ≥ r.level.value then
    { b with lines := fun i =>
        if i ∈ r.sinks then b.lines i ++ [(msg.level, (lineOf r.pattern env msg).take (took i))]
        else b.lines i }
  else b

def after (env : FormatEnv) (b : LogBook) : LogEvent → LogBook
  | .call op _ _ => { b with history := b.history.after op }
  | .glog name msg took _ _ =>
    match b.history.route name with
    | some r =>
      LogBook.note env { b with history := b.history.after (.getLogger name) } r
        { msg with loggerName := name.chars } took
    | none => b
  | .flushAll _ => b

end LogBook

end Gortsp
