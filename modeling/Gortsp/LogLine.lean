import Gortsp.PatternFormatter

namespace Gortsp
set_option autoImplicit true

/-- The fields of `std::tm` that are read, within their documented ranges. -/
structure Tm where
  sec : Fin 61
  min : Fin 60
  hour : Fin 24
  mday : Fin 32
  mon : Fin 12
  year : Nat
  wday : Fin 7

def Tm.zero : Tm := ⟨0, 0, 0, 0, 0, 0, 0⟩

structure SourceLoc where
  filename : List Char
  line : Nat
  funcname : List Char

def SourceLoc.isEmpty (loc : SourceLoc) : Bool := loc.line = 0

/-- Times are nanoseconds since the epoch. -/
structure LogMsg where
  loggerName : List Char
  level : LevelEnum
  time : Nat
  threadId : Nat
  source : SourceLoc
  payload : List Char

structure FormatEnv where
  localtime : Nat → Tm
  utcMinutesOffset : Tm → Int
  pid : Nat

/-- What goes wrong when a padder is given too much: it reads past its blanks, or it makes the
line shorter than nothing. The last one is a sink's, that prints past the end of a line. -/
inductive FormatFault where
  | pastBlanks
  | sizeUnderflow
  | pastLine
  deriving DecidableEq

def LevelEnum.toStringView : LevelEnum → List Char
  | .trace => "trace".toList
  | .debug => "debug".toList
  | .info => "info".toList
  | .warn => "warning".toList
  | .err => "error".toList
  | .critical => "critical".toList
  | .off => "off".toList

def LevelEnum.toShortCStr : LevelEnum → List Char
  | .trace => ['T']
  | .debug => ['D']
  | .info => ['I']
  | .warn => ['W']
  | .err => ['E']
  | .critical => ['C']
  | .off => ['O']

namespace FmtHelper

def appendInt (n : Nat) : List Char := Nat.toDigits 10 n

def countDigits (n : Nat) : Nat := if n < 10 then 1 else countDigits (n / 10) + 1

def pad2 (n : Nat) : List Char :=
  if n < 100 then [Nat.digitChar (n / 10), Nat.digitChar (n % 10)] else appendInt n

def pad3 (n : Nat) : List Char :=
  if n < 1000 then
    [Nat.digitChar (n / 100), Nat.digitChar (n % 100 / 10), Nat.digitChar (n % 100 % 10)]
  else appendInt n

def padUint (n width : Nat) : List Char :=
  List.replicate (width - countDigits n) '0' ++ appendInt n

def timeFraction (perSecond time : Nat) : Nat :=
  time / (1000000000 / perSecond) - time / 1000000000 * perSecond

end FmtHelper

open FmtHelper

namespace Tm

def ampm (tm : Tm) : List Char := if tm.hour.val ≥ 12 then ['P', 'M'] else ['A', 'M']

def to12h (tm : Tm) : Nat := if tm.hour.val > 12 then tm.hour.val - 12 else tm.hour.val

def days : Fin 7 → String
  | 0 => "Sun" | 1 => "Mon" | 2 => "Tue" | 3 => "Wed" | 4 => "Thu" | 5 => "Fri" | 6 => "Sat"

def fullDays : Fin 7 → String
  | 0 => "Sunday" | 1 => "Monday" | 2 => "Tuesday" | 3 => "Wednesday" | 4 => "Thursday"
  | 5 => "Friday" | 6 => "Saturday"

def months : Fin 12 → String
  | 0 => "Jan" | 1 => "Feb" | 2 => "Mar" | 3 => "Apr" | 4 => "May" | 5 => "Jun" | 6 => "Jul"
  | 7 => "Aug" | 8 => "Sept" | 9 => "Oct" | 10 => "Nov" | 11 => "Dec"

def fullMonths : Fin 12 → String
  | 0 => "January" | 1 => "February" | 2 => "March" | 3 => "April" | 4 => "May" | 5 => "June"
  | 6 => "July" | 7 => "August" | 8 => "September" | 9 => "October" | 10 => "November"
  | 11 => "December"

end Tm

def basename (filename : List Char) : List Char :=
  (filename.reverse.takeWhile (· ≠ '/')).reverse

/-- What the formatter of a flag remembers from one message to the next, if its class does. -/
structure Memo where
  lastUpdate : Nat
  offsetMinutes : Int
  lastMessageTime : Nat
  cacheTimestamp : Nat
  cachedDatetime : List Char

def Memo.new (now : Nat) : Memo := ⟨0, 0, now, 0, []⟩

def Units.perSecond : Units → Nat
  | .nanoseconds => 1000000000
  | .microseconds => 1000000
  | .milliseconds => 1000
  | .seconds => 1

/-- The size a formatter announces to its padder, and what it then appends. -/
structure Field where
  size : Nat
  text : List Char

def Field.of (text : List Char) : Field := ⟨text.length, text⟩

@[simp] theorem Field.of_text (text : List Char) : (Field.of text).text = text := rfl

def Memo.cachedOffset (memo : Memo) (env : FormatEnv) (msg : LogMsg) (tm : Tm) : Memo :=
  if msg.time - memo.lastUpdate ≥ 10000000000 then
    { memo with offsetMinutes := env.utcMinutesOffset tm, lastUpdate := msg.time }
  else memo

def zoneText (minutes : Int) : List Char :=
  (if minutes < 0 then '-' else '+') ::
    (pad2 (minutes.natAbs / 60) ++ ':' :: pad2 (minutes.natAbs % 60))

namespace Flag

/-- The field of a flag; nothing is appended for the source of a message that has none. -/
def field (env : FormatEnv) (memo : Memo) (msg : LogMsg) (tm : Tm) : Flag → Option Field
  | .name => some (.of msg.loggerName)
  | .level => some (.of msg.level.toStringView)
  | .shortLevel => some (.of msg.level.toShortCStr)
  | .t => some ⟨countDigits msg.threadId, appendInt msg.threadId⟩
  | .v => some (.of msg.payload)
  | .a => some (.of (Tm.days tm.wday).toList)
  | .A => some (.of (Tm.fullDays tm.wday).toList)
  | .b => some (.of (Tm.months tm.mon).toList)
  | .B => some (.of (Tm.fullMonths tm.mon).toList)
  | .c => some ⟨24, (Tm.days tm.wday).toList ++ ' ' :: (Tm.months tm.mon).toList ++
      ' ' :: appendInt tm.mday.val ++ ' ' :: pad2 tm.hour.val ++ ':' :: pad2 tm.min.val ++
      ':' :: pad2 tm.sec.val ++ ' ' :: appendInt (tm.year + 1900)⟩
  | .C => some ⟨2, pad2 (tm.year % 100)⟩
  | .Y => some ⟨4, appendInt (tm.year + 1900)⟩
  | .D => some ⟨10, pad2 (tm.mon.val + 1) ++ '/' :: pad2 tm.mday.val ++
      '/' :: pad2 (tm.year % 100)⟩
  | .m => some ⟨2, pad2 (tm.mon.val + 1)⟩
  | .d => some ⟨2, pad2 tm.mday.val⟩
  | .H => some ⟨2, pad2 tm.hour.val⟩
  | .I => some ⟨2, pad2 tm.to12h⟩
  | .M => some ⟨2, pad2 tm.min.val⟩
  | .S => some ⟨2, pad2 tm.sec.val⟩
  | .e => some ⟨3, pad3 (timeFraction 1000 msg.time)⟩
  | .f => some ⟨6, padUint (timeFraction 1000000 msg.time) 6⟩
  | .F => some ⟨9, padUint (timeFraction 1000000000 msg.time) 9⟩
  | .E => some ⟨10, appendInt (msg.time / 1000000000)⟩
  | .p => some ⟨2, tm.ampm⟩
  | .r => some ⟨11, pad2 tm.to12h ++ ':' :: pad2 tm.min.val ++ ':' :: pad2 tm.sec.val ++
      ' ' :: tm.ampm⟩
  | .R => some ⟨5, pad2 tm.hour.val ++ ':' :: pad2 tm.min.val⟩
  | .T => some ⟨8, pad2 tm.hour.val ++ ':' :: pad2 tm.min.val ++ ':' :: pad2 tm.sec.val⟩
  | .z => some ⟨6, zoneText (memo.cachedOffset env msg tm).offsetMinutes⟩
  | .pid => some ⟨countDigits env.pid, appendInt env.pid⟩
  | .sourceLocation =>
    if msg.source.isEmpty then none
    else some ⟨msg.source.filename.length + countDigits msg.source.line + 1,
      msg.source.filename ++ ':' :: appendInt msg.source.line⟩
  | .shortFilename =>
    if msg.source.isEmpty then none else some (.of (basename msg.source.filename))
  | .sourceFilename => if msg.source.isEmpty then none else some (.of msg.source.filename)
  | .sourceLinenum =>
    if msg.source.isEmpty then none
    else some ⟨countDigits msg.source.line, appendInt msg.source.line⟩
  | .sourceFuncname => if msg.source.isEmpty then none else some (.of msg.source.funcname)
  | .elapsed units =>
    let delta := (msg.time - memo.lastMessageTime) / (1000000000 / units.perSecond)
    some ⟨countDigits delta, appendInt delta⟩

def remember (env : FormatEnv) (memo : Memo) (msg : LogMsg) (tm : Tm) : Flag → Memo
  | .z => memo.cachedOffset env msg tm
  | .elapsed _ => { memo with lastMessageTime := msg.time }
  | _ => memo

end Flag

structure LineBuf where
  dest : List Char
  colorStart : Nat
  colorEnd : Nat

def padIt (count : Int) (dest : List Char) : Except FormatFault (List Char) :=
  if count ≤ 64 then .ok (dest ++ List.replicate count.toNat ' ') else .error .pastBlanks

/-- The constructor of a `scoped_padder`: the blanks it appends, and what it leaves in
`remaining_pad_`. -/
def scopedPad (padding : PaddingInfo) (wrappedSize : Nat) : Int × Int :=
  let remaining : Int := padding.width - wrappedSize
  if remaining ≤ 0 then (0, remaining)
  else
    match padding.side with
    | .left => (remaining, 0)
    | .center => (remaining / 2, remaining / 2 + remaining % 2)
    | .right => (0, remaining)

def scopedPadder (padding : PaddingInfo) (field : Field) (dest : List Char) :
    Except FormatFault (List Char) := do
  let (before, remaining) := scopedPad padding field.size
  let dest ← padIt before dest
  let dest := dest ++ field.text
  if remaining ≥ 0 then padIt remaining dest
  else if padding.truncate = true then
    if (dest.length : Int) + remaining < 0 then .error .sizeUnderflow
    else .ok (dest.take ((dest.length : Int) + remaining).toNat)
  else .ok dest

def appendField (padding : PaddingInfo) (field : Field) (dest : List Char) :
    Except FormatFault (List Char) :=
  if padding.enabled = true then scopedPadder padding field dest else .ok (dest ++ field.text)

def datetimeText (tm : Tm) : List Char :=
  '[' :: appendInt (tm.year + 1900) ++ '-' :: pad2 (tm.mon.val + 1) ++ '-' :: pad2 tm.mday.val ++
    ' ' :: pad2 tm.hour.val ++ ':' :: pad2 tm.min.val ++ ':' :: pad2 tm.sec.val ++ ['.']

def Memo.cachedDatetimeAt (memo : Memo) (msg : LogMsg) (tm : Tm) : Memo :=
  if memo.cacheTimestamp ≠ msg.time / 1000000000 ∨ memo.cachedDatetime.length = 0 then
    { memo with cachedDatetime := datetimeText tm, cacheTimestamp := msg.time / 1000000000 }
  else memo

def bracketed (text : List Char) : List Char := '[' :: text ++ [']', ' ']

def fullLine (datetime : List Char) (msg : LogMsg) (buf : LineBuf) : LineBuf :=
  let dest := buf.dest ++ datetime ++ pad3 (timeFraction 1000 msg.time) ++ [']', ' '] ++
    (if msg.loggerName.length > 0 then bracketed msg.loggerName else []) ++ ['[']
  let level := msg.level.toStringView
  { dest := dest ++ level ++ [']', ' '] ++
      (if msg.source.isEmpty then []
        else bracketed (basename msg.source.filename ++ ':' :: appendInt msg.source.line)) ++
      msg.payload
    colorStart := dest.length
    colorEnd := dest.length + level.length }

def Formatter.format (env : FormatEnv) (msg : LogMsg) (tm : Tm) (memo : Memo) (buf : LineBuf) :
    Formatter → Except FormatFault (Memo × LineBuf)
  | .full =>
    let memo := memo.cachedDatetimeAt msg tm
    .ok (memo, fullLine memo.cachedDatetime msg buf)
  | .flag kind padding =>
    match kind.field env memo msg tm with
    | some field => do
      let dest ← appendField padding field buf.dest
      return (kind.remember env memo msg tm, { buf with dest })
    | none => .ok (kind.remember env memo msg tm, buf)
  | .colorStart => .ok (memo, { buf with colorStart := buf.dest.length })
  | .colorStop => .ok (memo, { buf with colorEnd := buf.dest.length })
  | .ch c => .ok (memo, { buf with dest := buf.dest ++ [c] })
  | .aggregate str => .ok (memo, { buf with dest := buf.dest ++ str })

/-- A `pattern_formatter` after its construction, with the local time of the last second in which
it was used. -/
structure LineFormatter where
  formatters : List (Formatter × Memo)
  cachedTm : Tm
  lastLogSecs : Nat

namespace LineFormatter

def new (pattern : List Char) (now : Nat) : LineFormatter :=
  ⟨(PatternFormatter.compile pattern).map (·, .new now), .zero, 0⟩

def formatAll (env : FormatEnv) (msg : LogMsg) (tm : Tm) (buf : LineBuf) :
    List (Formatter × Memo) → Except FormatFault (List (Formatter × Memo) × LineBuf)
  | [] => .ok ([], buf)
  | (f, memo) :: rest => do
    let (memo, buf) ← f.format env msg tm memo buf
    let (rest, buf) ← formatAll env msg tm buf rest
    return ((f, memo) :: rest, buf)

def refresh (f : LineFormatter) (env : FormatEnv) (msg : LogMsg) : LineFormatter :=
  if msg.time / 1000000000 ≠ f.lastLogSecs then
    { f with
      cachedTm := env.localtime (msg.time / 1000000000)
      lastLogSecs := msg.time / 1000000000 }
  else f

def format (env : FormatEnv) (f : LineFormatter) (msg : LogMsg) :
    Except FormatFault (LineFormatter × LineBuf) := do
  let f := f.refresh env msg
  let (formatters, buf) ← formatAll env msg f.cachedTm ⟨[], 0, 0⟩ f.formatters
  return ({ f with formatters }, { buf with dest := buf.dest ++ ['\n'] })

end LineFormatter

def printRange (formatted : List Char) (first last : Nat) : Except FormatFault (List Char) :=
  if last ≤ formatted.length then .ok ((formatted.take last).drop first) else .error .pastLine

def printColored (shouldDoColors : Bool) (color reset : List Char) (buf : LineBuf) :
    Except FormatFault (List Char) :=
  if shouldDoColors = true ∧ buf.colorEnd > buf.colorStart then do
    let before ← printRange buf.dest 0 buf.colorStart
    let inside ← printRange buf.dest buf.colorStart buf.colorEnd
    let after ← printRange buf.dest buf.colorEnd buf.dest.length
    return before ++ color ++ inside ++ reset ++ after
  else printRange buf.dest 0 buf.dest.length

end Gortsp
