import Gortsp.LogLineRuns

namespace Gortsp
set_option autoImplicit true

open PatternFormatter FmtHelper

def PatternFormatter.Item.plain (flag : Char) (h : flag.isDigit = false) : Item :=
  .directive .none flag (.inl ⟨rfl, h⟩)

def PatternFormatter.Item.aligned (width : Nat) (flag : Char)
    (h : width ≤ maxWidth ∧ flag.isDigit = false ∧ flag ≠ '!') : Item :=
  .directive ⟨width, .left, false, true⟩ flag (.inr ⟨rfl, h.1, .inr h.2⟩)

def simpleItems : List Item :=
  [Item.plain 'D' rfl, .text [' '] (by decide) (by decide), Item.plain 'T' rfl,
    .text [':'] (by decide) (by decide), Item.plain 'e' rfl,
    .text [' '] (by decide) (by decide), Item.aligned 5 't' (by decide),
    .text [' '] (by decide) (by decide), Item.plain '^' rfl, Item.plain 'L' rfl,
    Item.plain '$' rfl, .text [':', ' ', '['] (by decide) (by decide), Item.plain 'n' rfl,
    .text [']', ' '] (by decide) (by decide), Item.plain 'v' rfl,
    .text [' ', ';', ' ', '('] (by decide) (by decide), Item.plain 's' rfl,
    .text [':'] (by decide) (by decide), Item.plain '#' rfl,
    .text [')'] (by decide) (by decide)]

def detailedItems : List Item :=
  [Item.plain 't' rfl, .text [' ', '['] (by decide) (by decide), Item.plain 'D' rfl,
    .text [' '] (by decide) (by decide), Item.plain 'T' rfl,
    .text [':'] (by decide) (by decide), Item.plain 'e' rfl,
    .text [']', '['] (by decide) (by decide), Item.plain '^' rfl,
    Item.aligned 7 'l' (by decide), Item.plain '$' rfl,
    .text [']', '['] (by decide) (by decide), Item.plain 'n' rfl,
    .text [']', ' '] (by decide) (by decide), Item.plain 'v' rfl,
    .text [' ', '('] (by decide) (by decide), Item.plain '!' rfl,
    .text [' '] (by decide) (by decide), Item.plain 's' rfl,
    .text [':'] (by decide) (by decide), Item.plain '#' rfl,
    .text [')'] (by decide) (by decide)]

def logItems (isSimpleLog : Bool) : List Item := if isSimpleLog then simpleItems else detailedItems

def logPattern (isSimpleLog : Bool) : List Char :=
  (if isSimpleLog then simpleLogPattern else detailedLogPattern).toList

theorem logItems_separated (isSimpleLog : Bool) : Separated (logItems isSimpleLog) := by
  cases isSimpleLog with
  | true =>
    change Separated simpleItems
    simp [simpleItems, Separated, Item.isText, Item.plain, Item.aligned]
  | false =>
    change Separated detailedItems
    simp [detailedItems, Separated, Item.isText, Item.plain, Item.aligned]

theorem render_logItems (isSimpleLog : Bool) :
    render (logItems isSimpleLog) = logPattern isSimpleLog := by
  cases isSimpleLog with
  | true => decide
  | false => decide

theorem compile_logPattern (isSimpleLog : Bool) : compile (logPattern isSimpleLog) =
    (logItems isSimpleLog).flatMap Item.formatters := by
  rw [← render_logItems, compile_parse, parse_render (logItems_separated isSimpleLog)]

def dateText (env : FormatEnv) (msg : LogMsg) : List Char :=
  let tm := env.localtime (msg.time / 1000000000)
  pad2 (tm.mon.val + 1) ++ ['/'] ++ pad2 tm.mday.val ++ ['/'] ++ pad2 (tm.year % 100) ++ [' '] ++
    pad2 tm.hour.val ++ [':'] ++ pad2 tm.min.val ++ [':'] ++ pad2 tm.sec.val ++ [':'] ++
    pad3 (timeFraction 1000 msg.time)

def aligned (width : Nat) (text : List Char) : List Char :=
  List.replicate (width - text.length) ' ' ++ text

/-- Where a message comes from; a message without a source leaves the colon alone. -/
def sourceText (msg : LogMsg) : List Char :=
  if msg.source.isEmpty then [':']
  else basename msg.source.filename ++ [':'] ++ appendInt msg.source.line

def funcText (msg : LogMsg) : List Char := if msg.source.isEmpty then [] else msg.source.funcname

def simpleLine (env : FormatEnv) (msg : LogMsg) : List Char :=
  dateText env msg ++ [' '] ++ aligned 5 (appendInt msg.threadId) ++ [' '] ++
    msg.level.toShortCStr ++ [':', ' ', '['] ++ msg.loggerName ++ [']', ' '] ++ msg.payload ++
    [' ', ';', ' ', '('] ++ sourceText msg ++ [')', '\n']

def detailedLine (env : FormatEnv) (msg : LogMsg) : List Char :=
  appendInt msg.threadId ++ [' ', '['] ++ dateText env msg ++ [']', '['] ++
    aligned 7 msg.level.toStringView ++ [']', '['] ++ msg.loggerName ++ [']', ' '] ++
    msg.payload ++ [' ', '('] ++ funcText msg ++ [' '] ++ sourceText msg ++ [')', '\n']

def logLine (isSimpleLog : Bool) : FormatEnv → LogMsg → List Char :=
  if isSimpleLog then simpleLine else detailedLine

theorem padded_aligned (width : Nat) {field : Field} (h : field.size = field.text.length) :
    PaddingInfo.padded ⟨width, .left, false, true⟩ field = aligned width field.text := by
  rw [PaddingInfo.padded, if_pos rfl, aligned, ← h]
  by_cases hlt : field.size < width
  · rw [if_pos hlt]
  · have hzero : width - field.size = 0 := by omega
    rw [if_neg hlt, hzero]
    rfl

theorem padded_none (field : Field) : PaddingInfo.none.padded field = field.text := rfl

theorem simpleItems_formatters : simpleItems.flatMap Item.formatters =
    [.flag .D .none, .aggregate [' '], .flag .T .none, .aggregate [':'], .flag .e .none,
      .aggregate [' '], .flag .t ⟨5, .left, false, true⟩, .aggregate [' '], .colorStart,
      .flag .shortLevel .none, .colorStop, .aggregate [':', ' ', '['], .flag .name .none,
      .aggregate [']', ' '], .flag .v .none, .aggregate [' ', ';', ' ', '('],
      .flag .shortFilename .none, .aggregate [':'], .flag .sourceLinenum .none,
      .aggregate [')']] := rfl

theorem detailedItems_formatters : detailedItems.flatMap Item.formatters =
    [.flag .t .none, .aggregate [' ', '['], .flag .D .none, .aggregate [' '], .flag .T .none,
      .aggregate [':'], .flag .e .none, .aggregate [']', '['], .colorStart,
      .flag .level ⟨7, .left, false, true⟩, .colorStop, .aggregate [']', '['],
      .flag .name .none, .aggregate [']', ' '], .flag .v .none, .aggregate [' ', '('],
      .flag .sourceFuncname .none, .aggregate [' '], .flag .shortFilename .none,
      .aggregate [':'], .flag .sourceLinenum .none, .aggregate [')']] := rfl

theorem plainLine_simple (env : FormatEnv) (msg : LogMsg) :
    plainLine env (simpleItems.flatMap Item.formatters) msg = simpleLine env msg := by
  rw [simpleItems_formatters, plainLine, simpleLine, sourceText]
  have htid : PaddingInfo.padded ⟨5, .left, false, true⟩
      ⟨countDigits msg.threadId, appendInt msg.threadId⟩ = aligned 5 (appendInt msg.threadId) :=
    padded_aligned 5 (countDigits_eq _)
  cases hsource : msg.source.isEmpty with
  | true =>
    simp [Formatter.piece, Flag.field, padded_none, htid, hsource, dateText]
  | false =>
    simp [Formatter.piece, Flag.field, padded_none, htid, hsource, dateText]

theorem plainLine_detailed (env : FormatEnv) (msg : LogMsg) :
    plainLine env (detailedItems.flatMap Item.formatters) msg = detailedLine env msg := by
  rw [detailedItems_formatters, plainLine, detailedLine, sourceText, funcText]
  have hlevel : PaddingInfo.padded ⟨7, .left, false, true⟩ (.of msg.level.toStringView) =
      aligned 7 msg.level.toStringView :=
    padded_aligned 7 rfl
  cases hsource : msg.source.isEmpty with
  | true =>
    simp [Formatter.piece, Flag.field, padded_none, hlevel, hsource, dateText]
  | false =>
    simp [Formatter.piece, Flag.field, padded_none, hlevel, hsource, dateText]

theorem plainLine_logPattern (isSimpleLog : Bool) (env : FormatEnv) (msg : LogMsg) :
    plainLine env (compile (logPattern isSimpleLog)) msg = logLine isSimpleLog env msg := by
  rw [compile_logPattern]
  cases isSimpleLog with
  | true => exact plainLine_simple env msg
  | false => exact plainLine_detailed env msg

theorem logPattern_formatters (isSimpleLog : Bool) :
    ∀ f ∈ compile (logPattern isSimpleLog), f.Steady ∧ f.Timeless := by
  rw [compile_logPattern]
  cases isSimpleLog with
  | true =>
    change ∀ f ∈ simpleItems.flatMap Item.formatters, f.Steady ∧ f.Timeless
    rw [simpleItems_formatters]
    decide
  | false =>
    change ∀ f ∈ detailedItems.flatMap Item.formatters, f.Steady ∧ f.Timeless
    rw [detailedItems_formatters]
    decide

/-- The lines of either pattern show what their messages say, in the order of the messages. -/
theorem logger_lines (isSimpleLog : Bool) (env : FormatEnv) (now : Nat) {msgs : List LogMsg}
    (hsecs : ∀ msg ∈ msgs, msg.time / 1000000000 ≠ 0) :
    ∃ bufs, LineFormatter.formatRun env (.new (logPattern isSimpleLog) now) msgs = .ok bufs ∧
      bufs.map LineBuf.dest = msgs.map (logLine isSimpleLog env) := by
  have hall := logPattern_formatters isSimpleLog
  have hkeep := LineFormatter.new_formatters (logPattern isSimpleLog) now
  have hsafe := LineFormatter.new_safe (fun f hf => (hall f hf).1) now
  have htimeless : ∀ f ∈ (LineFormatter.new (logPattern isSimpleLog) now).formatters.map Prod.fst,
      f.Timeless := by
    rw [hkeep]
    exact fun f hf => (hall f hf).2
  obtain ⟨bufs, hrun, hlines⟩ :=
    LineFormatter.formatRun_plain hsafe (LineFormatter.new_fresh env _ now) htimeless hsecs
  refine ⟨bufs, hrun, ?_⟩
  rw [hlines, hkeep]
  exact List.map_congr_left fun msg _ => plainLine_logPattern isSimpleLog env msg

theorem logger_lines_one : ∃ (env : FormatEnv) (msg : LogMsg) (bufs : List LineBuf),
    LineFormatter.formatRun env (.new (logPattern true) 0) [msg] = .ok bufs ∧
      bufs.map LineBuf.dest = [logLine true env msg] :=
  ⟨⟨fun _ => .zero, fun _ => 0, 1⟩, ⟨['a'], .err, 1000000000, 7, ⟨['/', 'f'], 3, []⟩, ['b']⟩,
    logger_lines true _ 0 (List.forall_mem_singleton.2 (by decide))⟩

end Gortsp
