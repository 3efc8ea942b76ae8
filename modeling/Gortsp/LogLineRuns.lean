import Gortsp.LogLineFields

namespace Gortsp
set_option autoImplicit true

open PatternFormatter (compile paddingOf maxWidth)

/-- Where a formatter cuts its text, it knows the size of that text. -/
def Formatter.Steady : Formatter → Prop
  | .flag kind padding => padding.truncate = true → kind.sized = true
  | _ => True

instance : DecidablePred Formatter.Steady
  | .flag kind padding => inferInstanceAs (Decidable (padding.truncate = true → kind.sized = true))
  | .full | .colorStart | .colorStop | .ch _ | .aggregate _ => isTrue trivial

def Formatter.piece (env : FormatEnv) (msg : LogMsg) (tm : Tm) (memo : Memo) :
    Formatter → List Char
  | .full => (fullLine (memo.cachedDatetimeAt msg tm).cachedDatetime msg ⟨[], 0, 0⟩).dest
  | .flag kind padding =>
    match kind.field env memo msg tm with
    | some field => padding.padded field
    | none => []
  | .colorStart | .colorStop => []
  | .ch c => [c]
  | .aggregate str => str

def Formatter.next (env : FormatEnv) (msg : LogMsg) (tm : Tm) (memo : Memo) : Formatter → Memo
  | .full => memo.cachedDatetimeAt msg tm
  | .flag kind _ => kind.remember env memo msg tm
  | _ => memo

def LineBuf.Marked (buf : LineBuf) : Prop :=
  buf.colorStart ≤ buf.dest.length ∧ buf.colorEnd ≤ buf.dest.length

theorem LineBuf.Marked.append {buf : LineBuf} (h : buf.Marked) (text : List Char) :
    LineBuf.Marked { buf with dest := buf.dest ++ text } := by
  obtain ⟨hstart, hend⟩ := h
  constructor
  · exact hstart.trans (List.prefix_append _ _).length_le
  · exact hend.trans (List.prefix_append _ _).length_le

theorem fullLine_dest (datetime : List Char) (msg : LogMsg) (buf : LineBuf) :
    (fullLine datetime msg buf).dest = buf.dest ++ (fullLine datetime msg ⟨[], 0, 0⟩).dest := by
  simp only [fullLine, List.append_assoc, List.nil_append]

theorem fullLine_marked (datetime : List Char) (msg : LogMsg) (buf : LineBuf) :
    (fullLine datetime msg buf).Marked := by
  constructor
  · simp only [fullLine, List.length_append]
    omega
  · simp only [fullLine, List.length_append]
    omega

theorem Formatter.format_eq {f : Formatter} (hwidth : (paddingOf f).width ≤ maxWidth)
    (hsteady : f.Steady) (env : FormatEnv) (msg : LogMsg) (tm : Tm) (memo : Memo)
    {buf : LineBuf} (hbuf : buf.Marked) :
    ∃ buf', f.format env msg tm memo buf = .ok (f.next env msg tm memo, buf') ∧
      buf'.dest = buf.dest ++ f.piece env msg tm memo ∧ buf'.Marked := by
  cases f with
  | full =>
    exact ⟨_, rfl, fullLine_dest _ _ _, fullLine_marked _ _ _⟩
  | flag kind padding =>
    cases hfield : kind.field env memo msg tm with
    | none =>
      refine ⟨buf, ?_, ?_, hbuf⟩
      · simp only [Formatter.format, hfield, Formatter.next]
      · simp only [Formatter.piece, hfield, List.append_nil]
    | some field =>
      have happend : appendField padding field buf.dest =
          .ok (buf.dest ++ padding.padded field) :=
        appendField_eq hwidth
          (fun htruncate => Flag.field_sized (hsteady htruncate) hfield) buf.dest
      refine ⟨_, ?_, ?_, hbuf.append (padding.padded field)⟩
      · simp only [Formatter.format, hfield, happend, Formatter.next]
        rfl
      · simp only [Formatter.piece, hfield]
  | colorStart =>
    exact ⟨_, rfl, (List.append_nil _).symm, Nat.le_refl _, hbuf.2⟩
  | colorStop =>
    exact ⟨_, rfl, (List.append_nil _).symm, hbuf.1, Nat.le_refl _⟩
  | ch c => exact ⟨_, rfl, rfl, hbuf.append [c]⟩
  | aggregate str => exact ⟨_, rfl, rfl, hbuf.append str⟩

namespace LineFormatter

variable {env : FormatEnv} {msg : LogMsg} {f f' : LineFormatter}

def Safe (fs : List (Formatter × Memo)) : Prop :=
  ∀ p ∈ fs, (paddingOf p.1).width ≤ maxWidth ∧ p.1.Steady

def nextAll (env : FormatEnv) (msg : LogMsg) (tm : Tm) (fs : List (Formatter × Memo)) :
    List (Formatter × Memo) :=
  fs.map fun p => (p.1, p.1.next env msg tm p.2)

def pieces (env : FormatEnv) (msg : LogMsg) (tm : Tm) (fs : List (Formatter × Memo)) :
    List Char :=
  fs.flatMap fun p => p.1.piece env msg tm p.2

theorem formatAll_eq {fs : List (Formatter × Memo)} (h : Safe fs) (env : FormatEnv)
    (msg : LogMsg) (tm : Tm) {buf : LineBuf} (hbuf : buf.Marked) :
    ∃ buf', formatAll env msg tm buf fs = .ok (nextAll env msg tm fs, buf') ∧
      buf'.dest = buf.dest ++ pieces env msg tm fs ∧ buf'.Marked := by
  induction fs generalizing buf with
  | nil => exact ⟨buf, rfl, (List.append_nil _).symm, hbuf⟩
  | cons p fs ih =>
    obtain ⟨⟨hwidth, hsteady⟩, hrest⟩ := List.forall_mem_cons.1 h
    obtain ⟨buf₁, hf, hdest₁, hbuf₁⟩ := p.1.format_eq hwidth hsteady env msg tm p.2 hbuf
    obtain ⟨buf₂, hfs, hdest₂, hbuf₂⟩ := ih hrest hbuf₁
    refine ⟨buf₂, ?_, ?_, hbuf₂⟩
    · simp only [formatAll, hf, hfs, bind, Except.bind]
      rfl
    · rw [hdest₂, hdest₁, List.append_assoc]
      rfl

def after (env : FormatEnv) (f : LineFormatter) (msg : LogMsg) : LineFormatter :=
  { f.refresh env msg with
    formatters := nextAll env msg (f.refresh env msg).cachedTm (f.refresh env msg).formatters }

theorem refresh_formatters (f : LineFormatter) (env : FormatEnv) (msg : LogMsg) :
    (f.refresh env msg).formatters = f.formatters := by
  rw [refresh]
  split
  · rfl
  · rfl

theorem format_eq (h : Safe f.formatters) (env : FormatEnv) (msg : LogMsg) :
    ∃ buf, f.format env msg = .ok (f.after env msg, buf) ∧ buf.Marked ∧
      buf.dest = pieces env msg (f.refresh env msg).cachedTm f.formatters ++ ['\n'] := by
  have hmarked : LineBuf.Marked ⟨[], 0, 0⟩ := ⟨Nat.le_refl 0, Nat.le_refl 0⟩
  rw [← refresh_formatters f env msg] at h
  obtain ⟨buf, hall, hdest, hbuf⟩ :=
    formatAll_eq h env msg (f.refresh env msg).cachedTm hmarked
  refine ⟨{ buf with dest := buf.dest ++ ['\n'] }, ?_, hbuf.append ['\n'], ?_⟩
  · simp only [format, hall, bind, Except.bind]
    rfl
  · rw [refresh_formatters] at hdest
    simp only [hdest]
    rfl

theorem after_safe (h : Safe f.formatters) (env : FormatEnv) (msg : LogMsg) :
    Safe (f.after env msg).formatters := by
  intro p hp
  obtain ⟨q, hq, rfl⟩ := List.mem_map.1 hp
  rw [refresh_formatters] at hq
  exact h q hq

theorem new_safe {pattern : List Char} (h : ∀ f ∈ compile pattern, f.Steady) (now : Nat) :
    Safe (new pattern now).formatters := by
  intro p hp
  obtain ⟨f, hf, rfl⟩ := List.mem_map.1 hp
  exact ⟨PatternFormatter.compile_width_le pattern f hf, h f hf⟩

def formatRun (env : FormatEnv) (f : LineFormatter) :
    List LogMsg → Except FormatFault (List LineBuf)
  | [] => .ok []
  | msg :: msgs => do
    let (f, buf) ← f.format env msg
    let bufs ← formatRun env f msgs
    return buf :: bufs

end LineFormatter

/-- The line reaches the console as it is, or with a color put on a part of it. -/
def LineBuf.PrintsAs (buf : LineBuf) (color reset out : List Char) : Prop :=
  out = buf.dest ∨ ∃ before inside after, buf.dest = before ++ inside ++ after ∧
    out = before ++ color ++ inside ++ reset ++ after

theorem printRange_eq {formatted : List Char} (h : last ≤ formatted.length) (first : Nat) :
    printRange formatted first last = .ok ((formatted.take last).drop first) := if_pos h

theorem printColored_eq {buf : LineBuf} (h : buf.Marked) (shouldDoColors : Bool)
    (color reset : List Char) :
    ∃ out, printColored shouldDoColors color reset buf = .ok out ∧
      buf.PrintsAs color reset out := by
  rw [printColored]
  by_cases hcolor : shouldDoColors = true ∧ buf.colorEnd > buf.colorStart
  · rw [if_pos hcolor]
    refine ⟨(buf.dest.take buf.colorStart).drop 0 ++ color ++
      (buf.dest.take buf.colorEnd).drop buf.colorStart ++ reset ++
      (buf.dest.take buf.dest.length).drop buf.colorEnd, ?_, .inr ⟨_, _, _, ?_, rfl⟩⟩
    · simp only [printRange_eq h.1, printRange_eq h.2, printRange_eq (Nat.le_refl _), bind,
        Except.bind]
      rfl
    · have hsplit := List.take_append_drop buf.colorStart (buf.dest.take buf.colorEnd)
      rw [List.take_take, Nat.min_eq_left (Nat.le_of_lt hcolor.2)] at hsplit
      rw [List.drop_zero, hsplit, List.take_length, List.take_append_drop]
  · rw [if_neg hcolor]
    refine ⟨buf.dest, ?_, .inl rfl⟩
    rw [printRange_eq (Nat.le_refl _), List.take_length, List.drop_zero]

namespace LineFormatter

theorem formatRun_marked {f : LineFormatter} (h : Safe f.formatters) (env : FormatEnv)
    (msgs : List LogMsg) :
    ∃ bufs, formatRun env f msgs = .ok bufs ∧ bufs.length = msgs.length ∧
      ∀ buf ∈ bufs, buf.Marked := by
  induction msgs generalizing f with
  | nil => exact ⟨[], rfl, rfl, fun buf hbuf => (List.not_mem_nil hbuf).elim⟩
  | cons msg msgs ih =>
    obtain ⟨buf, hformat, hbuf, -⟩ := format_eq h env msg
    obtain ⟨bufs, hrun, hlen, hbufs⟩ := ih (after_safe h env msg)
    refine ⟨buf :: bufs, ?_, ?_, ?_⟩
    · simp only [formatRun, hformat, hrun, bind, Except.bind]
      rfl
    · rw [List.length_cons, List.length_cons, hlen]
    · exact List.forall_mem_cons.2 ⟨hbuf, hbufs⟩

/-- A pattern that cuts only texts of known size formats every sequence of messages, without a
padder going wrong, and a console sink prints each line, whatever it is, with at most a color
put on a part of it. -/
theorem prints {pattern : List Char} (h : ∀ f ∈ compile pattern, f.Steady) (env : FormatEnv)
    (now : Nat) (msgs : List LogMsg) :
    ∃ bufs, formatRun env (new pattern now) msgs = .ok bufs ∧ bufs.length = msgs.length ∧
      ∀ buf ∈ bufs, ∀ shouldDoColors color reset, ∃ out,
        printColored shouldDoColors color reset buf = .ok out ∧
          buf.PrintsAs color reset out := by
  obtain ⟨bufs, hrun, hlen, hbufs⟩ := formatRun_marked (new_safe h now) env msgs
  exact ⟨bufs, hrun, hlen, fun buf hbuf _ color reset => printColored_eq (hbufs buf hbuf) _ _ _⟩

theorem compile_message : compile ['%', 'v'] = [.flag .v .none] := by
  rw [PatternFormatter.compile_parse, PatternFormatter.parse_directive rfl,
    PatternFormatter.parse_nil]
  rfl

theorem prints_message : ∃ (env : FormatEnv) (msg : LogMsg) (bufs : List LineBuf),
    formatRun env (new ['%', 'v'] 0) [msg] = .ok bufs ∧ bufs.length = 1 ∧
      ∀ buf ∈ bufs, ∀ shouldDoColors color reset, ∃ out,
        printColored shouldDoColors color reset buf = .ok out ∧
          buf.PrintsAs color reset out := by
  have hsteady : ∀ f ∈ compile ['%', 'v'], f.Steady := by
    rw [compile_message]
    decide
  exact ⟨⟨fun _ => .zero, fun _ => 0, 1⟩, ⟨['a'], .info, 1, 1, ⟨[], 0, []⟩, ['b']⟩,
    prints hsteady _ 0 [_]⟩

end LineFormatter

/-- The formatter looks at nothing but the message and its local time, apart from caches. -/
def Formatter.Timeless : Formatter → Prop
  | .flag .z _ | .flag (.elapsed _) _ => False
  | _ => True

instance : DecidablePred Formatter.Timeless
  | .flag kind _ =>
    match kind with
    | .z | .elapsed _ => isFalse id
    | .name | .level | .shortLevel | .t | .v | .a | .A | .b | .B | .c | .C | .Y | .D | .m | .d
    | .H | .I | .M | .S | .e | .f | .F | .E | .p | .r | .R | .T | .pid | .sourceLocation
    | .shortFilename | .sourceFilename | .sourceLinenum | .sourceFuncname => isTrue trivial
  | .full | .colorStart | .colorStop | .ch _ | .aggregate _ => isTrue trivial

def Memo.Fresh (env : FormatEnv) (memo : Memo) : Prop :=
  memo.cachedDatetime = [] ∨
    memo.cachedDatetime = datetimeText (env.localtime memo.cacheTimestamp)

/-- The cached local time is that of the cached second, unless nothing has been logged yet. -/
structure LineFormatter.Fresh (env : FormatEnv) (f : LineFormatter) : Prop where
  tm : f.lastLogSecs = 0 ∨ f.cachedTm = env.localtime f.lastLogSecs
  memos : ∀ p ∈ f.formatters, p.2.Fresh env

section Caches

variable {env : FormatEnv} {msg : LogMsg} {memo : Memo}

theorem cachedDatetimeAt_eq (h : memo.Fresh env) :
    (memo.cachedDatetimeAt msg (env.localtime (msg.time / 1000000000))).cachedDatetime =
      datetimeText (env.localtime (msg.time / 1000000000)) := by
  rw [Memo.cachedDatetimeAt]
  by_cases hstale : memo.cacheTimestamp ≠ msg.time / 1000000000 ∨ memo.cachedDatetime.length = 0
  · rw [if_pos hstale]
  · rw [if_neg hstale]
    rw [not_or, not_not] at hstale
    obtain ⟨hstamp, hlen⟩ := hstale
    rcases h with hnil | hcached
    · rw [hnil] at hlen
      exact absurd rfl hlen
    · rw [hcached, hstamp]

theorem cachedDatetimeAt_fresh (h : memo.Fresh env) :
    (memo.cachedDatetimeAt msg (env.localtime (msg.time / 1000000000))).Fresh env := by
  rw [Memo.cachedDatetimeAt]
  split
  · exact .inr rfl
  · exact h

theorem remember_fresh (h : memo.Fresh env) (kind : Flag) (tm : Tm) :
    (kind.remember env memo msg tm).Fresh env := by
  cases kind with
  | z =>
    simp only [Flag.remember, Memo.cachedOffset]
    split
    · exact h
    · exact h
  | _ => exact h

theorem Memo.new_fresh (env : FormatEnv) (now : Nat) : (Memo.new now).Fresh env := .inl rfl

theorem field_timeless {kind : Flag} {padding : PaddingInfo}
    (h : (Formatter.flag kind padding).Timeless) (tm : Tm) (now : Nat) :
    kind.field env memo msg tm = kind.field env (.new now) msg tm := by
  cases kind with
  | z => exact h.elim
  | elapsed units => exact h.elim
  | _ => rfl

theorem Formatter.piece_timeless {f : Formatter} (h : f.Timeless) (hmemo : memo.Fresh env)
    (now : Nat) :
    f.piece env msg (env.localtime (msg.time / 1000000000)) memo =
      f.piece env msg (env.localtime (msg.time / 1000000000)) (.new now) := by
  cases f with
  | full =>
    simp only [Formatter.piece]
    rw [cachedDatetimeAt_eq hmemo, cachedDatetimeAt_eq (Memo.new_fresh env now)]
  | flag kind padding =>
    simp only [Formatter.piece]
    rw [field_timeless h _ now]
  | _ => rfl

theorem Formatter.next_fresh (f : Formatter) (hmemo : memo.Fresh env) :
    (f.next env msg (env.localtime (msg.time / 1000000000)) memo).Fresh env := by
  cases f with
  | full => exact cachedDatetimeAt_fresh hmemo
  | flag kind padding => exact remember_fresh hmemo kind _
  | _ => exact hmemo

namespace LineFormatter

variable {f : LineFormatter}

theorem refresh_tm (h : f.Fresh env) (hsecs : msg.time / 1000000000 ≠ 0) :
    (f.refresh env msg).cachedTm = env.localtime (msg.time / 1000000000) ∧
      (f.refresh env msg).lastLogSecs = msg.time / 1000000000 := by
  rw [refresh]
  by_cases hne : msg.time / 1000000000 ≠ f.lastLogSecs
  · rw [if_pos hne]
    exact ⟨rfl, rfl⟩
  · rw [if_neg hne]
    rw [not_not] at hne
    refine ⟨?_, hne.symm⟩
    rw [hne] at hsecs ⊢
    exact h.tm.resolve_left hsecs

theorem after_fresh (h : f.Fresh env) (hsecs : msg.time / 1000000000 ≠ 0) :
    (f.after env msg).Fresh env := by
  obtain ⟨htm, hlast⟩ := refresh_tm h hsecs
  constructor
  · right
    change (f.refresh env msg).cachedTm = env.localtime (f.refresh env msg).lastLogSecs
    rw [htm, hlast]
  · intro p hp
    obtain ⟨q, hq, rfl⟩ := List.mem_map.1 hp
    rw [refresh_formatters] at hq
    rw [htm]
    exact q.1.next_fresh (h.memos q hq)

theorem after_formatters (f : LineFormatter) (env : FormatEnv) (msg : LogMsg) :
    (f.after env msg).formatters.map Prod.fst = f.formatters.map Prod.fst := by
  rw [after, nextAll, List.map_map, refresh_formatters]
  rfl

end LineFormatter

def plainLine (env : FormatEnv) (fs : List Formatter) (msg : LogMsg) : List Char :=
  fs.flatMap (fun f => f.piece env msg (env.localtime (msg.time / 1000000000)) (.new 0)) ++
    ['\n']

namespace LineFormatter

variable {f : LineFormatter}

theorem pieces_plain (hf : f.Fresh env) (h : ∀ g ∈ f.formatters.map Prod.fst, g.Timeless) :
    pieces env msg (env.localtime (msg.time / 1000000000)) f.formatters ++ ['\n'] =
      plainLine env (f.formatters.map Prod.fst) msg := by
  rw [plainLine, pieces, List.flatMap_map]
  congr 1
  apply List.flatMap_congr
  intro p hp
  exact Formatter.piece_timeless (h p.1 (List.mem_map_of_mem hp)) (hf.memos p hp) 0

theorem formatRun_plain (hsafe : Safe f.formatters) (hf : f.Fresh env)
    (h : ∀ g ∈ f.formatters.map Prod.fst, g.Timeless) {msgs : List LogMsg}
    (hsecs : ∀ msg ∈ msgs, msg.time / 1000000000 ≠ 0) :
    ∃ bufs, formatRun env f msgs = .ok bufs ∧
      bufs.map LineBuf.dest = msgs.map (plainLine env (f.formatters.map Prod.fst)) := by
  induction msgs generalizing f with
  | nil => exact ⟨[], rfl, rfl⟩
  | cons msg msgs ih =>
    obtain ⟨hmsg, hmsgs⟩ := List.forall_mem_cons.1 hsecs
    obtain ⟨buf, hformat, -, hdest⟩ := format_eq hsafe env msg
    have hkeep := after_formatters f env msg
    obtain ⟨bufs, hrun, hlines⟩ := ih (after_safe hsafe env msg) (after_fresh hf hmsg)
      (by rw [hkeep]; exact h) hmsgs
    refine ⟨buf :: bufs, ?_, ?_⟩
    · simp only [formatRun, hformat, hrun, bind, Except.bind]
      rfl
    · rw [List.map_cons, List.map_cons, hlines, hkeep, hdest, (refresh_tm hf hmsg).1,
        pieces_plain hf h]

theorem new_formatters (pattern : List Char) (now : Nat) :
    (new pattern now).formatters.map Prod.fst = compile pattern := by
  rw [new, List.map_map]
  exact List.map_id _

theorem new_fresh (env : FormatEnv) (pattern : List Char) (now : Nat) :
    (new pattern now).Fresh env := by
  refine ⟨.inl rfl, fun p hp => ?_⟩
  obtain ⟨f, -, rfl⟩ := List.mem_map.1 hp
  exact .inl rfl

/-- The caches do not show: each line is that of its own message alone, for every sequence of
messages after the first second of the epoch. -/
theorem lines_plain {pattern : List Char} (hsteady : ∀ f ∈ compile pattern, f.Steady)
    (htimeless : ∀ f ∈ compile pattern, f.Timeless) (env : FormatEnv) (now : Nat)
    {msgs : List LogMsg} (hsecs : ∀ msg ∈ msgs, msg.time / 1000000000 ≠ 0) :
    ∃ bufs, formatRun env (new pattern now) msgs = .ok bufs ∧
      bufs.map LineBuf.dest = msgs.map (plainLine env (compile pattern)) := by
  rw [← new_formatters pattern now] at htimeless
  have hrun :=
    formatRun_plain (new_safe hsteady now) (new_fresh env pattern now) htimeless hsecs
  rw [new_formatters] at hrun
  exact hrun

theorem lines_plain_message : ∃ (env : FormatEnv) (msg : LogMsg) (bufs : List LineBuf),
    formatRun env (new ['%', 'v'] 0) [msg, msg] = .ok bufs ∧
      bufs.map LineBuf.dest = [msg, msg].map (plainLine env (compile ['%', 'v'])) := by
  have hall : ∀ f ∈ compile ['%', 'v'], f.Steady ∧ f.Timeless := by
    rw [compile_message]
    decide
  exact ⟨⟨fun _ => .zero, fun _ => 0, 1⟩, ⟨['a'], .info, 1000000000, 1, ⟨[], 0, []⟩, ['b']⟩,
    lines_plain (fun f hf => (hall f hf).1) (fun f hf => (hall f hf).2) _ 0
      (List.forall_mem_cons.2 ⟨by decide, List.forall_mem_singleton.2 (by decide)⟩)⟩

end LineFormatter

end Caches

end Gortsp
