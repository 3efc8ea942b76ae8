import Gortsp.LogWorld

namespace Gortsp
set_option autoImplicit true

open PatternFormatter (compile)

def KnownPattern (pattern : String) : Prop :=
  pattern = fullPattern ∨
    ∃ isSimpleLog : Bool, pattern = if isSimpleLog then simpleLogPattern else detailedLogPattern

theorem compile_fullPattern : compile fullPattern.toList = [.full] := by
  have hchars : fullPattern.toList = ['%', '+'] := by decide
  rw [hchars, PatternFormatter.compile_parse, PatternFormatter.parse_directive rfl,
    PatternFormatter.parse_nil]
  rfl

theorem KnownPattern.formatters (h : KnownPattern pattern) :
    ∀ f ∈ compile pattern.toList, f.Steady ∧ f.Timeless := by
  rcases h with rfl | ⟨isSimpleLog, rfl⟩
  · rw [compile_fullPattern]
    exact List.forall_mem_singleton.2 ⟨trivial, trivial⟩
  · exact logPattern_formatters isSimpleLog

theorem plainLine_full (env : FormatEnv) (msg : LogMsg) :
    plainLine env [.full] msg = fullText env msg := by
  rw [plainLine, List.flatMap_singleton, Formatter.piece,
    cachedDatetimeAt_eq (Memo.new_fresh env 0), fullText]

theorem KnownPattern.plainLine (h : KnownPattern pattern) (env : FormatEnv) (msg : LogMsg) :
    plainLine env (compile pattern.toList) msg = lineOf pattern env msg := by
  rcases h with rfl | ⟨isSimpleLog, rfl⟩
  · have hsimple : fullPattern ≠ simpleLogPattern := by decide
    have hdetailed : fullPattern ≠ detailedLogPattern := by decide
    rw [compile_fullPattern, plainLine_full, lineOf, if_neg hsimple, if_neg hdetailed]
  · have hlogged := plainLine_logPattern isSimpleLog env msg
    rw [logPattern] at hlogged
    rw [hlogged]
    cases isSimpleLog with
    | true => rfl
    | false =>
      have hsimple : detailedLogPattern ≠ simpleLogPattern := by decide
      change detailedLine env msg = lineOf detailedLogPattern env msg
      rw [lineOf, if_neg hsimple, if_pos rfl]

namespace SinkFile

variable {f : SinkFile} {env : FormatEnv} {msg : LogMsg} {kind : SinkKind}

structure Fits (f : SinkFile) (pattern : String) : Prop where
  known : KnownPattern pattern
  formatters : f.formatter.formatters.map Prod.fst = compile pattern.toList

theorem Fits.safe (h : f.Fits pattern) : LineFormatter.Safe f.formatter.formatters := by
  intro p hp
  have hmem : p.1 ∈ compile pattern.toList := by
    rw [← h.formatters]
    exact List.mem_map_of_mem hp
  exact ⟨PatternFormatter.compile_width_le _ p.1 hmem, (h.known.formatters p.1 hmem).1⟩

theorem new_fits (now : Nat) : (new now).Fits fullPattern :=
  ⟨.inl rfl, LineFormatter.new_formatters _ now⟩

@[simp] theorem flush_lines (f : SinkFile) (ok : Bool) : (f.flush ok).lines = f.lines := by
  cases ok with
  | true => rfl
  | false => rfl

@[simp] theorem flush_formatter (f : SinkFile) (ok : Bool) :
    (f.flush ok).formatter = f.formatter := by
  cases ok with
  | true => rfl
  | false => rfl

theorem flush_flushed (f : SinkFile) (ok : Bool) :
    (f.flush ok).flushed = f.lines.length ∨ (f.flush ok).flushed = f.flushed := by
  cases ok with
  | true => exact .inl rfl
  | false => exact .inr rfl

theorem flush_flush (f : SinkFile) (ok : Bool) : (f.flush ok).flush ok = f.flush ok := by
  cases ok with
  | true => rfl
  | false => rfl

def put (env : FormatEnv) (kind : SinkKind) (f : SinkFile) (msg : LogMsg) (text : List Char)
    (ok : Bool) : SinkFile :=
  let f : SinkFile := ⟨f.formatter.after env msg, f.lines ++ [(msg.level, text)], f.flushed⟩
  if kind = .stdoutColor then f.flush ok else f

/-- Under a known pattern the formatting goes well, and from fresh caches it makes the line that
the pattern asks for. -/
theorem log_eq (h : f.Fits pattern) (env : FormatEnv) (kind : SinkKind) (msg : LogMsg)
    (took : Nat) (ok : Bool) :
    ∃ text, f.log env kind msg took ok = .ok (f.put env kind msg (text.take took) ok) ∧
      (f.formatter.Fresh env → msg.time / 1000000000 ≠ 0 → text = lineOf pattern env msg) := by
  obtain ⟨buf, hformat, -, hdest⟩ := LineFormatter.format_eq h.safe env msg
  refine ⟨buf.dest, ?_, ?_⟩
  · simp only [log, hformat, bind, Except.bind]
    rfl
  · intro hfresh hsecs
    have htimeless : ∀ g ∈ f.formatter.formatters.map Prod.fst, g.Timeless := by
      rw [h.formatters]
      exact fun g hg => (h.known.formatters g hg).2
    rw [hdest, (LineFormatter.refresh_tm hfresh hsecs).1,
      LineFormatter.pieces_plain hfresh htimeless, h.formatters, h.known.plainLine]

end SinkFile

namespace LogWorld

variable {w : LogWorld} {env : FormatEnv}

@[simp] theorem setFile_kind (w : LogWorld) (i : Nat) (f : SinkFile) :
    (w.setFile i f).kind = w.kind := rfl

theorem setFile_self (w : LogWorld) (i : Nat) (f : SinkFile) : (w.setFile i f).files i = f :=
  Function.update_self _ _ _

theorem setFile_of_ne (w : LogWorld) (f : SinkFile) (h : j ≠ i) :
    (w.setFile i f).files j = w.files j :=
  Function.update_of_ne h _ _

theorem flush_sinks (flushes : Nat → Bool) (w : LogWorld) (sinks : List Nat) :
    sinks.foldl (fun w i => w.setFile i ((w.files i).flush (flushes i))) w =
      { w with files := fun i =>
          if i ∈ sinks then (w.files i).flush (flushes i) else w.files i } := by
  induction sinks generalizing w with
  | nil => rfl
  | cons i sinks ih =>
    rw [List.foldl_cons, ih]
    congr 1
    funext j
    by_cases hj : j = i
    · subst hj
      rw [setFile_self, if_pos List.mem_cons_self]
      split
      · rw [SinkFile.flush_flush]
      · rfl
    · rw [setFile_of_ne w _ hj]
      simp only [List.mem_cons, hj, false_or]

theorem flush_eq (flushes : Nat → Bool) (w : LogWorld) (l : Logger) : w.flush flushes l =
    { w with files := fun i =>
        if i ∈ l.sinks then (w.files i).flush (flushes i) else w.files i } :=
  flush_sinks flushes w l.sinks

@[simp] theorem flush_process (flushes : Nat → Bool) (w : LogWorld) (l : Logger) :
    (w.flush flushes l).process = w.process := by
  rw [flush_eq]

theorem flush_files (flushes : Nat → Bool) (w : LogWorld) (l : Logger) (i : Nat) :
    (w.flush flushes l).files i =
      if i ∈ l.sinks then (w.files i).flush (flushes i) else w.files i := by
  rw [flush_eq]

@[simp] theorem flushAll_process (flushes : Nat → Bool) (w : LogWorld) (ls : List Logger) :
    (w.flushAll flushes ls).process = w.process := by
  induction ls generalizing w with
  | nil => rfl
  | cons l ls ih => exact (ih (w.flush flushes l)).trans (flush_process flushes w l)

theorem flushAll_files (flushes : Nat → Bool) (w : LogWorld) (ls : List Logger) (i : Nat) :
    (w.flushAll flushes ls).files i =
      if ∃ l ∈ ls, i ∈ l.sinks then (w.files i).flush (flushes i) else w.files i := by
  induction ls generalizing w with
  | nil =>
    have hno : ¬∃ l ∈ ([] : List Logger), i ∈ l.sinks := by
      rintro ⟨l, hl, -⟩
      cases hl
    rw [if_neg hno]
    rfl
  | cons l ls ih =>
    have hcons : w.flushAll flushes (l :: ls) = (w.flush flushes l).flushAll flushes ls := rfl
    rw [hcons, ih, flush_files]
    by_cases hi : i ∈ l.sinks
    · have hany : ∃ m ∈ l :: ls, i ∈ m.sinks := ⟨l, List.mem_cons_self, hi⟩
      rw [if_pos hi, if_pos hany]
      split
      · rw [SinkFile.flush_flush]
      · rfl
    · rw [if_neg hi]
      simp only [List.exists_mem_cons_iff, hi, false_or]

def putAll (env : FormatEnv) (w : LogWorld) (sinks : List Nat) (msg : LogMsg)
    (text : Nat → List Char) (flushes : Nat → Bool) : LogWorld where
  process := w.process
  files i :=
    if i ∈ sinks then (w.files i).put env (w.kind i) msg (text i) (flushes i) else w.files i

theorem sinkIt_all {sinks : List Nat} (hnodup : sinks.Nodup)
    (hfits : ∀ i ∈ sinks, (w.files i).Fits pattern) (env : FormatEnv) (msg : LogMsg)
    (took : Nat → Nat) (flushes : Nat → Bool) :
    ∃ text : Nat → List Char, sinks.foldlM (sinkIt env msg took flushes) w =
        .ok (w.putAll env sinks msg (fun i => (text i).take (took i)) flushes) ∧
      ∀ i ∈ sinks, (w.files i).formatter.Fresh env → msg.time / 1000000000 ≠ 0 →
        text i = lineOf pattern env msg := by
  induction sinks generalizing w with
  | nil => exact ⟨fun _ => [], rfl, fun i hi => (List.not_mem_nil hi).elim⟩
  | cons i sinks ih =>
    obtain ⟨hi, hnodup⟩ := List.nodup_cons.1 hnodup
    obtain ⟨hfit, hfits⟩ := List.forall_mem_cons.1 hfits
    obtain ⟨line, hlog, hline⟩ := SinkFile.log_eq hfit env (w.kind i) msg (took i) (flushes i)
    have hne (j : Nat) (hj : j ∈ sinks) : j ≠ i := fun he => hi (he ▸ hj)
    have hfirst : sinkIt env msg took flushes w i = .ok (w.setFile i
        ((w.files i).put env (w.kind i) msg (line.take (took i)) (flushes i))) := by
      simp only [sinkIt, hlog]
      rfl
    have hfits' : ∀ j ∈ sinks, ((w.setFile i
        ((w.files i).put env (w.kind i) msg (line.take (took i)) (flushes i))).files j).Fits
          pattern := by
      intro j hj
      rw [setFile_of_ne w _ (hne j hj)]
      exact hfits j hj
    obtain ⟨text, hrest, htext⟩ := ih hnodup hfits'
    refine ⟨Function.update text i line, ?_, ?_⟩
    · rw [List.foldlM_cons, hfirst]
      apply hrest.trans
      rw [putAll, putAll]
      congr 2
      funext j
      by_cases hj : j = i
      · subst hj
        rw [if_neg hi, if_pos List.mem_cons_self, setFile_self, Function.update_self]
      · rw [setFile_of_ne w _ hj, setFile_kind, Function.update_of_ne hj]
        simp only [List.mem_cons, hj, false_or]
    · intro j hj
      rcases List.mem_cons.1 hj with rfl | hmem
      · rw [Function.update_self]
        exact hline
      · have htext' := htext j hmem
        rw [setFile_of_ne w _ (hne j hmem)] at htext'
        rw [Function.update_of_ne (hne j hmem)]
        exact htext'

def told (env : FormatEnv) (w : LogWorld) (l : Logger) (msg : LogMsg) (text : Nat → List Char)
    (flushes : Nat → Bool) : LogWorld :=
  let w := w.putAll env l.sinks msg text flushes
  if msg.level.value ≥ l.flushLevel.value ∧ msg.level ≠ .off then w.flush flushes l else w

theorem log_below {l : Logger} {msg : LogMsg} (h : ¬msg.level.value ≥ l.level.value)
    (took : Nat → Nat) (flushes : Nat → Bool) : w.log env l msg took flushes = .ok w := if_neg h

theorem log_eq {l : Logger} {msg : LogMsg} (hlevel : msg.level.value ≥ l.level.value)
    (hnodup : l.sinks.Nodup) (hfits : ∀ i ∈ l.sinks, (w.files i).Fits pattern)
    (env : FormatEnv) (took : Nat → Nat) (flushes : Nat → Bool) :
    ∃ text : Nat → List Char,
      w.log env l msg took flushes = .ok (w.told env l { msg with loggerName := l.name.chars }
        (fun i => (text i).take (took i)) flushes) ∧
      ∀ i ∈ l.sinks, (w.files i).formatter.Fresh env → msg.time / 1000000000 ≠ 0 →
        text i = lineOf pattern env { msg with loggerName := l.name.chars } := by
  obtain ⟨text, hsinks, htext⟩ :=
    sinkIt_all hnodup hfits env { msg with loggerName := l.name.chars } took flushes
  refine ⟨text, ?_, htext⟩
  rw [log, if_pos hlevel, hsinks]
  rfl

theorem told_process {l : Logger} {msg : LogMsg} (text : Nat → List Char)
    (flushes : Nat → Bool) : (w.told env l msg text flushes).process = w.process := by
  rw [told]
  split
  · exact flush_process flushes _ l
  · rfl

theorem told_elsewhere {l : Logger} {msg : LogMsg} (text : Nat → List Char)
    (flushes : Nat → Bool) (h : i ∉ l.sinks) :
    (w.told env l msg text flushes).files i = w.files i := by
  have hput : (w.putAll env l.sinks msg text flushes).files i = w.files i := if_neg h
  rw [told]
  split
  · rw [flush_files, if_neg h, hput]
  · exact hput

/-- A sink of the logger has the line, and is flushed when the logger says so, or by itself. -/
theorem told_sink {l : Logger} {msg : LogMsg} (text : Nat → List Char) (flushes : Nat → Bool)
    (h : i ∈ l.sinks) : (w.told env l msg text flushes).files i =
      if msg.level.value ≥ l.flushLevel.value ∧ msg.level ≠ .off then
        ((w.files i).put env (w.kind i) msg (text i) (flushes i)).flush (flushes i)
      else (w.files i).put env (w.kind i) msg (text i) (flushes i) := by
  have hput : (w.putAll env l.sinks msg text flushes).files i =
      (w.files i).put env (w.kind i) msg (text i) (flushes i) := if_pos h
  rw [told]
  split
  · rw [flush_files, if_pos h, hput]
  · exact hput

end LogWorld

end Gortsp
