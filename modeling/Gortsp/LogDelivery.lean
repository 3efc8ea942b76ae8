import Gortsp.LogCalls
import Gortsp.LogSinks

namespace Gortsp
set_option autoImplicit true

def LevelEnum.Urgent (level : LevelEnum) : Prop :=
  level.value ≥ LevelEnum.err.value ∧ level ≠ .off

/-- A message that is later than the first second of the epoch, which the formatters take for the
second of no message. -/
def LogEvent.Dated : LogEvent → Prop
  | .glog _ msg _ _ _ => msg.time / 1000000000 ≠ 0
  | _ => True

def LogEvent.flushes (i : Nat) : LogEvent → Bool
  | .call _ flushes _ => flushes i
  | .glog _ _ _ flushes _ => flushes i
  | .flushAll flushes => flushes i

def SinkFile.Blank (f : SinkFile) : Prop := f.lines = [] ∧ f.flushed = 0

theorem SinkFile.Blank.flush {f : SinkFile} (h : f.Blank) (ok : Bool) : (f.flush ok).Blank := by
  refine ⟨(f.flush_lines ok).trans h.1, ?_⟩
  rcases f.flush_flushed ok with hall | hsame
  · exact hall.trans (congrArg List.length h.1)
  · exact hsame.trans h.2

namespace LogWorld

variable {w : LogWorld} {h : LogHistory} {env : FormatEnv}

/-- Every file has the formatter of its sink's pattern, and lines are in the files of loggers that
can flush them. -/
structure Sound (w : LogWorld) (h : LogHistory) : Prop where
  mirrors : w.process.Mirrors h
  styled : ∀ cfg, h.config = some cfg → KnownPattern cfg.pattern
  fits : ∀ i s, w.process.sinks[i]? = some s → (w.files i).Fits s.pattern
  unmade : ∀ i, w.process.sinks.length ≤ i → (w.files i).Blank
  named : ∀ name l, name ≠ .empty → w.process.registry name = some l →
    l.name = name ∧ l.flushLevel = .err ∧ l ∈ w.process.koo.mLoggerList
  covered : ∀ i, (w.files i).Blank ∨ ∃ name l, w.process.registry name = some l ∧ i ∈ l.sinks

/-- A file whose flushes have all gone well: what waits in it is not urgent, and nothing waits for
the console of the default logger. -/
structure Prompt (w : LogWorld) (i : Nat) : Prop where
  durable : ∀ line ∈ (w.files i).lines.drop (w.files i).flushed, ¬line.1.Urgent
  console : i = 0 → (w.files i).flushed = (w.files i).lines.length

/-- The files hold what the book says, and their caches are good. -/
structure Recorded (env : FormatEnv) (w : LogWorld) (b : LogBook) : Prop where
  fresh : ∀ i, (w.files i).formatter.Fresh env
  lines : ∀ i, (w.files i).lines = b.lines i

theorem boot_sound (now : Nat) : (boot now).Sound .empty where
  mirrors := LogProcess.mirrors_boot
  styled cfg hc := by cases hc
  fits := by
    intro i s hs
    cases i with
    | zero =>
      cases hs
      exact SinkFile.new_fits now
    | succ i => cases hs
  unmade i _ := ⟨rfl, rfl⟩
  named := by
    intro name l hname hl
    change LogProcess.boot.registry name = some l at hl
    rw [LogProcess.boot_registry, Function.update_of_ne hname] at hl
    cases hl
  covered i := .inl ⟨rfl, rfl⟩

@[simp] theorem become_process (w : LogWorld) (p : LogProcess) (now : Nat) :
    (w.become p now).process = p := by
  rw [become]
  split
  · rfl
  · rfl

theorem grown_cases (w : LogWorld) (p : LogProcess) (now i : Nat) :
    w.process.sinks.length ≤ i ∧ i < p.sinks.length ∧ (w.grown p now).files i = .new now ∨
      ¬(w.process.sinks.length ≤ i ∧ i < p.sinks.length) ∧
        (w.grown p now).files i = w.files i := by
  by_cases hnew : w.process.sinks.length ≤ i ∧ i < p.sinks.length
  · exact .inl ⟨hnew.1, hnew.2, if_pos hnew⟩
  · exact .inr ⟨hnew, if_neg hnew⟩

theorem setFormatter_cases (w : LogWorld) (sinks : List Nat) (pattern : String) (now i : Nat) :
    i ∈ sinks ∧ (w.setFormatter sinks pattern now).files i =
        ⟨.new pattern.toList now, (w.files i).lines, (w.files i).flushed⟩ ∨
      i ∉ sinks ∧ (w.setFormatter sinks pattern now).files i = w.files i := by
  by_cases hi : i ∈ sinks
  · exact .inl ⟨hi, if_pos hi⟩
  · exact .inr ⟨hi, if_neg hi⟩

theorem Sound.become_lines (hw : w.Sound h) (p : LogProcess) (now i : Nat) :
    ((w.become p now).files i).lines = (w.files i).lines ∧
      ((w.become p now).files i).flushed = (w.files i).flushed := by
  have hgrown : ((w.grown p now).files i).lines = (w.files i).lines ∧
      ((w.grown p now).files i).flushed = (w.files i).flushed := by
    rcases w.grown_cases p now i with ⟨hi, -, hfile⟩ | ⟨-, hfile⟩
    · obtain ⟨hlines, hflushed⟩ := hw.unmade i hi
      rw [hfile, hlines, hflushed]
      exact ⟨rfl, rfl⟩
    · rw [hfile]
      exact ⟨rfl, rfl⟩
  rw [become]
  split
  · exact hgrown
  · rcases (w.grown p now).setFormatter_cases p.koo.mSinks p.koo.mPattern now i with
      ⟨-, hfile⟩ | ⟨-, hfile⟩
    · rw [hfile]
      exact hgrown
    · rw [hfile]
      exact hgrown

theorem Sound.become_blank (hw : w.Sound h) (p : LogProcess) (now : Nat) :
    ((w.become p now).files i).Blank ↔ (w.files i).Blank := by
  obtain ⟨hlines, hflushed⟩ := hw.become_lines p now i
  rw [SinkFile.Blank, SinkFile.Blank, hlines, hflushed]

theorem become_fresh (hfresh : ∀ i, (w.files i).formatter.Fresh env) (p : LogProcess)
    (now i : Nat) : ((w.become p now).files i).formatter.Fresh env := by
  have hgrown : ((w.grown p now).files i).formatter.Fresh env := by
    rcases w.grown_cases p now i with ⟨-, -, hfile⟩ | ⟨-, hfile⟩
    · rw [hfile]
      exact LineFormatter.new_fresh env _ now
    · rw [hfile]
      exact hfresh i
  rw [become]
  split
  · exact hgrown
  · rcases (w.grown p now).setFormatter_cases p.koo.mSinks p.koo.mPattern now i with
      ⟨-, hfile⟩ | ⟨-, hfile⟩
    · rw [hfile]
      exact LineFormatter.new_fresh env _ now
    · rw [hfile]
      exact hgrown

theorem Sound.become_fits {p : LogProcess} {h' : LogHistory} (hw : w.Sound h)
    (hm : p.Mirrors h') (hstyle : ∀ cfg, h'.config = some cfg → KnownPattern cfg.pattern)
    (hgrows : w.process.Grows p) (now : Nat) {s : Sink} (hs : p.sinks[i]? = some s) :
    ((w.become p now).files i).Fits s.pattern := by
  rw [become]
  cases hgrows with
  | added new hsinks hnew hmade =>
    rw [if_pos hmade]
    rcases w.grown_cases p now i with ⟨hi, -, hfile⟩ | ⟨hold, hfile⟩
    · rw [hsinks, List.getElem?_append_right hi] at hs
      rw [hfile, hnew s (List.mem_of_getElem? hs)]
      exact SinkFile.new_fits now
    · obtain ⟨hlt, -⟩ := List.getElem?_eq_some_iff.1 hs
      have hi : i < w.process.sinks.length := by omega
      rw [hsinks, List.getElem?_append_left hi] at hs
      rw [hfile]
      exact hw.fits i s hs
  | refitted hlen hpattern hinit hmade =>
    have hne : ¬p.made = w.process.made := by omega
    rw [if_neg hne]
    rcases hm.mem_mSinks hs with ⟨rfl, rfl⟩ | ⟨hi, hown⟩
    · have hzero : 0 ∉ p.koo.mSinks := by
        rw [hm.mSinks, List.mem_range'_1]
        omega
      have hlt : 0 < w.process.sinks.length := by
        rw [hw.mirrors.length_eq]
        exact Nat.succ_pos _
      rcases (w.grown p now).setFormatter_cases p.koo.mSinks p.koo.mPattern now 0 with
        ⟨hmem, -⟩ | ⟨-, hfile⟩
      · exact absurd hmem hzero
      · rcases w.grown_cases p now 0 with ⟨hle, -, -⟩ | ⟨-, hkept⟩
        · omega
        · rw [hfile, hkept]
          have hhead : w.process.sinks[0]? = some ⟨.stdoutColor, fullPattern⟩ := by
            rw [hw.mirrors.head]
            rfl
          exact hw.fits 0 _ hhead
    · obtain ⟨cfg, hc⟩ := hm.config_of_active (hm.active.symm.trans hinit)
      have hknown : KnownPattern p.koo.mPattern := by
        rw [(hm.config cfg hc).2.2.1]
        exact hstyle cfg hc
      rcases (w.grown p now).setFormatter_cases p.koo.mSinks p.koo.mPattern now i with
        ⟨-, hfile⟩ | ⟨hno, -⟩
      · rw [hfile, hpattern s hown]
        exact ⟨hknown, LineFormatter.new_formatters _ now⟩
      · exact absurd hi hno

theorem Sound.become {p : LogProcess} {h' : LogHistory} (hw : w.Sound h) (hm : p.Mirrors h')
    (hstyle : ∀ cfg, h'.config = some cfg → KnownPattern cfg.pattern)
    (hwent : w.process.Went p) (now : Nat) : (w.become p now).Sound h' := by
  constructor
  · rw [become_process]
    exact hm
  · exact hstyle
  · intro i s hs
    rw [become_process] at hs
    exact hw.become_fits hm hstyle hwent.grows now hs
  · intro i hi
    rw [become_process] at hi
    exact (hw.become_blank p now).2 (hw.unmade i (hwent.grows.length_le.trans hi))
  · intro name l hname hl
    rw [become_process] at hl ⊢
    rcases hwent.enrolls.new name l hl with hold | hnew
    · obtain ⟨hlname, hflush, hlist⟩ := hw.named name l hname hold
      exact ⟨hlname, hflush, hwent.enrolls.list l hlist⟩
    · exact hnew
  · intro i
    rw [become_process]
    rcases hw.covered i with hblank | ⟨name, l, hl, hi⟩
    · exact .inl ((hw.become_blank p now).2 hblank)
    · exact .inr ⟨name, l, hwent.enrolls.old name l hl, hi⟩

theorem Prompt.become (hp : w.Prompt i) (hw : w.Sound h) (p : LogProcess) (now : Nat) :
    (w.become p now).Prompt i := by
  obtain ⟨hlines, hflushed⟩ := hw.become_lines p now i
  constructor
  · rw [hlines, hflushed]
    exact hp.durable
  · rw [hlines, hflushed]
    exact hp.console

theorem Sound.flush_files (hw : w.Sound h) {w' : LogWorld} (hprocess : w'.process = w.process)
    (hfiles : ∀ i, ∃ ok, w'.files i = (w.files i).flush ok) : w'.Sound h := by
  constructor
  · rw [hprocess]
    exact hw.mirrors
  · exact hw.styled
  · intro i s hs
    rw [hprocess] at hs
    obtain ⟨ok, hfile⟩ := hfiles i
    refine ⟨(hw.fits i s hs).known, ?_⟩
    rw [hfile, SinkFile.flush_formatter]
    exact (hw.fits i s hs).formatters
  · intro i hi
    rw [hprocess] at hi
    obtain ⟨ok, hfile⟩ := hfiles i
    rw [hfile]
    exact (hw.unmade i hi).flush ok
  · intro name l hname hl
    rw [hprocess] at hl ⊢
    exact hw.named name l hname hl
  · intro i
    obtain ⟨ok, hfile⟩ := hfiles i
    rw [hprocess, hfile]
    exact (hw.covered i).imp_left (·.flush ok)

theorem Prompt.flush_file (hp : w.Prompt i) {w' : LogWorld} {ok : Bool}
    (hfile : w'.files i = (w.files i).flush ok) : w'.Prompt i := by
  rcases (w.files i).flush_flushed ok with hall | hsame
  · constructor
    · rw [hfile, SinkFile.flush_lines, hall, List.drop_length]
      exact fun line hline => (List.not_mem_nil hline).elim
    · rw [hfile, SinkFile.flush_lines]
      exact fun _ => hall
  · constructor
    · rw [hfile, SinkFile.flush_lines, hsame]
      exact hp.durable
    · rw [hfile, SinkFile.flush_lines, hsame]
      exact hp.console

theorem flushAll_file (flushes : Nat → Bool) (w : LogWorld) (ls : List Logger) (i : Nat) :
    ∃ ok, (w.flushAll flushes ls).files i = (w.files i).flush ok := by
  rw [flushAll_files]
  split
  · exact ⟨flushes i, rfl⟩
  · exact ⟨false, rfl⟩

theorem Sound.flushAll (hw : w.Sound h) (flushes : Nat → Bool) (ls : List Logger) :
    (w.flushAll flushes ls).Sound h :=
  hw.flush_files (flushAll_process flushes w ls) (flushAll_file flushes w ls)

theorem Prompt.flushAll (hp : w.Prompt i) (flushes : Nat → Bool) (ls : List Logger) :
    (w.flushAll flushes ls).Prompt i := by
  obtain ⟨ok, hfile⟩ := flushAll_file flushes w ls i
  exact hp.flush_file hfile

theorem flushAll_lines (flushes : Nat → Bool) (w : LogWorld) (ls : List Logger) (i : Nat) :
    ((w.flushAll flushes ls).files i).lines = (w.files i).lines := by
  obtain ⟨ok, hfile⟩ := flushAll_file flushes w ls i
  rw [hfile, SinkFile.flush_lines]

theorem Recorded.flushAll (hr : w.Recorded env b) (flushes : Nat → Bool) (ls : List Logger) :
    (w.flushAll flushes ls).Recorded env b := by
  constructor
  · intro i
    obtain ⟨ok, hfile⟩ := flushAll_file flushes w ls i
    rw [hfile, SinkFile.flush_formatter]
    exact hr.fresh i
  · intro i
    rw [flushAll_lines]
    exact hr.lines i

section Message

variable {l : Logger} {msg : LogMsg} {text : Nat → List Char} {flushes : Nat → Bool}
  {name : StdString}

structure Wrote (env : FormatEnv) (f f' : SinkFile) (msg : LogMsg) (text : List Char) : Prop where
  lines : f'.lines = f.lines ++ [(msg.level, text)]
  formatter : f'.formatter = f.formatter.after env msg
  flushed : f'.flushed = f'.lines.length ∨ f'.flushed = f.flushed

theorem Wrote.flush {text : List Char} (h : Wrote env f f' msg text) (ok : Bool) :
    Wrote env f (f'.flush ok) msg text := by
  refine ⟨(f'.flush_lines ok).trans h.lines, (f'.flush_formatter ok).trans h.formatter, ?_⟩
  rw [SinkFile.flush_lines]
  rcases f'.flush_flushed ok with hall | hsame
  · exact .inl hall
  · rw [hsame]
    exact h.flushed

theorem wrote_put (f : SinkFile) (kind : SinkKind) (text : List Char) (ok : Bool) :
    Wrote env f (f.put env kind msg text ok) msg text := by
  have hline : Wrote env f
      ⟨f.formatter.after env msg, f.lines ++ [(msg.level, text)], f.flushed⟩ msg text :=
    ⟨rfl, rfl, .inr rfl⟩
  rw [SinkFile.put]
  split
  · exact hline.flush ok
  · exact hline

theorem wrote_told (text : Nat → List Char) (flushes : Nat → Bool) (hi : i ∈ l.sinks) :
    Wrote env (w.files i) ((w.told env l msg text flushes).files i) msg (text i) := by
  rw [told_sink text flushes hi]
  split
  · exact (wrote_put _ _ _ _).flush _
  · exact wrote_put _ _ _ _

theorem flushed_told (text : Nat → List Char) (hi : i ∈ l.sinks) (hok : flushes i = true)
    (h : l.flushLevel = .err ∧ msg.level.Urgent ∨ w.kind i = .stdoutColor) :
    ((w.told env l msg text flushes).files i).flushed =
      ((w.told env l msg text flushes).files i).lines.length := by
  rw [told_sink text flushes hi, hok]
  split
  · rfl
  · next hno =>
    rcases h with ⟨hflush, hurgent⟩ | hkind
    · rw [hflush] at hno
      exact absurd hurgent hno
    · rw [SinkFile.put, if_pos hkind]
      rfl

theorem Sound.console (hw : w.Sound h) : w.kind 0 = .stdoutColor := by
  rw [kind, hw.mirrors.head]
  rfl

theorem Sound.flushes_by (hw : w.Sound h) (hl : w.process.registry name = some l)
    (hi : i ∈ l.sinks) : name ≠ .empty ∧ l.flushLevel = .err ∨ w.kind i = .stdoutColor := by
  by_cases hname : name = .empty
  · right
    rw [hname, hw.mirrors.unnamed] at hl
    cases hl
    cases List.mem_singleton.1 hi
    exact hw.console
  · exact .inl ⟨hname, (hw.named name l hname hl).2.1⟩

theorem Sound.name_eq (hw : w.Sound h) (hl : w.process.registry name = some l) :
    l.name = name := by
  by_cases hname : name = .empty
  · rw [hname, hw.mirrors.unnamed] at hl
    cases hl
    exact hname.symm
  · exact (hw.named name l hname hl).1

theorem Prompt.told_sink (hp : w.Prompt i) (hw : w.Sound h)
    (hl : w.process.registry name = some l) (hi : i ∈ l.sinks) (text : Nat → List Char)
    (hok : flushes i = true) : (w.told env l msg text flushes).Prompt i := by
  obtain ⟨hlines, -, hflushed⟩ :
      Wrote env (w.files i) ((w.told env l msg text flushes).files i) msg (text i) :=
    wrote_told text flushes hi
  have hnone (hall : ((w.told env l msg text flushes).files i).flushed =
      ((w.told env l msg text flushes).files i).lines.length) :
      (w.told env l msg text flushes).Prompt i := by
    refine ⟨?_, fun _ => hall⟩
    rw [hall, List.drop_length]
    exact fun line hline => (List.not_mem_nil hline).elim
  rcases hw.flushes_by hl hi with ⟨-, herr⟩ | hkind
  · by_cases hurgent : msg.level.Urgent
    · exact hnone (flushed_told text hi hok (.inl ⟨herr, hurgent⟩))
    · rcases hflushed with hall | hsame
      · exact hnone hall
      · constructor
        · intro line hline
          rw [hsame, hlines, List.drop_append, List.mem_append] at hline
          rcases hline with hold | hnew
          · exact hp.durable line hold
          · cases List.mem_singleton.1 (List.mem_of_mem_drop hnew)
            exact hurgent
        · rintro rfl
          exact flushed_told text hi hok (.inr hw.console)
  · exact hnone (flushed_told text hi hok (.inr hkind))

theorem Prompt.told (hp : w.Prompt i) (hw : w.Sound h)
    (hl : w.process.registry name = some l) (text : Nat → List Char) (hok : flushes i = true) :
    (w.told env l msg text flushes).Prompt i := by
  by_cases hi : i ∈ l.sinks
  · exact hp.told_sink hw hl hi text hok
  · constructor
    · rw [told_elsewhere text flushes hi]
      exact hp.durable
    · rw [told_elsewhere text flushes hi]
      exact hp.console

theorem Sound.told (hw : w.Sound h) (hl : w.process.registry name = some l)
    (hr : w.process.Routed l r) (text : Nat → List Char)
    (flushes : Nat → Bool) : (w.told env l msg text flushes).Sound h := by
  have hprocess : (w.told env l msg text flushes).process = w.process :=
    told_process text flushes
  constructor
  · rw [hprocess]
    exact hw.mirrors
  · exact hw.styled
  · intro i s hs
    rw [hprocess] at hs
    by_cases hi : i ∈ l.sinks
    · refine ⟨(hw.fits i s hs).known, ?_⟩
      rw [(wrote_told text flushes hi).formatter, LineFormatter.after_formatters]
      exact (hw.fits i s hs).formatters
    · rw [told_elsewhere text flushes hi]
      exact hw.fits i s hs
  · intro i hlen
    rw [hprocess] at hlen
    have hi : i ∉ l.sinks := by
      intro hi
      obtain ⟨s, hs, -⟩ := hr.pattern i hi
      obtain ⟨hlt, -⟩ := List.getElem?_eq_some_iff.1 hs
      omega
    rw [told_elsewhere text flushes hi]
    exact hw.unmade i hlen
  · intro name k hname hk
    rw [hprocess] at hk ⊢
    exact hw.named name k hname hk
  · intro i
    rw [hprocess]
    by_cases hi : i ∈ l.sinks
    · exact .inr ⟨name, l, hl, hi⟩
    · rw [told_elsewhere text flushes hi]
      exact hw.covered i

theorem Recorded.told {b b' : LogBook} (hr : w.Recorded env b)
    (hsecs : msg.time / 1000000000 ≠ 0)
    (hin : ∀ i ∈ l.sinks, b'.lines i = b.lines i ++ [(msg.level, text i)])
    (hout : ∀ i, i ∉ l.sinks → b'.lines i = b.lines i) :
    (w.told env l msg text flushes).Recorded env b' := by
  constructor
  · intro i
    by_cases hi : i ∈ l.sinks
    · rw [(wrote_told text flushes hi).formatter]
      exact LineFormatter.after_fresh (hr.fresh i) hsecs
    · rw [told_elsewhere text flushes hi]
      exact hr.fresh i
  · intro i
    by_cases hi : i ∈ l.sinks
    · rw [(wrote_told text flushes hi).lines, hr.lines, hin i hi]
    · rw [told_elsewhere text flushes hi, hr.lines, hout i hi]

end Message

end LogWorld

end Gortsp
