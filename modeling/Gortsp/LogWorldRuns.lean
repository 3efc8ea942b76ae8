import Gortsp.LogDelivery

namespace Gortsp
set_option autoImplicit true

namespace LogWorld

variable {w : LogWorld} {h : LogHistory} {env : FormatEnv}

section Steps

variable {b : LogBook} {events : List LogEvent}

theorem config_used (h : LogHistory) (name : StdString) : (h.used name).config = h.config := by
  rw [LogHistory.used]
  split
  · rfl
  · rfl

theorem styled_after (hstyle : ∀ cfg, h.config = some cfg → KnownPattern cfg.pattern)
    (op : LogOp) : ∀ cfg, (h.after op).config = some cfg → KnownPattern cfg.pattern := by
  intro cfg hc
  cases op with
  | initLogger logLevel path isConsoleLog isSimpleLog opens =>
    rw [LogHistory.after] at hc
    split at hc
    · exact hstyle cfg hc
    · cases hc
      exact .inr ⟨isSimpleLog, rfl⟩
  | uninitLogger => exact hstyle cfg hc
  | addLogger name =>
    rw [LogHistory.after, config_used] at hc
    exact hstyle cfg hc
  | getLogger name =>
    rw [LogProcess.config_after] at hc
    exact hstyle cfg hc

theorem Recorded.become (hr : w.Recorded env b) (hw : w.Sound h) (p : LogProcess) (now : Nat) :
    (w.become p now).Recorded env b where
  fresh i := become_fresh hr.fresh p now i
  lines i := (hw.become_lines p now i).1.trans (hr.lines i)

structure Keeps (env : FormatEnv) (w : LogWorld) (b : LogBook) (e : LogEvent) (w' : LogWorld) :
    Prop where
  sound : w'.Sound (b.after env e).history
  recorded : e.Dated → w.Recorded env b → w'.Recorded env (b.after env e)
  prompt : ∀ i, e.flushes i = true → w.Prompt i → w'.Prompt i

theorem Sound.call (hw : w.Sound b.history) (env : FormatEnv) (op : LogOp)
    (flushes : Nat → Bool) (now : Nat) :
    ∃ w', w.call op flushes now = .ok w' ∧ w.Keeps env b (.call op flushes now) w' := by
  have hflush : (w.flushFor flushes op).Sound b.history ∧
      (w.Recorded env b → (w.flushFor flushes op).Recorded env b) ∧
      ∀ i, w.Prompt i → (w.flushFor flushes op).Prompt i := by
    cases op with
    | uninitLogger =>
      exact ⟨hw.flushAll _ _, fun hr => hr.flushAll _ _, fun i hp => hp.flushAll _ _⟩
    | _ => exact ⟨hw, id, fun _ => id⟩
  obtain ⟨hsound, hrec, hprompt⟩ := hflush
  obtain ⟨p, hperform, hm, hwent⟩ := hsound.mirrors.perform op
  have hcall : w.call op flushes now = .ok ((w.flushFor flushes op).become p now) := by
    rw [LogWorld.call, hperform]
    rfl
  refine ⟨_, hcall, hsound.become hm (styled_after hw.styled op) hwent now, ?_, ?_⟩
  · intro _ hr
    have hbecome := (hrec hr).become hsound p now
    exact ⟨hbecome.fresh, hbecome.lines⟩
  · intro i _ hp
    exact (hprompt i hp).become hsound p now

theorem glog_inactive (hw : w.Sound b.history) (ha : b.history.active = false)
    (name : StdString) (msg : LogMsg) (took : Nat → Nat) (flushes : Nat → Bool) (now : Nat) :
    w.glog env name msg took flushes now = .ok w ∧
      b.after env (.glog name msg took flushes now) = b := by
  constructor
  · have hinit : ¬w.process.koo.mIsInit = true := by
      rw [hw.mirrors.active, ha]
      exact Bool.false_ne_true
    exact if_neg hinit
  · have hroute : b.history.route name = none := by
      rw [LogHistory.route, ha]
    simp only [LogBook.after, hroute]

theorem Sound.glog_active (hw : w.Sound b.history) (ha : b.history.active = true)
    (env : FormatEnv) (name : StdString) (msg : LogMsg) (took : Nat → Nat)
    (flushes : Nat → Bool) (now : Nat) :
    ∃ w', w.glog env name msg took flushes now = .ok w' ∧
      w.Keeps env b (.glog name msg took flushes now) w' := by
  obtain ⟨cfg, hc⟩ := hw.mirrors.config_of_active ha
  obtain ⟨⟨found, p⟩, hget, hm, hfound⟩ := hw.mirrors.getLogger name
  obtain ⟨l, hl, hreg⟩ := hfound ha
  cases hl
  have hinit : w.process.koo.mIsInit = true := hw.mirrors.active.trans ha
  have hglog : w.glog env name msg took flushes now =
      ((w.become p now).log env l msg took flushes).mapError .format := by
    rw [glog, if_pos hinit, hget]
    rfl
  have hbecome : (w.become p now).Sound (b.history.after (.getLogger name)) :=
    hw.become hm (styled_after hw.styled _) (LogProcess.getLogger_went hw.mirrors hget) now
  obtain ⟨r, hroute, hrouted⟩ := hm.routed ha hc hreg
  have hbook : b.after env (.glog name msg took flushes now) =
      LogBook.note env { b with history := b.history.after (.getLogger name) } r
        { msg with loggerName := name.chars } took := by
    simp only [LogBook.after, hroute]
  have hreg' : (w.become p now).process.registry name = some l := by
    rw [become_process]
    exact hreg
  have hrouted' : (w.become p now).process.Routed l r := by
    rw [become_process]
    exact hrouted
  by_cases hlevel : msg.level.value ≥ l.level.value
  · have hfits : ∀ i ∈ l.sinks, ((w.become p now).files i).Fits r.pattern := by
      intro i hi
      obtain ⟨s, hs, hpattern⟩ := hrouted'.pattern i hi
      rw [← hpattern]
      exact hbecome.fits i s hs
    obtain ⟨text, hlog, htext⟩ := log_eq hlevel hrouted.nodup hfits env took flushes
    have hrlevel : msg.level.value ≥ r.level.value := by
      rw [hrouted.level]
      exact hlevel
    rw [hbecome.name_eq hreg'] at hlog htext
    refine ⟨_, hglog.trans (congrArg (Except.mapError LogStop.format) hlog), ?_⟩
    have hnote := hbook
    rw [LogBook.note, if_pos hrlevel] at hnote
    constructor
    · rw [hnote]
      exact hbecome.told hreg' hrouted' _ _
    · intro hsecs hr
      have hrec := hr.become hw p now
      rw [hnote]
      apply hrec.told hsecs
      · intro i hi
        have hir : i ∈ r.sinks := by
          rw [hrouted.sinks]
          exact hi
        rw [htext i hi (hrec.fresh i) hsecs]
        exact if_pos hir
      · intro i hi
        have hir : i ∉ r.sinks := by
          rw [hrouted.sinks]
          exact hi
        exact if_neg hir
    · intro i hok hp
      exact (hp.become hw p now).told hbecome hreg' _ hok
  · have hrlevel : ¬msg.level.value ≥ r.level.value := by
      rw [hrouted.level]
      exact hlevel
    have hlog : (w.become p now).log env l msg took flushes = .ok (w.become p now) :=
      log_below hlevel took flushes
    refine ⟨_, hglog.trans (congrArg (Except.mapError LogStop.format) hlog), ?_⟩
    have hnote := hbook
    rw [LogBook.note, if_neg hrlevel] at hnote
    constructor
    · rw [hnote]
      exact hbecome
    · intro _ hr
      have hrec := hr.become hw p now
      rw [hnote]
      exact ⟨hrec.fresh, hrec.lines⟩
    · intro i _ hp
      exact hp.become hw p now

theorem Sound.step (hw : w.Sound b.history) (env : FormatEnv) (e : LogEvent) :
    ∃ w', w.step env e = .ok w' ∧ w.Keeps env b e w' := by
  cases e with
  | call op flushes now =>
    obtain ⟨w', hcall, hkeeps⟩ := hw.call env op flushes now
    refine ⟨w', ?_, hkeeps⟩
    rw [LogWorld.step, hcall]
    rfl
  | glog name msg took flushes now =>
    cases ha : b.history.active with
    | true => exact hw.glog_active ha env name msg took flushes now
    | false =>
      obtain ⟨hglog, hbook⟩ := glog_inactive hw ha name msg took flushes now
      refine ⟨w, hglog, ?_, ?_, fun _ _ hp => hp⟩
      · rw [hbook]
        exact hw
      · rw [hbook]
        exact fun _ hr => hr
  | flushAll flushes =>
    exact ⟨_, rfl, hw.flushAll _ _, fun _ hr => hr.flushAll _ _, fun _ _ hp => hp.flushAll _ _⟩

theorem Sound.run (hw : w.Sound b.history) (env : FormatEnv) (events : List LogEvent) :
    ∃ w', Machine.run (LogWorld.step env) w events = .ok w' ∧
      w'.Sound (events.foldl (LogBook.after env) b).history ∧
      ((∀ e ∈ events, e.Dated) → w.Recorded env b →
        w'.Recorded env (events.foldl (LogBook.after env) b)) ∧
      ∀ i, (∀ e ∈ events, e.flushes i = true) → w.Prompt i → w'.Prompt i := by
  induction events generalizing w b with
  | nil => exact ⟨w, rfl, hw, fun _ hr => hr, fun _ _ hp => hp⟩
  | cons e events ih =>
    obtain ⟨w₁, hstep, hkeeps⟩ := hw.step env e
    obtain ⟨w₂, hrun, hsound, hrec, hprompt⟩ := ih hkeeps.sound
    refine ⟨w₂, ?_, hsound, fun hdated hr => ?_, fun i hok hp => ?_⟩
    · rw [Machine.run_cons_ok hstep, hrun]
    · obtain ⟨he, hrest⟩ := List.forall_mem_cons.1 hdated
      exact hrec hrest (hkeeps.recorded he hr)
    · obtain ⟨he, hrest⟩ := List.forall_mem_cons.1 hok
      exact hprompt i hrest (hkeeps.prompt i he hp)

theorem sound_of_run (h : Machine.run (LogWorld.step env) (boot now) events = .ok w) :
    ∃ history, w.Sound history := by
  obtain ⟨w', hrun, hsound, -, -⟩ := (boot_sound now).run (b := .empty) env events
  cases h.symm.trans hrun
  exact ⟨_, hsound⟩

end Steps

end LogWorld

namespace LogBook

variable {b : LogBook} {cfg : LogConfig} {kinds : List SinkKind} {name : StdString}

structure Settled (b : LogBook) (cfg : LogConfig) (name : StdString) (kinds : List SinkKind) :
    Prop where
  active : b.history.active = true
  config : b.history.config = some cfg
  use : b.history.use cfg name = (cfg.level, kinds)

theorem active_after (h : LogHistory) (name : StdString) :
    (h.after (.getLogger name)).active = h.active := by
  rw [LogHistory.after]
  split
  · rfl
  · rw [LogHistory.used]
    split
    · rfl
    · rfl

theorem note_history (env : FormatEnv) (b : LogBook) (r : LogRoute) (msg : LogMsg)
    (took : Nat → Nat) : (b.note env r msg took).history = b.history := by
  rw [note]
  split
  · rfl
  · rfl

theorem Settled.after_glog (hb : b.Settled cfg name kinds) (hname : name ≠ .empty)
    (env : FormatEnv) (msg : LogMsg) (took : Nat → Nat) (flushes : Nat → Bool) (now : Nat) :
    b.after env (.glog name msg took flushes now) =
      LogBook.note env { b with history := b.history.after (.getLogger name) }
        ⟨cfg.level, List.range' 1 kinds.length, cfg.pattern⟩
        { msg with loggerName := name.chars } took := by
  have hroute : b.history.route name =
      some ⟨cfg.level, List.range' 1 kinds.length, cfg.pattern⟩ := by
    rw [LogHistory.route, hb.active, hb.config]
    simp only [if_neg hname, hb.use]
  simp only [after, hroute]

theorem Settled.glog (hb : b.Settled cfg name kinds) (hname : name ≠ .empty)
    (env : FormatEnv) (msg : LogMsg) (took : Nat → Nat) (flushes : Nat → Bool) (now : Nat) :
    (b.after env (.glog name msg took flushes now)).Settled cfg name kinds := by
  rw [hb.after_glog hname]
  constructor
  · rw [note_history, active_after]
    exact hb.active
  · rw [note_history, LogProcess.config_after]
    exact hb.config
  · rw [note_history, LogHistory.use, LogProcess.firstUse_after hb.active hb.config hname,
      Option.getD_some]
    exact hb.use

end LogBook

namespace LogWorld

end LogWorld

end Gortsp
