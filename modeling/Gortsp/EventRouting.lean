import Gortsp.EventHandler
import Mathlib.Data.List.Nodup

namespace Gortsp
set_option autoImplicit true

inductive Registration (ε ω : Type) where
  | event (fd : Int) (cb : Option ε)
  | io (fd : Int) (readCb writeCb : Option ω) (errorCb : Option ε)
  deriving DecidableEq

def Registration.fd : Registration ε ω → Int
  | .event fd _ => fd
  | .io fd _ _ _ => fd

def Registration.pendingEvent : Registration ε ω → Option (Event ε)
  | .event fd cb => some (Event.new fd cb).add
  | .io _ _ _ _ => none

def Registration.bufferEvent : Registration ε ω → Option (BufferEvent ε ω)
  | .event _ _ => none
  | .io fd readCb writeCb errorCb => some (.new fd readCb writeCb errorCb)

def EventBase.register (base : EventBase ε ω) : Registration ε ω → EventBase ε ω
  | .event fd cb => base.registEvent fd cb
  | .io fd readCb writeCb errorCb => base.registerIoevent fd readCb writeCb errorCb

def registered (regs : List (Registration ε ω)) : EventBase ε ω :=
  regs.foldl EventBase.register .create

def Firing.fd : Firing → Int
  | .event fd _ => fd
  | .read fd _ => fd
  | .write fd => fd
  | .error fd _ => fd

inductive Route (ε ω : Type) where
  | event (cb : ε) (fd : Int) (event : Int16)
  | io (cb : ω) (fd : Int)
  deriving DecidableEq

def Invocation.route : Invocation ε ω → Route ε ω
  | .event cb fd mask => .event cb fd mask
  | .io cb fd _ => .io cb fd

/-- What a firing is to reach through a registration. -/
def Registration.route : Registration ε ω → Firing → Option (Route ε ω)
  | .event fd cb, .event n mask => if n = fd then cb.map (.event · fd mask) else none
  | .io fd readCb _ _, .read n _ => if n = fd then readCb.map (.io · fd) else none
  | .io fd _ writeCb _, .write n => if n = fd then writeCb.map (.io · fd) else none
  | .io fd _ _ errorCb, .error n what => if n = fd then errorCb.map (.event · fd what) else none
  | _, _ => none

inductive BaseInput (ε ω : Type) where
  | register (r : Registration ε ω)
  | fire (f : Firing)
  deriving DecidableEq

def BaseInput.registration : BaseInput ε ω → Option (Registration ε ω)
  | .register r => some r
  | .fire _ => none

/-- Each firing in turn completes and reaches exactly what is registered for it by then. -/
def RoutesAll : List (Registration ε ω) → EventBase ε ω → List (BaseInput ε ω) → Prop
  | _, _, [] => True
  | regs, base, .register r :: is => RoutesAll (regs ++ [r]) (base.register r) is
  | regs, base, .fire f :: is => ∃ base' calls, base.fire f = .ok (base', calls) ∧
      calls.map Invocation.route = regs.filterMap (·.route f) ∧ RoutesAll regs base' is

/-- A plain event has a callback; a buffer event has only writes without a callback. -/
def Registration.Honours : Registration ε ω → Firing → Prop
  | .event fd cb, .event n _ => n = fd → cb ≠ none
  | .io fd _ writeCb _, .write n => n = fd → writeCb = none
  | .io fd _ _ _, .read n _ => n ≠ fd
  | .io fd _ _ _, .error n _ => n ≠ fd
  | _, _ => True

def HonoursAll : List (Registration ε ω) → List (BaseInput ε ω) → Prop
  | _, [] => True
  | regs, .register r :: is => HonoursAll (regs ++ [r]) is
  | regs, .fire f :: is => (∀ r ∈ regs, r.Honours f) ∧ HonoursAll regs is

section Registered

variable {regs : List (Registration ε ω)} {r r' : Registration ε ω} {f : Firing}

theorem registered_snoc (regs : List (Registration ε ω)) (r : Registration ε ω) :
    registered (regs ++ [r]) = (registered regs).register r := by
  simp only [registered, List.foldl_append, List.foldl_cons, List.foldl_nil]

theorem registered_events (regs : List (Registration ε ω)) :
    (registered regs).events = regs.filterMap Registration.pendingEvent := by
  induction regs using List.reverseRecOn with
  | nil => rfl
  | append_singleton regs r ih =>
    rw [registered_snoc, List.filterMap_append, ← ih]
    cases r with
    | event fd cb => rfl
    | io fd rc wc ec => exact (List.append_nil _).symm

theorem registered_bufferEvents (regs : List (Registration ε ω)) :
    (registered regs).bufferEvents = regs.filterMap Registration.bufferEvent := by
  induction regs using List.reverseRecOn with
  | nil => rfl
  | append_singleton regs r ih =>
    rw [registered_snoc, List.filterMap_append, ← ih]
    cases r with
    | event fd cb => exact (List.append_nil _).symm
    | io fd rc wc ec => rfl

theorem mem_registered_events {ev : Event ε} :
    ev ∈ (registered regs).events ↔
      ∃ fd cb, .event fd cb ∈ regs ∧ ev = (Event.new fd cb).add := by
  rw [registered_events, List.mem_filterMap]
  constructor
  · rintro ⟨r, hr, he⟩
    cases r with
    | event fd cb => exact ⟨fd, cb, hr, (Option.some.inj he).symm⟩
    | io fd rc wc ec => cases he
  · rintro ⟨fd, cb, hr, rfl⟩
    exact ⟨_, hr, rfl⟩

theorem mem_registered_bufferEvents {be : BufferEvent ε ω} :
    be ∈ (registered regs).bufferEvents ↔
      ∃ fd rc wc ec, .io fd rc wc ec ∈ regs ∧ be = .new fd rc wc ec := by
  rw [registered_bufferEvents, List.mem_filterMap]
  constructor
  · rintro ⟨r, hr, he⟩
    cases r with
    | event fd cb => cases he
    | io fd rc wc ec => exact ⟨fd, rc, wc, ec, hr, (Option.some.inj he).symm⟩
  · rintro ⟨fd, rc, wc, ec, hr, rfl⟩
    exact ⟨_, hr, rfl⟩

theorem Registration.route_eq_none (h : f.fd ≠ r.fd) : r.route f = none := by
  cases r <;> cases f <;> first | rfl | exact if_neg h

theorem Registration.honours_of_ne (h : f.fd ≠ r.fd) : r.Honours f := by
  cases r <;> cases f <;> first | trivial | exact h | exact fun he => absurd he h

theorem filterMap_route (hn : (regs.map Registration.fd).Nodup) (hr : r ∈ regs)
    (hf : f.fd = r.fd) : regs.filterMap (·.route f) = (r.route f).toList := by
  obtain ⟨pre, post, rfl⟩ := List.mem_iff_append.1 hr
  have others : ∀ r' ∈ pre ++ post, r'.route f = none := by
    intro r' hr'
    apply Registration.route_eq_none
    intro he
    have hmem : r.fd ∈ (pre ++ post).map Registration.fd :=
      List.mem_map.2 ⟨r', hr', he.symm.trans hf⟩
    rw [List.map_append, List.map_cons, List.nodup_middle, List.nodup_cons] at hn
    exact hn.1 (by rwa [List.map_append] at hmem)
  have hpre : pre.filterMap (·.route f) = [] :=
    List.filterMap_eq_nil_iff.2 fun r' h => others r' (List.mem_append_left _ h)
  have hpost : post.filterMap (·.route f) = [] :=
    List.filterMap_eq_nil_iff.2 fun r' h => others r' (List.mem_append_right _ h)
  rw [List.filterMap_append, List.filterMap_cons, hpre, hpost]
  cases r.route f <;> rfl

theorem fireEvent_keeps (fd : Int) :
    ((registered regs).events.map fun ev => if ev.fd = fd then ev.ran else ev) =
      (registered regs).events := by
  rw [List.map_congr_left (g := id) ?_, List.map_id]
  intro ev hev
  obtain ⟨n, cb, -, rfl⟩ := mem_registered_events.1 hev
  rw [Event.ran_new, ite_self, id]

theorem fireEvent_cases (regs : List (Registration ε ω)) (fd : Int) (event : Int16) :
    (∃ cb, .event fd cb ∈ regs ∧ (registered regs).fireEvent fd event =
      match cb with
      | some cb => .ok (registered regs, [.event cb fd event])
      | none => .error .nullDeref) ∨
    (∀ cb, .event fd cb ∉ regs) ∧
      (registered regs).fireEvent fd event = .ok (registered regs, []) := by
  cases hfind : (registered regs).events.find? (fun ev => ev.pending ∧ ev.fd = fd) with
  | none =>
    right
    constructor
    · intro cb hcb
      have hno := List.find?_eq_none.1 hfind _ (mem_registered_events.2 ⟨fd, cb, hcb, rfl⟩)
      simp [Event.new, Event.add] at hno
    · simp only [EventBase.fireEvent, hfind]
  | some ev =>
    left
    obtain ⟨n, cb, hmem, rfl⟩ := mem_registered_events.1 (List.mem_of_find?_eq_some hfind)
    have hfd : n = fd := by simpa [Event.new, Event.add] using List.find?_some hfind
    subst hfd
    refine ⟨cb, hmem, ?_⟩
    cases cb with
    | none =>
      simp only [EventBase.fireEvent, hfind]
      rfl
    | some cb =>
      simp only [EventBase.fireEvent, hfind, fireEvent_keeps]
      rfl

theorem find_bufferevent (hio : .io fd rc wc ec ∈ regs) :
    ∃ place : Fin (registered regs).bufferEvents.length,
      (registered regs).bufferEvents.findFinIdx? (·.ptr.fd = fd) = some place ∧
      ∃ rc wc ec, (registered regs).bufferEvents[place] = .new fd rc wc ec := by
  cases hfind : (registered regs).bufferEvents.findFinIdx? (·.ptr.fd = fd) with
  | none =>
    have hmem := mem_registered_bufferEvents.2 ⟨fd, rc, wc, ec, hio, rfl⟩
    have hno := List.findFinIdx?_eq_none_iff.1 hfind _ hmem
    simp [BufferEvent.new, Bufferevent.socketNew, Bufferevent.setcb] at hno
  | some place =>
    have hfd := (List.findFinIdx?_eq_some_iff.1 hfind).1
    have hmem : (registered regs).bufferEvents[place] ∈ (registered regs).bufferEvents :=
      List.getElem_mem _
    obtain ⟨n, rc, wc, ec, -, hnew⟩ := mem_registered_bufferEvents.1 hmem
    have hn : n = fd := by
      rw [hnew] at hfd
      exact of_decide_eq_true hfd
    exact ⟨place, rfl, rc, wc, ec, hn ▸ hnew⟩

theorem fireBufferevent_elsewhere (hno : ∀ rc wc ec, .io fd rc wc ec ∉ regs) :
    (registered regs).fireBufferevent fd bytes what cb = .ok (registered regs, []) := by
  have hfind : (registered regs).bufferEvents.findFinIdx? (·.ptr.fd = fd) = none := by
    apply List.findFinIdx?_eq_none_iff.2
    intro be hbe hfd
    obtain ⟨n, rc, wc, ec, hio, rfl⟩ := mem_registered_bufferEvents.1 hbe
    have hn : n = fd := of_decide_eq_true hfd
    exact hno rc wc ec (hn ▸ hio)
  simp only [EventBase.fireBufferevent, hfind]

theorem fireBufferevent_installed (hio : .io fd rc wc ec ∈ regs)
    (hcb : ∀ rc wc ec, cb (BufferEvent.new (ε := ε) (ω := ω) fd rc wc ec).ptr = some t) :
    (registered regs).fireBufferevent fd bytes what cb = .error .nullDeref := by
  obtain ⟨place, hfind, rc, wc, ec, hnew⟩ := find_bufferevent hio
  simp only [EventBase.fireBufferevent, hfind, hnew, hcb, EventBase.callInstalled]
  rw [show (BufferEvent.new fd rc wc ec).ptr.ctx = none from rfl, Option.bind_none,
    Trampoline.call_null]
  rfl

theorem fireBufferevent_absent (hio : .io fd rc wc ec ∈ regs)
    (hcb : ∀ rc wc ec, cb (BufferEvent.new (ε := ε) (ω := ω) fd rc wc ec).ptr = none) :
    (registered regs).fireBufferevent fd [] what cb = .ok (registered regs, []) := by
  obtain ⟨place, hfind, rc, wc, ec, hnew⟩ := find_bufferevent hio
  have hset : (registered regs).setPtr place (BufferEvent.new fd rc wc ec).ptr =
      registered regs := by
    rw [← hnew]
    change { registered regs with bufferEvents :=
      (registered regs).bufferEvents.set place (registered regs).bufferEvents[place] } = _
    rw [Fin.getElem_fin, List.set_getElem_self]
  simp only [EventBase.fireBufferevent, hfind, hnew, hcb, EventBase.callInstalled,
    List.append_nil, hset]

theorem fire_elsewhere (hno : ∀ r ∈ regs, f.fd ≠ r.fd) :
    (registered regs).fire f = .ok (registered regs, []) := by
  have hio (rc wc ec) : .io f.fd rc wc ec ∉ regs := fun h => hno _ h rfl
  cases f with
  | event fd mask =>
    rcases fireEvent_cases regs fd mask with ⟨cb, hcb, -⟩ | ⟨-, h⟩
    · exact absurd rfl (hno _ hcb)
    · exact h
  | read fd bytes => exact fireBufferevent_elsewhere hio
  | write fd => exact fireBufferevent_elsewhere hio
  | error fd what => exact fireBufferevent_elsewhere hio

theorem fire_event (hn : (regs.map Registration.fd).Nodup) (hr : .event fd (some cb) ∈ regs)
    (mask : Int16) :
    (registered regs).fire (.event fd mask) = .ok (registered regs, [.event cb fd mask]) := by
  rcases fireEvent_cases regs fd mask with ⟨cb', hcb, hfire⟩ | ⟨hno, -⟩
  · cases List.inj_on_of_nodup_map hn hcb hr rfl
    exact hfire
  · exact absurd hr (hno _)

theorem fire_honoured (hn : (regs.map Registration.fd).Nodup) (hr : r ∈ regs)
    (hf : f.fd = r.fd) (h : r.Honours f) :
    ∃ calls, (registered regs).fire f = .ok (registered regs, calls) ∧
      calls.map Invocation.route = (r.route f).toList := by
  have unique : ∀ r' ∈ regs, r'.fd = r.fd → r' = r := by
    intro r' hr' hfd
    exact List.inj_on_of_nodup_map hn hr' hr hfd
  cases r with
  | event fd cb =>
    have hio (rc wc ec) : .io f.fd rc wc ec ∉ regs := by
      intro hio
      cases unique _ hio hf
    cases f with
    | event n mask =>
      cases hf
      cases cb with
      | none => exact absurd rfl (h rfl)
      | some cb =>
        have hroute : (Registration.event fd (some cb)).route (.event fd mask) =
            some (Route.event (ω := ω) cb fd mask) := if_pos rfl
        exact ⟨_, fire_event hn hr mask, by rw [hroute]; rfl⟩
    | read n bytes => exact ⟨[], fireBufferevent_elsewhere hio, rfl⟩
    | write n => exact ⟨[], fireBufferevent_elsewhere hio, rfl⟩
    | error n what => exact ⟨[], fireBufferevent_elsewhere hio, rfl⟩
  | io fd rc wc ec =>
    cases f with
    | event n mask =>
      rcases fireEvent_cases regs n mask with ⟨cb', hcb, -⟩ | ⟨-, hfire⟩
      · cases unique _ hcb hf
      · exact ⟨[], hfire, rfl⟩
    | read n bytes => exact absurd hf h
    | error n what => exact absurd hf h
    | write n =>
      cases hf
      obtain rfl : wc = none := h rfl
      have hroute : (Registration.io fd rc none ec).route (.write fd) = none := if_pos rfl
      exact ⟨[], fireBufferevent_absent hr fun _ _ _ => rfl, by rw [hroute]; rfl⟩

theorem fire_dishonoured (hn : (regs.map Registration.fd).Nodup) (hr : r ∈ regs)
    (h : ¬r.Honours f) (hfire : (registered regs).fire f = .ok (base, calls)) :
    calls.map Invocation.route ≠ regs.filterMap (·.route f) := by
  have hf : f.fd = r.fd := not_not.1 fun hne => h (Registration.honours_of_ne hne)
  rw [filterMap_route hn hr hf]
  cases r with
  | event fd cb =>
    cases f with
    | event n mask =>
      cases hf
      have hcb : cb = none := not_not.1 fun hne => h fun _ => hne
      rcases fireEvent_cases regs fd mask with ⟨cb', hcb', he⟩ | ⟨hno, -⟩
      · cases List.inj_on_of_nodup_map hn hcb' hr rfl
        rw [EventBase.fire, he, hcb] at hfire
        cases hfire
      · exact absurd hr (hno cb)
    | read n bytes => exact absurd trivial h
    | write n => exact absurd trivial h
    | error n what => exact absurd trivial h
  | io fd rc wc ec =>
    cases f with
    | event n mask => exact absurd trivial h
    | read n bytes =>
      cases hf
      rw [EventBase.fire, fireBufferevent_installed hr fun _ _ _ => rfl] at hfire
      cases hfire
    | error n what =>
      cases hf
      rw [EventBase.fire, fireBufferevent_installed hr fun _ _ _ => rfl] at hfire
      cases hfire
    | write n =>
      cases hf
      rw [EventBase.fire, fireBufferevent_absent hr fun _ _ _ => rfl] at hfire
      cases hfire
      cases wc with
      | none => exact absurd (fun _ => rfl) h
      | some cb =>
        have hroute : (Registration.io fd rc (some cb) ec).route (.write fd) =
            some (Route.io (ε := ε) cb fd) := if_pos rfl
        rw [hroute]
        exact (List.cons_ne_nil _ _).symm

theorem fire_of_honours (hn : (regs.map Registration.fd).Nodup)
    (h : ∀ r ∈ regs, r.Honours f) :
    ∃ calls, (registered regs).fire f = .ok (registered regs, calls) ∧
      calls.map Invocation.route = regs.filterMap (·.route f) := by
  by_cases hex : ∃ r ∈ regs, f.fd = r.fd
  · obtain ⟨r, hr, hf⟩ := hex
    obtain ⟨calls, hfire, hroute⟩ := fire_honoured hn hr hf (h r hr)
    exact ⟨calls, hfire, by rw [hroute, filterMap_route hn hr hf]⟩
  · have hno : ∀ r ∈ regs, f.fd ≠ r.fd := fun r hr he => hex ⟨r, hr, he⟩
    have hnil : regs.filterMap (·.route f) = [] :=
      List.filterMap_eq_nil_iff.2 fun r hr => Registration.route_eq_none (hno r hr)
    exact ⟨[], fire_elsewhere hno, hnil.symm⟩

theorem fire_unrouted (hn : (regs.map Registration.fd).Nodup) (h : ∀ r ∈ regs, r.Honours f)
    (hno : ∀ r ∈ regs, r.route f = none) :
    (registered regs).fire f = .ok (registered regs, []) := by
  obtain ⟨calls, hfire, hroute⟩ := fire_of_honours hn h
  rw [List.filterMap_eq_nil_iff.2 hno] at hroute
  rw [hfire, List.map_eq_nil_iff.1 hroute]

theorem routesAll_fire (hn : (regs.map Registration.fd).Nodup) (is : List (BaseInput ε ω)) :
    RoutesAll regs (registered regs) (.fire f :: is) ↔
      (∀ r ∈ regs, r.Honours f) ∧ RoutesAll regs (registered regs) is := by
  constructor
  · intro h
    obtain ⟨base, calls, hfire, hroute, hrest⟩ := h
    have here : ∀ r ∈ regs, r.Honours f := by
      intro r hr
      by_contra hno
      exact fire_dishonoured hn hr hno hfire hroute
    obtain ⟨calls', hfire', -⟩ := fire_of_honours hn here
    rw [hfire] at hfire'
    cases hfire'
    exact ⟨here, hrest⟩
  · intro h
    obtain ⟨here, hrest⟩ := h
    obtain ⟨calls, hfire, hroute⟩ := fire_of_honours hn here
    exact ⟨_, calls, hfire, hroute, hrest⟩

theorem routesAll_registered (regs : List (Registration ε ω)) {is : List (BaseInput ε ω)}
    (hn : ((regs ++ is.filterMap BaseInput.registration).map Registration.fd).Nodup) :
    RoutesAll regs (registered regs) is ↔ HonoursAll regs is := by
  induction is generalizing regs with
  | nil => exact Iff.rfl
  | cons i is ih =>
    cases i with
    | register r =>
      have hn' : (((regs ++ [r]) ++ is.filterMap BaseInput.registration).map
          Registration.fd).Nodup := by
        rw [List.append_assoc]
        exact hn
      have hrest := ih (regs ++ [r]) hn'
      rw [registered_snoc] at hrest
      exact hrest
    | fire f =>
      have hregs : (regs.map Registration.fd).Nodup := by
        rw [List.map_append] at hn
        exact hn.of_append_left
      rw [routesAll_fire hregs, ih regs hn]
      exact Iff.rfl

/-- Firings reach what was registered for them on distinct descriptors exactly when no read,
error or wanted write is fired on a buffer event and every fired plain event has a callback. -/
theorem routesAll_iff_honours {is : List (BaseInput ε ω)}
    (hn : ((is.filterMap BaseInput.registration).map Registration.fd).Nodup) :
    RoutesAll [] .create is ↔ HonoursAll [] is :=
  routesAll_registered [] hn

end Registered

def oneReader : List (BaseInput Unit Unit) :=
  [.register (.io 5 (some ()) none none), .fire (.read 5 [104])]

theorem routesAll_iff_honours_read : RoutesAll [] .create oneReader ↔ HonoursAll [] oneReader :=
  routesAll_iff_honours (by decide)

theorem not_routesAll_read : ¬RoutesAll [] .create oneReader := by
  intro h
  have hall : HonoursAll [] oneReader := (routesAll_registered [] (by decide)).1 h
  exact hall.1 _ (List.mem_singleton_self _) rfl

end Gortsp
