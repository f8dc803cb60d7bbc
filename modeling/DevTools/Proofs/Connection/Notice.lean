import DevTools.Proofs.Connection.Detachment
import DevTools.Proofs.Connection.Routing

set_option autoImplicit false

namespace DevTools

namespace Router

-- Every buffer holds some of these events, in their order.
def Buffers (r : Router) (events : List Event) : Prop := ∀ s ∈ r.streams, s.buffer.Sublist events

section
variable {r : Router} {events : List Event}

theorem buffers_map (buffers : r.Buffers events) (f : Stream → Stream) (fewer : ∀ s, (f s).buffer.Sublist s.buffer) :
    ∀ s ∈ r.streams.map f, s.buffer.Sublist events := by
  intro s member
  obtain ⟨old, held, rfl⟩ := List.mem_map.mp member
  exact (fewer old).trans (buffers old held)

theorem dispatch_buffers (buffers : r.Buffers events) (e : Event) : (r.dispatch e).2.Buffers (events ++ [e]) := by
  intro s member
  obtain ⟨old, held, rfl⟩ := List.mem_map.mp member
  have known := buffers old held
  rw [offer]
  split
  · split
    · exact known.append (List.Sublist.refl [e])
    · exact known.trans (List.sublist_append_left events [e])
  · exact known.trans (List.sublist_append_left events [e])

theorem perform_buffers (buffers : r.Buffers events) (d : RouterDeed) (other : ∀ e, d ≠ .dispatch e) :
    (r.perform d).Buffers events := by
  cases d with
  | dispatch e => exact absurd rfl (other e)
  | subscribe filter =>
      intro s member
      rcases List.mem_append.mp member with old | new
      · exact buffers s old
      · rw [List.mem_singleton.mp new]
        exact List.nil_sublist events
  | take id =>
      refine buffers_map buffers _ fun s => ?_
      split
      · exact List.tail_sublist s.buffer
      · exact List.Sublist.refl s.buffer
  | drain id =>
      refine buffers_map buffers _ fun s => ?_
      split
      · exact List.nil_sublist s.buffer
      · exact List.Sublist.refl s.buffer
  | drop id => exact fun s member => buffers s (List.mem_filter.mp member).1
  | close =>
      rw [perform, close]
      split <;> exact buffers

end

end Router

namespace Hub

-- What becomes of an event: what the hub is after it, and what the sessions are as it is dispatched.
structure Handles (h : Hub) (e : Event) (after : Hub) : Prop where
  dropped : e.session.any h.sessions.isDetached = true →
    after = h.count fun s => { s with detachedSessionFrames := s.detachedSessionFrames + 1 }
  dispatched : e.session.any h.sessions.isDetached = false → after = (h.applyToSessions e).dispatch e ∧
    after.router = (h.router.dispatch e).2 ∧ after.stats.detachedSessionFrames = h.stats.detachedSessionFrames
  attached : e.session.any h.sessions.isDetached = false → ∀ session target, e.attaches? = some (session, target) →
    ∃ s, (h.applyToSessions e).sessions.get? session = some s ∧ s.detached = h.sessions.isDetached session ∧
      (h.sessions.get? session = none → s.target = target)
  detached : e.session.any h.sessions.isDetached = false → ∀ session, e.detaches? = some session →
    (h.applyToSessions e).sessions.isAttached session = false ∧
      ∀ entry ∈ (h.applyToSessions e).calls.pending, entry.session ≠ some session
  -- An event of a session that is not known comes to everybody who wants it and has room.
  unknown : ∀ session, e.session = some session → h.sessions.get? session = none →
    ∀ s ∈ h.router.streams, h.router.wants e s = true → h.router.hasRoom s = true →
      { s with buffer := s.buffer ++ [e] } ∈ after.router.streams

theorem performs_buffers (h : Hub) (deeds : List Deed) (events : List Event)
    (untaken : ∀ d ∈ deeds, ∀ bytes, d ≠ .frame bytes)
    (buffers : h.router.Buffers events) : (h.performs deeds).router.Buffers events := by
  induction deeds generalizing h with
  | nil => exact buffers
  | cons d deeds ih =>
      apply ih (h.perform d) fun other member => untaken other (List.mem_cons_of_mem d member)
      rcases perform_router h d with same | ⟨deed, made, only⟩
      · rw [same]
        exact buffers
      · rw [made]
        refine Router.perform_buffers buffers deed fun e same => ?_
        obtain ⟨bytes, taken⟩ := only e same
        exact untaken d List.mem_cons_self bytes taken

theorem take_event (h : Hub) (e : Event) (heeded : e.session.any h.sessions.isDetached = false) :
    h.takeEvent e = (h.applyToSessions e).dispatch e := by
  rw [takeEvent, heeded, if_neg Bool.false_ne_true]

theorem apply_attached (h : Hub) (tidy : h.sessions.Tidy) (e : Event) (session : SessionId) (target : TargetId)
    (tells : e.attaches? = some (session, target)) : ∃ s, (h.applyToSessions e).sessions.get? session = some s ∧
      s.detached = h.sessions.isDetached session ∧ (h.sessions.get? session = none → s.target = target) := by
  have silent : e.detaches? = none := by
    rw [Event.attaches?] at tells
    rw [Event.detaches?]
    split at tells
    · next attaches => rw [if_pos attaches]
    · cases tells
  have sessions : (h.applyToSessions e).sessions = h.sessions.perform (.register session target) := by
    rw [apply_sessions, Event.sessionDeeds, tells, silent]
    rfl
  rw [sessions]
  cases known : h.sessions.get? session with
  | none =>
      refine ⟨⟨h.sessions.nextSerial, session, target, false⟩, ?_, ?_, fun _ => rfl⟩
      · rw [SessionTable.perform_get tidy, known]
        simp [SessionTable.brings, known]
      · simp [SessionTable.isDetached, known]
  | some s =>
      refine ⟨s, ?_, ?_, fun missing => by cases missing⟩
      · have still := SessionTable.perform_known tidy (.register session target) session s known
        rwa [SessionDeed.mark_none (.register session target) rfl] at still
      · simp [SessionTable.isDetached, known]

end Hub

namespace Connection

section
variable {c : Connection} {a : Act}

theorem act_buffers (kept : c.Kept) (a : Act) (events : List Event) (buffers : c.hub.router.Buffers events) :
    (c.act a).hub.router.Buffers (events ++ (c.routes? a).toList) := by
  cases taken : c.takes? a with
  | none =>
      obtain ⟨deeds, made, allowed, _⟩ := act_deeds kept a
      have nothing : c.routes? a = none := by rw [routes?, notes_taken, taken]; rfl
      rw [made, nothing, Option.toList_none, List.append_nil]
      refine Hub.performs_buffers c.hub deeds events (fun d member bytes same => ?_) buffers
      rw [same] at member
      rw [(takes_reader bytes).mpr (allowed _ member)] at taken
      cases taken
  | some bytes =>
      have still : ∀ after : Hub, after.router = c.hub.router →
          after.router.Buffers (events ++ (none : Option Event).toList) := by
        intro after same
        rw [same, Option.toList_none, List.append_nil]
        exact buffers
      rw [takes_hub kept bytes taken, Hub.takeFrame, routes?, notes_taken, taken, Option.bind_some]
      cases Message.decode bytes with
      | error fault => exact still _ rfl
      | ok message =>
          cases message with
          | request r => exact still _ rfl
          | response r =>
              refine still _ ?_
              dsimp only
              rw [Hub.takeResponse]
              split <;> rfl
          | event e =>
              dsimp only
              rw [Option.filter_some]
              cases dropped : e.session.any c.hub.sessions.isDetached with
              | true =>
                  rw [Hub.drop_event c.hub e dropped]
                  exact still _ rfl
              | false =>
                  rw [Hub.take_event c.hub e dropped, (Hub.dispatch_rest _ e).2.2.1, (Hub.apply_routing c.hub e).1]
                  exact Router.dispatch_buffers buffers e

theorem routed_concat (acts : List Act) (a : Act) :
    (c.routed (acts ++ [a])).map (·.2) = (c.routed acts).map (·.2) ++ ((c.run acts).routes? a).toList := by
  rw [routed, trace_concat, List.filterMap_append, List.map_append]
  change _ ++ (List.filterMap (fun x => (routes? x.1 x.2).map fun e => (x.1.hub.router, e))
    [(c.run acts, a)]).map (·.2) = _
  rw [List.filterMap_cons]
  cases routes? (c.run acts) a <;> rfl

theorem run_buffers (sound : c.Sound) (buffers : c.hub.router.Buffers []) (acts : List Act) :
    (c.run acts).hub.router.Buffers ((c.routed acts).map (·.2)) := by
  apply run_induction act (P := fun acts x => x.hub.router.Buffers ((c.routed acts).map (·.2))) c buffers
  intro acts a ih
  rw [routed_concat]
  exact act_buffers (run_sound sound acts).kept a _ ih

-- The session has not been attached from the beginning, or since a purge that did not find it attached.
def Absent (c : Connection) (acts : List Act) (session : SessionId) : Prop :=
  ∃ before between, acts = before ++ between ∧
    (before = [] ∨ ∃ earlier, before = earlier ++ [.purge] ∧ (c.run earlier).hub.sessions.isAttached session = false) ∧
    ∀ x a target, (x, a) ∈ trace act (c.run before) between → ¬ x.Admits a session target

theorem run_unknown (sound : c.Sound) (acts : List Act) (session : SessionId)
    (missing : c.hub.sessions.get? session = none)
    (silent : ∀ x a target, (x, a) ∈ trace act c acts → ¬ x.Admits a session target) :
    (c.run acts).hub.sessions.get? session = none := by
  induction acts generalizing c with
  | nil => exact missing
  | cons a acts ih =>
      refine ih (act_sound sound a) ?_ fun x b target member => silent x b target (List.mem_cons_of_mem _ member)
      exact SessionTable.attaches_unknown (act_attaches sound.kept a) session missing fun target =>
        silent c a target List.mem_cons_self

theorem absent_unknown (sound : c.Sound) (tidy : c.hub.sessions.Tidy) (none_ : c.hub.sessions.sessions = [])
    (acts : List Act)
    (session : SessionId) (absent : c.Absent acts session) : (c.run acts).hub.sessions.get? session = none := by
  obtain ⟨before, between, rfl, since, silent⟩ := absent
  rw [run_append]
  refine run_unknown (run_sound sound before) between session ?_ silent
  rcases since with rfl | ⟨earlier, rfl, unattached⟩
  · change c.hub.sessions.sessions.find? _ = none
    rw [none_]
    rfl
  · rw [run_append]
    exact SessionTable.purge_forgets (run_tidy sound tidy earlier) session unattached

theorem notes_handles (sound : c.Sound) (covered : c.hub.Covered) (tidy : c.hub.sessions.Tidy) (e : Event)
    (noted : c.notes? a = some e) :
    c.hub.Handles e (c.act a).hub := by
  have hub : (c.act a).hub = c.hub.takeEvent e := notes_hub sound.kept e noted
  have covers := act_covered sound covered a
  have dispatched : e.session.any c.hub.sessions.isDetached = false →
      (c.act a).hub = (c.hub.applyToSessions e).dispatch e ∧
      (c.act a).hub.router = (c.hub.router.dispatch e).2 ∧
      (c.act a).hub.stats.detachedSessionFrames = c.hub.stats.detachedSessionFrames := by
    intro heeded
    obtain ⟨router, stats⟩ := Hub.apply_routing c.hub e
    obtain ⟨-, -, dispatched, kept⟩ := Hub.dispatch_rest (c.hub.applyToSessions e) e
    rw [router] at dispatched
    rw [stats] at kept
    rw [hub, Hub.take_event c.hub e heeded]
    exact ⟨rfl, dispatched, kept⟩
  refine ⟨fun dropped => hub.trans (Hub.drop_event c.hub e dropped), dispatched, ?_, ?_, ?_⟩
  · exact fun _ session target tells => Hub.apply_attached c.hub tidy e session target tells
  · intro heeded session tells
    have made := (dispatched heeded).1
    have unattached : (c.hub.applyToSessions e).sessions.isAttached session = false := by
      have detached := Hub.take_detach c.hub e session tells heeded
      rw [← hub, made, Hub.dispatch_sessions] at detached
      rw [detached]
      exact Hub.detach_unattaches c.hub session
    refine ⟨unattached, fun entry pending scope => ?_⟩
    rw [made] at covers
    have attached := covers entry (by rwa [(Hub.dispatch_rest _ e).1]) session scope
    rw [Hub.dispatch_sessions, unattached] at attached
    cases attached
  · intro session scope missing s member wanted room
    have heeded : e.session.any c.hub.sessions.isDetached = false := by
      rw [scope, Option.any_some, SessionTable.isDetached, missing]
      rfl
    rw [(dispatched heeded).2.1]
    refine List.mem_map.mpr ⟨s, member, ?_⟩
    rw [Router.offer, if_pos wanted, if_pos room]

end

-- What a run does with the events that it takes in. `routed` are those that come in no frame of a session that is
-- detached just then.
structure Agrees (c : Connection) (acts : List Act) : Prop where
  handled : ∀ x a e, (x, a) ∈ trace act c acts → x.notes? a = some e → x.hub.Handles e (x.act a).hub
  buffered : ∀ s ∈ (c.run acts).hub.router.streams, s.buffer.Sublist ((c.routed acts).map (·.2))
  unknown : ∀ session, c.Absent acts session → (c.run acts).hub.sessions.get? session = none

theorem events_agree_with_sessions (config : Config) (link : Link) (acts : List Act) :
    (ofLink config link).Agrees acts := by
  have sound := initial_sound config link
  have tidy : (ofLink config link).hub.sessions.Tidy := SessionTable.empty_tidy
  refine ⟨?_, run_buffers sound (fun s member => absurd member List.not_mem_nil) acts,
    absent_unknown sound tidy rfl acts⟩
  intro x a e member noted
  obtain ⟨before, _, _, rfl⟩ := mem_trace act _ acts x a member
  have covered := run_covered sound (fun entry pending => absurd pending List.not_mem_nil) before
  exact notes_handles (run_sound sound before) covered (run_tidy sound tidy before) e noted

-- An event of a detached session is dropped; once that is purged the same event is delivered.
def forgotten : List Act :=
  [.move .reader, incoming "\x7b\"method\":\"Log.added\",\"sessionId\":\"S\"\x7d", .move .reader, .purge,
    incoming "\x7b\"method\":\"Log.added\",\"sessionId\":\"S\"\x7d", .move .reader]

example :
    let c := (ofLink {} inMemory).run (.subscribe .any :: detachedLater ++ forgotten)
    c.hub.stats.detachedSessionFrames = 1 ∧
      c.hub.router.streams.map (fun s => s.buffer.map (·.method)) = [["Target.detachedFromTarget", "Log.added"]] := by
  decide +kernel

end Connection

end DevTools
