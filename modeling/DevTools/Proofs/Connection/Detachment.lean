import DevTools.Proofs.Connection.Grant

set_option autoImplicit false

namespace DevTools

-- The session is not attached, and no request goes out under it.
def SessionTable.Refuses (t : SessionTable) (session : SessionId) : Prop :=
  t.isAttached session = false ∧ t.scope session = .error (.sessionNotFound session)

theorem SessionTable.refuses_unattached (t : SessionTable) (session : SessionId)
    (unattached : t.isAttached session = false) :
    t.Refuses session := ⟨unattached, scope_refused session unattached⟩

namespace Hub

theorem drop_event (h : Hub) (e : Event) (dropped : e.session.any h.sessions.isDetached = true) :
    h.takeEvent e = h.count fun s => { s with detachedSessionFrames := s.detachedSessionFrames + 1 } := by
  simp [takeEvent, dropped]

theorem take_detach (h : Hub) (e : Event) (session : SessionId) (tells : e.detaches? = some session)
    (heeded : e.session.any h.sessions.isDetached = false) :
    (h.takeEvent e).sessions = (h.sessions.markDetached session).2 := by
  simp only [takeEvent, heeded, Bool.false_eq_true, if_false, dispatch_sessions]
  rcases apply_hub h e with ⟨none_, _⟩ | ⟨gone, named, made⟩
  · rw [tells] at none_
    cases none_
  · rw [tells] at named
    cases named
    rw [made, detach_sessions]

end Hub

namespace Connection

def Speaks (c : Connection) (a : Act) (session : SessionId) : Prop :=
  (∃ target, c.Grants a session target) ∨ ∃ e target, c.notes? a = some e ∧ e.attaches? = some (session, target)

section
variable {c : Connection} {a : Act}

theorem run_detached (sound : c.Sound) (acts : List Act) (keeps : .purge ∉ acts) (session : SessionId)
    (detached : c.hub.sessions.isDetached session = true) : (c.run acts).hub.sessions.isDetached session = true := by
  induction acts generalizing c with
  | nil => exact detached
  | cons a acts ih =>
      have now := act_detached sound.kept a (fun same => keeps (by simp [same])) session detached
      exact ih (act_sound sound a) (fun member => keeps (List.mem_cons_of_mem a member)) now

theorem act_tidy (sound : c.Sound) (tidy : c.hub.sessions.Tidy) (a : Act) : (c.act a).hub.sessions.Tidy := by
  obtain ⟨deeds, made, -⟩ := act_deeds sound.kept a
  rw [made]
  exact Hub.performs_tidy c.hub deeds tidy

theorem run_tidy (sound : c.Sound) (tidy : c.hub.sessions.Tidy) (acts : List Act) : (c.run acts).hub.sessions.Tidy := by
  induction acts generalizing c with
  | nil => exact tidy
  | cons a acts ih => exact ih (act_sound sound a) (act_tidy sound tidy a)

-- Nobody has been granted the session, and it is not attached.
structure Lacks (c : Connection) (session : SessionId) : Prop where
  distinct : (c.hub.sessions.sessions.map (·.id)).Nodup
  granted : ∀ target, (session, target) ∉ c.granted
  attached : c.hub.sessions.isAttached session = false

theorem act_lacks (sound : c.Sound) (session : SessionId) (lacks : c.Lacks session) (silent : ¬ c.Speaks a session) :
    (c.act a).Lacks session := by
  have attaches := act_attaches sound.kept a
  refine ⟨attaches.distinct lacks.distinct, ?_, ?_⟩
  · intro target granted
    rcases grant_origin sound a session target granted with old | grants
    · exact lacks.granted target old
    · exact silent (Or.inl ⟨target, grants⟩)
  · by_contra attached
    obtain ⟨s, active, rfl⟩ := SessionTable.attached_active session (eq_true_of_ne_false attached)
    rcases SessionTable.attaches_active attaches s active with old | ⟨_, granted | ⟨e, noted, tells⟩⟩
    · have was := SessionTable.active_attached lacks.distinct s old
      rw [lacks.attached] at was
      cases was
    · exact lacks.granted s.target granted
    · exact silent (Or.inr ⟨e, s.target, noted, tells⟩)

theorem run_lacks (sound : c.Sound) (session : SessionId) (lacks : c.Lacks session) (acts : List Act)
    (silent : ∀ x a, (x, a) ∈ trace act c acts → ¬ x.Speaks a session) : (c.run acts).Lacks session := by
  induction acts generalizing c with
  | nil => exact lacks
  | cons a acts ih =>
      have now := act_lacks sound session lacks (silent c a List.mem_cons_self)
      exact ih (act_sound sound a) now fun x b member => silent x b (List.mem_cons_of_mem _ member)

end

theorem detach_event_applies (config : Config) (link : Link) (acts : List Act) (a : Act) :
    let c := (ofLink config link).run acts
    let d := c.act a
    ∀ e session, c.notes? a = some e → e.detaches? = some session →
      (e.session.any c.hub.sessions.isDetached = false →
        d.hub.sessions.isAttached session = false ∧ ∀ entry ∈ d.hub.calls.pending, entry.session ≠ some session) ∧
      (e.session.any c.hub.sessions.isDetached = true →
        d.hub = c.hub.count fun s => { s with detachedSessionFrames := s.detachedSessionFrames + 1 }) := by
  intro c d e session noted tells
  have initial := initial_sound config link
  have sound : c.Sound := run_sound initial acts
  have hub : d.hub = c.hub.takeEvent e := notes_hub sound.kept e noted
  constructor
  · intro heeded
    have unattached : d.hub.sessions.isAttached session = false := by
      rw [hub, Hub.take_detach c.hub e session tells heeded]
      exact Hub.detach_unattaches c.hub session
    refine ⟨unattached, ?_⟩
    intro entry pending scope
    have covered : d.hub.Covered := act_covered sound (run_covered initial (fun e member => by cases member) acts) a
    rw [covered entry pending session scope] at unattached
    cases unattached
  · intro dropped
    rw [hub]
    exact Hub.drop_event c.hub e dropped

def nested : List Act :=
  [.begin (.attach ⟨"T"⟩ none), .move .writer, .move .writer, .move (.caller 0),
    incoming "\x7b\"id\":1,\"result\":\x7b\"sessionId\":\"P\"\x7d\x7d", .move .reader, .move (.caller 0),
    .begin (.attach ⟨"V"⟩ none), .move .writer, .move .writer, .move (.caller 1),
    incoming "\x7b\"id\":2,\"result\":\x7b\"sessionId\":\"C\"\x7d\x7d", .move .reader, .move (.caller 1),
    .begin (.send ⟨"Page.reload", .empty, some ⟨"C"⟩⟩),
    incoming "\x7b\"method\":\"Target.detachedFromTarget\",\"params\":\x7b\"sessionId\":\"C\"\x7d,\"sessionId\":\"P\"\x7d"]

def childGone : Event := ⟨"Target.detachedFromTarget", some ⟨"\x7b\"sessionId\":\"C\"\x7d"⟩, some ⟨"P"⟩⟩

theorem detach_event_applies_nested :
    let c := (ofLink {} inMemory).run nested
    let d := c.act (.move .reader)
    c.notes? (.move .reader) = some childGone ∧ c.hub.calls.pendingIds = [3] ∧ d.hub.sessions.isAttached ⟨"C"⟩ = false ∧
      ∀ entry ∈ d.hub.calls.pending, entry.session ≠ some ⟨"C"⟩ := by
  have noted : ((ofLink {} inMemory).run nested).notes? (.move .reader) = some childGone := by decide +kernel
  have tells : childGone.detaches? = some ⟨"C"⟩ := by decide +kernel
  have heeded : childGone.session.any ((ofLink {} inMemory).run nested).hub.sessions.isDetached = false := by
    decide +kernel
  have pending : ((ofLink {} inMemory).run nested).hub.calls.pendingIds = [3] := by decide +kernel
  obtain ⟨applies, -⟩ := detach_event_applies {} inMemory nested (.move .reader) childGone ⟨"C"⟩ noted tells
  exact ⟨noted, pending, applies heeded⟩

-- The same event once the first session is detached: the second stays, and so does its call.
theorem detach_event_lost :
    let c := (ofLink {} inMemory).run (nested ++ [.begin (.detach ⟨"P"⟩ none)])
    let d := c.act (.move .reader)
    c.notes? (.move .reader) = some childGone ∧ childGone.detaches? = some ⟨"C"⟩ ∧
      d.hub.sessions.isAttached ⟨"C"⟩ = true ∧
      d.hub.calls.pending.any (fun entry => entry.session == some ⟨"C"⟩) = true := by
  decide +kernel

theorem last_detach_stands (config : Config) (link : Link) (before : List Act) (a : Act) :
    let c := (ofLink config link).run before
    let d := c.act a
    ∀ e session, c.notes? a = some e → e.session = none → e.detaches? = some session → ∀ later,
      ((c.hub.sessions.get? session).isSome = true → .purge ∉ later → (d.run later).hub.sessions.Refuses session) ∧
      ((∀ target, (session, target) ∉ d.granted) → (∀ x b, (x, b) ∈ trace act d later → ¬ x.Speaks b session) →
        (d.run later).hub.sessions.Refuses session) := by
  intro c d e session noted browser tells later
  have initial := initial_sound config link
  have sound : c.Sound := run_sound initial before
  have next : d.Sound := act_sound sound a
  have heeded : e.session.any c.hub.sessions.isDetached = false := by simp [browser]
  have sessions : d.hub.sessions = (c.hub.sessions.markDetached session).2 := by
    rw [← Hub.take_detach c.hub e session tells heeded]
    exact congrArg Hub.sessions (notes_hub sound.kept e noted)
  constructor
  · intro known keeps
    obtain ⟨s, found⟩ := Option.isSome_iff_exists.mp known
    have detached : d.hub.sessions.isDetached session = true := by
      rw [sessions]
      exact SessionTable.known_detached session s found
    have still := run_detached next later keeps session detached
    exact SessionTable.refuses_unattached _ session (SessionTable.detached_unattached session still)
  · intro ungranted silent
    have distinct : (d.hub.sessions.sessions.map (·.id)).Nodup := by
      rw [sessions]
      have grows := run_attaches initial before
      have goes : c.hub.sessions.Attaches (fun _ _ => True) (c.hub.sessions.markDetached session).2 :=
        SessionTable.attaches_detach session
      exact goes.distinct (grows.distinct List.nodup_nil)
    have unattached : d.hub.sessions.isAttached session = false := by
      rw [sessions]
      exact Hub.detach_unattaches c.hub session
    exact SessionTable.refuses_unattached _ session (run_lacks next session ⟨distinct, ungranted,
      unattached⟩ later silent).attached

def detachedLater : List Act :=
  [.begin (.attach ⟨"T"⟩ none), .move .writer, .move .writer, .move (.caller 0),
    incoming "\x7b\"id\":1,\"result\":\x7b\"sessionId\":\"S\"\x7d\x7d", .move .reader, .move (.caller 0),
    incoming "\x7b\"method\":\"Target.detachedFromTarget\",\"params\":\x7b\"sessionId\":\"S\"\x7d\x7d"]

-- The same frames back to back, before the caller moves.
def detachedAtOnce : List Act :=
  [.begin (.attach ⟨"T"⟩ none), .move .writer, .move .writer, .move (.caller 0),
    incoming "\x7b\"id\":1,\"result\":\x7b\"sessionId\":\"S\"\x7d\x7d",
    incoming "\x7b\"method\":\"Target.detachedFromTarget\",\"params\":\x7b\"sessionId\":\"S\"\x7d\x7d", .move .reader]

def sessionGone : Event := ⟨"Target.detachedFromTarget", some ⟨"\x7b\"sessionId\":\"S\"\x7d"⟩, none⟩

theorem last_detach_stands_registered :
    let c := (ofLink {} inMemory).run detachedLater
    let d := c.act (.move .reader)
    c.notes? (.move .reader) = some sessionGone ∧ c.hub.sessions.isAttached ⟨"S"⟩ = true ∧
      (∀ later, .purge ∉ later → (d.run later).hub.sessions.Refuses ⟨"S"⟩) ∧ (d.run []).hub.sessions.Refuses ⟨"S"⟩ := by
  have noted : ((ofLink {} inMemory).run detachedLater).notes? (.move .reader) = some sessionGone := by decide +kernel
  have tells : sessionGone.detaches? = some ⟨"S"⟩ := by decide +kernel
  have attached : ((ofLink {} inMemory).run detachedLater).hub.sessions.isAttached ⟨"S"⟩ = true := by decide +kernel
  have known : (((ofLink {} inMemory).run detachedLater).hub.sessions.get? ⟨"S"⟩).isSome = true := by decide +kernel
  have ungranted : (((ofLink {} inMemory).run detachedLater).act (.move .reader)).granted = [] := by decide +kernel
  have stands := last_detach_stands {} inMemory detachedLater (.move .reader) sessionGone ⟨"S"⟩ noted rfl tells
  refine ⟨noted, attached, fun later keeps => (stands later).1 known keeps, (stands []).2 ?_ ?_⟩
  · intro target
    rw [ungranted]
    exact List.not_mem_nil
  · exact fun x b member => absurd member List.not_mem_nil

theorem last_detach_undone :
    let c := (ofLink {} inMemory).run detachedAtOnce
    let d := c.act (.move .reader)
    c.notes? (.move .reader) = some sessionGone ∧ sessionGone.detaches? = some ⟨"S"⟩ ∧
      (d.act (.move (.caller 0))).hub.sessions.isAttached ⟨"S"⟩ = true ∧
        (d.act (.move (.caller 0))).callers.isEmpty = true := by
  decide +kernel

end Connection

end DevTools
