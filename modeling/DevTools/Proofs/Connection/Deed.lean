import DevTools.Proofs.Call.Fate
import DevTools.Proofs.Connection.Act
/- What an act does to the state that everyone on a connection shares, as a list of deeds. Whatever holds through every
   deed holds through every run. -/

set_option autoImplicit false

namespace DevTools

inductive Deed where
  | post (asked : Asked)
  | frame (bytes : Bytes)
  | detach (session : SessionId)
  | attach (session : SessionId) (target : TargetId)
  | purge
  | lieDown (target : TargetId)
  | getUp (sleeper : Nat)
  | collect (call : Call)
  | abandon (call : Call)
  | subscribe (filter : Filter)
  | take (stream : Nat)
  | drain (stream : Nat)
  | dropStream (stream : Nat)
  | unqueue
  | unqueueAll
  | shutdown (reason : CloseReason)

def Deed.isPlain : Deed → Bool
  | post _ | frame _ | detach _ | attach .. | purge | shutdown _ => false
  | _ => true

def Deed.closes? : Deed → Option CloseReason
  | shutdown reason => some reason
  | _ => none

def Event.detaches? (e : Event) : Option SessionId :=
  if e.method = AttachedToTarget.method then none
  else if e.method = DetachedFromTarget.method then
    match e.paramsAs DetachedFromTarget.record.read with
    | .ok detached => some detached.session
    | .error _ => none
  else none

namespace Hub

def perform (h : Hub) : Deed → Hub
  | .post asked => (h.post asked).2
  | .frame bytes => h.takeFrame bytes
  | .detach session => (h.detachHere session).2
  | .attach session target => { h with sessions := (h.sessions.register session target).2 }
  | .purge => { h with sessions := h.sessions.purge.2 }
  | .lieDown target => { h with sessions := (h.sessions.lieDown target).2 }
  | .getUp sleeper => { h with sessions := h.sessions.getUp sleeper }
  | .collect call => { h with calls := h.calls.perform (.collect call) }
  | .abandon call => { h with calls := h.calls.perform (.abandon call) }
  | .subscribe filter => { h with router := (h.router.subscribe filter).2 }
  | .take stream => { h with router := (h.router.take stream).2 }
  | .drain stream => { h with router := (h.router.drain stream).2 }
  | .dropStream stream => { h with router := h.router.drop stream }
  | .unqueue => { h with outbound := h.outbound.tail }
  | .unqueueAll => { h with outbound := [] }
  | .shutdown reason => h.shutdown reason

def performs (h : Hub) (deeds : List Deed) : Hub := deeds.foldl perform h

def yields (h : Hub) (stream : Nat) : Deed → List Event
  | .take own => if own == stream then h.router.handed stream else []
  | .drain own => if own == stream then (h.router.drain stream).1 else []
  | _ => []

def yielded (h : Hub) (stream : Nat) (deeds : List Deed) : List Event :=
  (trace perform h deeds).flatMap fun (h, d) => h.yields stream d

theorem take_nothing (h : Hub) (own : Nat) (nothing : ∀ e, h.router.peek own ≠ .event e) (stream : Nat) :
    h.yields stream (.take own) = [] := by
  simp only [yields]
  split
  · next same =>
      rw [← beq_iff_eq.mp same, Router.handed]
      cases next : h.router.peek own with
      | event e => exact absurd next (nothing e)
      | _ => rfl
  · rfl

theorem performs_append (h : Hub) (before after : List Deed) :
    h.performs (before ++ after) = (h.performs before).performs after := List.foldl_append

theorem yielded_append (h : Hub) (stream : Nat) (before after : List Deed) :
    h.yielded stream (before ++ after) = h.yielded stream before ++ (h.performs before).yielded stream after := by
  simp only [yielded, trace_append, List.flatMap_append, performs]

theorem shutdown_closed (h : Hub) (closed : h.isClosed = true) (reason : CloseReason) : h.shutdown reason = h := by
  simp [shutdown, closed]

theorem post_hub (h : Hub) (asked : Asked) : ∃ calls outbound, (h.post asked).2 = { h with calls, outbound } := by
  simp only [post_eq]
  split
  · exact ⟨h.calls, h.outbound, rfl⟩
  · split
    · exact ⟨_, h.outbound, rfl⟩
    · split
      · exact ⟨_, h.outbound, rfl⟩
      · exact ⟨_, _, rfl⟩

theorem detach_hub (h : Hub) (session : SessionId) :
    ∃ calls sessions, (h.detachHere session).2 = { h with calls, sessions } := by
  simp only [detachHere]
  split
  · exact ⟨h.calls, h.sessions, rfl⟩
  · exact ⟨_, _, rfl⟩

theorem apply_hub (h : Hub) (e : Event) :
    (e.detaches? = none ∧ (h.applyToSessions e = h ∨
      ∃ session target, h.applyToSessions e = { h with sessions := (h.sessions.register session target).2 })) ∨
    ∃ session, e.detaches? = some session ∧ h.applyToSessions e = (h.detachHere session).2 := by
  simp only [Event.detaches?, applyToSessions]
  split
  · left
    split
    · exact ⟨rfl, Or.inr ⟨_, _, rfl⟩⟩
    · exact ⟨rfl, Or.inl rfl⟩
  · split
    · cases e.paramsAs DetachedFromTarget.record.read with
      | ok detached => exact Or.inr ⟨detached.session, rfl, rfl⟩
      | error fault => exact Or.inl ⟨rfl, Or.inl rfl⟩
    · exact Or.inl ⟨rfl, Or.inl rfl⟩

theorem frame_hub (h : Hub) (bytes : Bytes) :
    ∃ calls sessions router stats, h.takeFrame bytes = { h with calls, sessions, router, stats } ∧
      (router = h.router ∨ ∃ e, router = (h.router.dispatch e).2) := by
  simp only [takeFrame]
  split
  · simp only [takeResponse]
    split
    · exact ⟨_, h.sessions, h.router, h.stats, rfl, Or.inl rfl⟩
    · exact ⟨h.calls, h.sessions, h.router, _, rfl, Or.inl rfl⟩
  · next e _ =>
      simp only [takeEvent]
      split
      · exact ⟨h.calls, h.sessions, h.router, _, rfl, Or.inl rfl⟩
      · have applied : ∃ calls sessions, h.applyToSessions e = { h with calls, sessions } := by
          rcases apply_hub h e with ⟨_, same | ⟨session, target, same⟩⟩ | ⟨session, _, same⟩
          · exact ⟨h.calls, h.sessions, same⟩
          · exact ⟨h.calls, _, same⟩
          · rw [same]
            exact detach_hub h session
        obtain ⟨calls, sessions, same⟩ := applied
        simp only [dispatch, same]
        split
        · exact ⟨calls, sessions, _, _, rfl, Or.inr ⟨e, rfl⟩⟩
        · exact ⟨calls, sessions, _, h.stats, rfl, Or.inr ⟨e, rfl⟩⟩
  · exact ⟨h.calls, h.sessions, h.router, _, rfl, Or.inl rfl⟩
  · exact ⟨h.calls, h.sessions, h.router, _, rfl, Or.inl rfl⟩

theorem perform_reason (h : Hub) (d : Deed) : (h.perform d).reason = h.reason.or d.closes? := by
  cases d with
  | post asked =>
      obtain ⟨_, _, made⟩ := post_hub h asked
      simp [perform, made, Deed.closes?]
  | frame bytes =>
      obtain ⟨_, _, _, _, made, _⟩ := frame_hub h bytes
      simp [perform, made, Deed.closes?]
  | detach session =>
      obtain ⟨_, _, made⟩ := detach_hub h session
      simp [perform, made, Deed.closes?]
  | shutdown reason =>
      cases standing : h.reason with
      | none => simp [perform, shutdown, isClosed, standing, Deed.closes?]
      | some first => simp [perform, shutdown, isClosed, standing]
  | _ => exact (Option.or_none).symm

theorem performs_reason (h : Hub) (deeds : List Deed) :
    (h.performs deeds).reason = h.reason.or (deeds.findSome? Deed.closes?) := by
  induction deeds generalizing h with
  | nil => exact Option.or_none.symm
  | cons d deeds ih =>
      have rest := ih (h.perform d)
      rw [perform_reason, Option.or_assoc] at rest
      rw [List.findSome?_cons]
      refine rest.trans ?_
      cases d.closes? <;> rfl

theorem performs_is_closed (h : Hub) (deeds : List Deed) (closed : h.isClosed = true) :
    (h.performs deeds).isClosed = true := by
  obtain ⟨reason, has⟩ := Option.isSome_iff_exists.mp closed
  simp [isClosed, performs_reason, has]

theorem performs_shutdown (h : Hub) (deeds : List Deed) (reason : CloseReason) (member : .shutdown reason ∈ deeds) :
    (h.performs deeds).isClosed = true := by
  rw [isClosed, performs_reason, Option.isSome_or, Bool.or_eq_true, List.findSome?_isSome_iff]
  exact Or.inr ⟨.shutdown reason, member, rfl⟩

theorem performs_closes (h : Hub) (deeds : List Deed) (isOpen : h.isClosed = false)
    (closed : (h.performs deeds).isClosed = true) :
    ∃ reason, .shutdown reason ∈ deeds := by
  have none_ : h.reason = none := by simpa [isClosed] using isOpen
  rw [isClosed, performs_reason, none_, Option.none_or, List.findSome?_isSome_iff] at closed
  obtain ⟨d, member, closes⟩ := closed
  cases d with
  | shutdown reason => exact ⟨reason, member⟩
  | _ => cases closes

end Hub

end DevTools
