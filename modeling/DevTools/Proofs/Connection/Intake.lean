import DevTools.Proofs.Connection.Grant
import DevTools.Proofs.Connection.Shutdown
import DevTools.Proofs.Event.Matching

set_option autoImplicit false

namespace DevTools

namespace Hub

theorem perform_router (h : Hub) (d : Deed) : (h.perform d).router = h.router ∨
    ∃ deed, (h.perform d).router = h.router.perform deed ∧ ∀ e, deed = .dispatch e → ∃ bytes, d = .frame bytes := by
  cases d with
  | post asked =>
      obtain ⟨_, _, made⟩ := post_hub h asked
      rw [perform, made]
      exact Or.inl rfl
  | detach session =>
      obtain ⟨_, _, made⟩ := detach_hub h session
      rw [perform, made]
      exact Or.inl rfl
  | frame bytes =>
      obtain ⟨_, _, router, _, made, same | ⟨e, dispatched⟩⟩ := frame_hub h bytes
      · rw [perform, made]
        exact Or.inl same
      · rw [perform, made]
        exact Or.inr ⟨.dispatch e, dispatched, fun _ _ => ⟨bytes, rfl⟩⟩
  | shutdown reason =>
      simp only [perform, shutdown]
      split
      · exact Or.inl rfl
      · exact Or.inr ⟨.close, rfl, fun _ same => by cases same⟩
  | subscribe filter => exact Or.inr ⟨.subscribe filter, rfl, fun _ same => by cases same⟩
  | take stream => exact Or.inr ⟨.take stream, rfl, fun _ same => by cases same⟩
  | drain stream => exact Or.inr ⟨.drain stream, rfl, fun _ same => by cases same⟩
  | dropStream stream => exact Or.inr ⟨.drop stream, rfl, fun _ same => by cases same⟩
  | attach | purge | lieDown | getUp | collect | abandon | unqueue | unqueueAll => exact Or.inl rfl

theorem performs_staffed (h : Hub) (deeds : List Deed) (staffed : h.router.Staffed) :
    (h.performs deeds).router.Staffed := by
  induction deeds generalizing h with
  | nil => exact staffed
  | cons d deeds ih =>
      apply ih (h.perform d)
      rcases perform_router h d with same | ⟨deed, made, -⟩
      · rw [same]
        exact staffed
      · rw [made]
        exact Router.perform_staffed staffed deed

theorem apply_routing (h : Hub) (e : Event) : (h.applyToSessions e).router = h.router ∧
    (h.applyToSessions e).stats = h.stats := by
  rcases apply_hub h e with ⟨-, same | ⟨session, target, same⟩⟩ | ⟨session, -, same⟩
  · rw [same]
    exact ⟨rfl, rfl⟩
  · rw [same]
    exact ⟨rfl, rfl⟩
  · obtain ⟨_, _, made⟩ := detach_hub h session
    rw [same, made]
    exact ⟨rfl, rfl⟩

end Hub

namespace Connection

def takes? (c : Connection) (a : Act) : Option Bytes :=
  match a with
  | .move .reader =>
      if c.hub.isClosed then none
      else match c.link.receive.1 with
        | .frame bytes => some bytes
        | _ => none
  | _ => none

-- The event that the reader takes in and passes on. One of a detached session it drops.
def routes? (c : Connection) (a : Act) : Option Event :=
  (c.notes? a).filter fun e => !e.session.any c.hub.sessions.isDetached

section
variable {c : Connection} {a : Act}

theorem takes_reader (bytes : Bytes) : c.takes? a = some bytes ↔
    a = .move .reader ∧ c.hub.isClosed = false ∧ c.link.receive.1 = .frame bytes := by
  cases a with
  | move activity =>
      cases activity with
      | reader =>
          simp only [takes?, true_and]
          cases c.hub.isClosed with
          | true => simp
          | false => cases c.link.receive.1 <;> simp
      | writer | caller | handler => simp [takes?]
  | _ => simp [takes?]

theorem takes_hub (kept : c.Kept) (bytes : Bytes) (taken : c.takes? a = some bytes) :
    (c.act a).hub = c.hub.takeFrame bytes := by
  obtain ⟨rfl, isOpen, received⟩ := (takes_reader bytes).mp taken
  exact reader_frame kept bytes isOpen received

theorem hears_taken : c.hears? a = (c.takes? a).bind fun bytes =>
    match Message.decode bytes with
    | .ok (.response r) => some r
    | _ => none := by
  cases a with
  | move activity =>
      cases activity with
      | reader =>
          simp only [hears?, takes?]
          cases c.hub.isClosed with
          | true => rfl
          | false => cases c.link.receive.1 <;> rfl
      | writer | caller | handler => rfl
  | _ => rfl

theorem notes_taken : c.notes? a = (c.takes? a).bind fun bytes =>
    match Message.decode bytes with
    | .ok (.event e) => some e
    | _ => none := by
  cases a with
  | move activity =>
      cases activity with
      | reader =>
          simp only [notes?, takes?]
          cases c.hub.isClosed with
          | true => rfl
          | false => cases c.link.receive.1 <;> rfl
      | writer | caller | handler => rfl
  | _ => rfl

theorem untaken_counts (kept : c.Kept) (untaken : c.takes? a = none) :
    (c.act a).hub.stats = c.hub.stats ∧ (c.act a).hub.router.laggedTotal = c.hub.router.laggedTotal := by
  obtain ⟨deeds, made, allowed, _⟩ := act_deeds kept a
  rw [made]
  refine Hub.performs_counts c.hub deeds fun d member bytes same => ?_
  subst same
  rw [(takes_reader bytes).mpr (allowed _ member)] at untaken
  cases untaken

theorem run_staffed (sound : c.Sound) (staffed : c.hub.router.Staffed) (acts : List Act) :
    (c.run acts).hub.router.Staffed := by
  induction acts generalizing c with
  | nil => exact staffed
  | cons a acts ih =>
      refine ih (act_sound sound a) ?_
      obtain ⟨deeds, made, _⟩ := act_deeds sound.kept a
      rw [made]
      exact Hub.performs_staffed c.hub deeds staffed

end

theorem initial_staffed (config : Config) (link : Link) : (ofLink config link).hub.router.Staffed :=
  Router.opened_staffed _

end Connection

end DevTools
