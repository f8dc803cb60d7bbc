import DevTools.Proofs.Connection.Scope
import DevTools.Proofs.Session.Standing

set_option autoImplicit false

namespace DevTools

def Event.attaches? (e : Event) : Option (SessionId × TargetId) :=
  if e.method = AttachedToTarget.method then
    match e.paramsAs AttachedToTarget.record.read with
    | .ok attached => some (attached.session, attached.info.target)
    | .error _ => none
  else none

def Event.sessionDeeds (e : Event) : List SessionDeed :=
  (e.attaches?.map fun (session, target) => SessionDeed.register session target).toList ++
    (e.detaches?.map .markDetached).toList

def Deed.Brings (session : SessionId) (target : TargetId) : Deed → Prop
  | attach other its => other = session ∧ its = target
  | frame bytes => ∃ e, Message.decode bytes = .ok (.event e) ∧ e.attaches? = some (session, target)
  | _ => False

namespace Hub

theorem detach_sessions (h : Hub) (session : SessionId) :
    (h.detachHere session).2.sessions = (h.sessions.markDetached session).2 := by
  simp only [detachHere, SessionTable.markDetached]
  cases h.sessions.get? session with
  | none => rfl
  | some s =>
      dsimp only
      cases s.detached <;> rfl

theorem detach_unattaches (h : Hub) (session : SessionId) :
    (h.sessions.markDetached session).2.isAttached session = false := by
  cases known : h.sessions.get? session with
  | none => simp [SessionTable.markDetached, SessionTable.isAttached, known]
  | some s => exact SessionTable.detached_unattached session (SessionTable.known_detached session s known)

theorem apply_attaches (h : Hub) (e : Event) :
    h.sessions.Attaches (fun session target => e.attaches? = some (session, target))
      (h.applyToSessions e).sessions := by
  simp only [applyToSessions]
  split
  · next tells =>
      cases read : e.paramsAs AttachedToTarget.record.read with
      | ok attached => exact SessionTable.attaches_register _ _ (by simp [Event.attaches?, tells, read])
      | error fault => exact SessionTable.attaches_same _ rfl rfl
  · split
    · split
      · next gone _ =>
          rw [detach_sessions]
          exact SessionTable.attaches_detach gone.session
      · exact SessionTable.attaches_same _ rfl rfl
    · exact SessionTable.attaches_same _ rfl rfl

theorem frame_attaches (h : Hub) (bytes : Bytes) :
    h.sessions.Attaches (fun session target => Deed.Brings session target (.frame bytes))
      (h.takeFrame bytes).sessions := by
  simp only [takeFrame]
  cases decoded : Message.decode bytes with
  | error fault => exact SessionTable.attaches_same _ rfl rfl
  | ok message =>
      cases message with
      | request asked => exact SessionTable.attaches_same _ rfl rfl
      | response r => exact SessionTable.attaches_same _ (by rw [response_sessions]) (by rw [response_sessions])
      | event e =>
          simp only [takeEvent]
          split
          · exact SessionTable.attaches_same _ rfl rfl
          · rw [dispatch_sessions]
            exact SessionTable.attaches_mono (apply_attaches h e) fun session target tells => ⟨e, decoded, tells⟩

theorem perform_attaches (h : Hub) (d : Deed) :
    h.sessions.Attaches (fun session target => d.Brings session target) (h.perform d).sessions := by
  cases d with
  | post asked => exact SessionTable.attaches_same _ (by rw [perform, post_sessions]) (by rw [perform, post_sessions])
  | frame bytes => exact frame_attaches h bytes
  | detach session =>
      rw [perform, detach_sessions]
      exact SessionTable.attaches_detach session
  | attach session target => exact SessionTable.attaches_register session target ⟨rfl, rfl⟩
  | purge => exact SessionTable.attaches_purge
  | lieDown target => exact SessionTable.attaches_lie_down target
  | getUp sleeper => exact SessionTable.attaches_get_up sleeper
  | shutdown reason =>
      simp only [perform, shutdown]
      split
      · exact SessionTable.attaches_same _ rfl rfl
      · exact SessionTable.attaches_mark _ _
  | _ => exact SessionTable.attaches_same _ rfl rfl

theorem performs_attaches (h : Hub) (deeds : List Deed) (may : SessionId → TargetId → Prop)
    (brings : ∀ d ∈ deeds, ∀ session target, d.Brings session target → may session target) :
    h.sessions.Attaches may (h.performs deeds).sessions := by
  induction deeds generalizing h with
  | nil => exact SessionTable.attaches_same _ rfl rfl
  | cons d deeds ih =>
      have now := SessionTable.attaches_mono (perform_attaches h d) (brings d List.mem_cons_self)
      exact SessionTable.attaches_trans now
        (ih (h.perform d) fun other member => brings other (List.mem_cons_of_mem d member))

def sessionDeeds (h : Hub) : Deed → List SessionDeed
  | .frame bytes =>
      match Message.decode bytes with
      | .ok (.event e) => if e.session.any h.sessions.isDetached then [] else e.sessionDeeds
      | _ => []
  | .detach session => [.markDetached session]
  | .attach session target => [.register session target]
  | .purge => [.purge]
  | .lieDown target => [.lieDown target]
  | .getUp sleeper => [.getUp sleeper]
  | .shutdown _ => if h.isClosed then [] else [.detachAll]
  | _ => []

theorem apply_sessions (h : Hub) (e : Event) : (h.applyToSessions e).sessions = h.sessions.performs e.sessionDeeds := by
  simp only [applyToSessions, Event.sessionDeeds, Event.attaches?, Event.detaches?]
  split
  · cases e.paramsAs AttachedToTarget.record.read <;> rfl
  · split
    · cases e.paramsAs DetachedFromTarget.record.read with
      | ok detached => exact detach_sessions h detached.session
      | error fault => rfl
    · rfl

theorem perform_sessions (h : Hub) (d : Deed) : (h.perform d).sessions = h.sessions.performs (h.sessionDeeds d) := by
  cases d with
  | post asked => exact post_sessions h asked
  | frame bytes =>
      rw [perform, takeFrame, sessionDeeds]
      cases Message.decode bytes with
      | error fault => rfl
      | ok message =>
          cases message with
          | request asked => rfl
          | response r => exact response_sessions h r
          | event e =>
              dsimp only [takeEvent]
              split
              · rfl
              · rw [dispatch_sessions, apply_sessions]
  | detach session => exact detach_sessions h session
  | shutdown reason =>
      rw [perform, shutdown, sessionDeeds]
      split <;> rfl
  | _ => rfl

theorem performs_tidy (h : Hub) (deeds : List Deed) (tidy : h.sessions.Tidy) : (h.performs deeds).sessions.Tidy := by
  induction deeds generalizing h with
  | nil => exact tidy
  | cons d deeds ih =>
      apply ih (h.perform d)
      rw [perform_sessions]
      exact SessionTable.performs_tidy tidy (h.sessionDeeds d)

theorem perform_detached (h : Hub) (d : Deed) (keeps : d ≠ .purge) (session : SessionId)
    (detached : h.sessions.isDetached session = true) : (h.perform d).sessions.isDetached session = true := by
  cases d with
  | purge => exact absurd rfl keeps
  | post asked => rw [perform, post_sessions, detached]
  | detach other =>
      rw [perform, detach_sessions]
      exact SessionTable.detach_detached other session detached
  | attach other target => exact SessionTable.register_detached other session target detached
  | lieDown target => rw [perform, SessionTable.lie_down_detached, detached]
  | getUp sleeper => rw [perform, SessionTable.get_up_detached, detached]
  | shutdown reason =>
      simp only [perform, shutdown]
      split
      · exact detached
      · exact SessionTable.mark_detached _ session detached
  | frame bytes =>
      simp only [perform, takeFrame]
      split
      · rw [response_sessions, detached]
      · simp only [takeEvent]
        split
        · exact detached
        · rw [dispatch_sessions]
          simp only [applyToSessions]
          split
          · split
            · exact SessionTable.register_detached _ session _ detached
            · exact detached
          · split
            · split
              · rw [detach_sessions]
                exact SessionTable.detach_detached _ session detached
              · exact detached
            · exact detached
      · exact detached
      · exact detached
  | _ => exact detached

theorem performs_detached (h : Hub) (deeds : List Deed) (keeps : .purge ∉ deeds) (session : SessionId)
    (detached : h.sessions.isDetached session = true) : (h.performs deeds).sessions.isDetached session = true := by
  induction deeds generalizing h with
  | nil => exact detached
  | cons d deeds ih =>
      have now := perform_detached h d (fun same => keeps (by simp [same])) session detached
      exact ih (h.perform d) (fun member => keeps (List.mem_cons_of_mem d member)) now

end Hub

end DevTools
