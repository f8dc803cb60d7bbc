import DevTools.Proofs.Connection.Grant
import DevTools.Proofs.Connection.Shutdown

set_option autoImplicit false

namespace DevTools

namespace Hub

theorem shutdown_swept (h : Hub) (reason : CloseReason) (isOpen : h.isClosed = false) :
    (h.shutdown reason).sessions.active = [] := by
  simp only [shutdown, isOpen, Bool.false_eq_true, if_false, SessionTable.detachAll, SessionTable.active]
  rw [List.filter_eq_nil_iff]
  intro s member
  obtain ⟨old, _, rfl⟩ := List.mem_map.mp member
  simp

theorem performs_open (h : Hub) (deeds : List Deed) (isOpen : h.isClosed = false)
    (silent : ∀ d ∈ deeds, d.closes? = none) :
    (h.performs deeds).isClosed = false := by
  have none_ : h.reason = none := by simpa [isClosed] using isOpen
  rw [isClosed, performs_reason, none_, List.findSome?_eq_none_iff.mpr silent]
  rfl

end Hub

namespace Connection

section
variable {c : Connection} {a : Act}

theorem plain_silent (d : Deed) (plain : d.isPlain = true) : d.closes? = none := by
  cases d with
  | shutdown reason => cases plain
  | _ => rfl

theorem caller_open (isOpen : c.hub.isClosed = false) (key : Nat) : (c.moveCaller key).hub.isClosed = false := by
  simp only [moveCaller]
  cases found : c.caller? key with
  | none => exact isOpen
  | some caller =>
      obtain ⟨deeds, made, makes, _⟩ := move_deeds caller c.clock c.tasksEnded c.hub
      have still : (caller.move c.clock c.tasksEnded c.hub).2.isClosed = false := by
        rw [made]
        apply Hub.performs_open c.hub deeds isOpen
        intro d member
        rcases makes d member with plain | ⟨session, target, _, rfl⟩
        · exact plain_silent d plain
        · rfl
      rcases moved : caller.move c.clock c.tasksEnded c.hub with ⟨progress, hub⟩
      rw [moved] at still
      cases progress <;> simp only [moved] <;> exact still

theorem drop_open (isOpen : c.hub.isClosed = false) (caller : Caller) : (caller.drop c.hub).isClosed = false := by
  obtain ⟨deeds, made, plain, _⟩ := drop_plainly caller c.hub
  rw [made]
  exact Hub.performs_open c.hub deeds isOpen fun d member => plain_silent d (plain d member)

theorem unheld_swept (before : Connection) (isOpen : before.hub.isClosed = false)
    (closed : before.closeUnheld.hub.isClosed = true) :
    before.closeUnheld.hub.sessions.active = [] := by
  cases held : before.isHeld with
  | true =>
      rw [close_unheld_of_held held, isOpen] at closed
      cases closed
  | false =>
      rw [close_unheld_of_free held]
      exact Hub.shutdown_swept before.hub .closedHere isOpen

theorem alike_no_trigger (keeps : a.keepsHolders = true)
    (ordinary : c.trigger? a = if c.isHeld && !(c.act a).isHeld then some .closedHere else none) :
    c.trigger? a = none := by
  rw [ordinary, alike_held (act_alike keeps)]
  simp

theorem reader_swept (isOpen : c.hub.isClosed = false) (closed : c.moveReader.hub.isClosed = true) :
    c.moveReader.hub.sessions.active = [] := by
  rcases received : c.link.receive with ⟨result, link⟩
  simp only [moveReader, isOpen, received, Bool.false_eq_true, if_false] at closed ⊢
  cases result with
  | ended => exact Hub.shutdown_swept c.hub .remoteHangup isOpen
  | failed fault => exact Hub.shutdown_swept c.hub (.readFailed fault.message) isOpen
  | frame bytes =>
      have still : (c.hub.takeFrame bytes).isClosed = false :=
        Hub.performs_open c.hub [.frame bytes] isOpen (by simp [Deed.closes?])
      rw [still] at closed
      cases closed
  | waiting | panicked => exact absurd (isOpen.symm.trans closed) Bool.false_ne_true

theorem writer_swept (isOpen : c.hub.isClosed = false) (reason : CloseReason)
    (trigger : c.trigger? (.move .writer) = some reason) :
    c.moveWriter.hub.sessions.active = [] := by
  simp only [trigger?] at trigger
  split at trigger
  · next o left writing =>
      rcases sent : c.link.send left with ⟨result, link⟩
      rw [sent] at trigger
      cases result with
      | failed fault =>
          have moved : c.moveWriter = { c with link }.failWrite o.call fault := by simp [moveWriter, writing, sent]
          rw [moved, (fail_write_hub (c := { c with link }) o.call fault).1]
          exact Hub.shutdown_swept c.hub (.writeFailed fault.message) isOpen
      | done | waiting => cases trigger
  · cases trigger

theorem closing_swept (sound : c.Sound) (a : Act) (isOpen : c.hub.isClosed = false)
    (closed : (c.act a).hub.isClosed = true) :
    (c.act a).hub.sessions.active = [] := by
  obtain ⟨reason, trigger⟩ : ∃ reason, c.trigger? a = some reason := by
    have standing : c.hub.reason = none := by simpa [Hub.isClosed] using isOpen
    rw [Hub.isClosed, act_reason sound a, standing, Option.none_or] at closed
    exact Option.isSome_iff_exists.mp closed
  have idle : a.keepsHolders = true → c.trigger? a ≠ if c.isHeld && !(c.act a).isHeld then some .closedHere
      else none := by
    intro keeps ordinary
    rw [alike_no_trigger keeps ordinary] at trigger
    cases trigger
  cases a with
  | begin operation =>
      cases operation with
      | close => exact Hub.shutdown_swept c.hub .closedHere isOpen
      | _ =>
          have held := start_held (held_of_open sound.kept isOpen)
          simp [trigger?, act, held] at trigger
  | move activity =>
      cases activity with
      | reader =>
          rw [reader_hub sound.kept] at closed ⊢
          exact reader_swept isOpen closed
      | writer =>
          have same : (c.act (.move .writer)).hub = c.moveWriter.hub :=
            close_unheld_hub sound.kept c.moveWriter (alike_held writer_moves.2) (does_closed writer_moves.1)
          rw [same]
          exact writer_swept isOpen reason trigger
      | caller key => exact unheld_swept (c.moveCaller key) (caller_open isOpen key) closed
      | handler stream => exact absurd rfl (idle rfl)
  | abort key =>
      simp only [act, abort] at closed ⊢
      cases found : c.caller? key with
      | none =>
          simp only [found, isOpen] at closed
          cases closed
      | some caller =>
          simp only [found] at closed ⊢
          exact unheld_swept _ (drop_open isOpen caller) closed
  | release => exact unheld_swept { c with held := false } isOpen closed
  | _ => exact absurd rfl (idle rfl)

theorem closed_deaf (closed : c.hub.isClosed = true) : c.hears? a = none ∧ c.notes? a = none := by
  cases a with
  | move activity => cases activity <;> simp [hears?, notes?, closed]
  | _ => exact ⟨rfl, rfl⟩

theorem closed_attaches (sound : c.Sound) (closed : c.hub.isClosed = true) (later : List Act) :
    c.hub.sessions.Attaches (fun session target => (session, target) ∈ c.granted) (c.run later).hub.sessions := by
  induction later generalizing c with
  | nil => exact SessionTable.attaches_same _ rfl rfl
  | cons a later ih =>
      obtain ⟨unheard, unnoted⟩ := closed_deaf (a := a) closed
      have first : c.hub.sessions.Attaches (fun session target => (session, target) ∈ c.granted)
          (c.act a).hub.sessions := by
        apply SessionTable.attaches_mono (act_attaches sound.kept a)
        rintro session target (granted | ⟨e, noted, _⟩)
        · exact granted
        · rw [unnoted] at noted
          cases noted
      have still : (c.act a).hub.isClosed = true := does_closed (act_deeds sound.kept a) closed
      have rest := ih (act_sound sound a) still
      refine SessionTable.attaches_trans first (SessionTable.attaches_mono rest ?_)
      intro session target granted
      rcases grant_origin sound a session target granted with old | ⟨r, _, heard, _⟩
      · exact old
      · rw [unheard] at heard
        cases heard

end

-- A session that is attached after the end has been granted before it, and is none that was there before.
theorem teardown_detaches (config : Config) (link : Link) (before : List Act) (a : Act) :
    let start := ofLink config link
    let c := start.run before
    let d := c.act a
    c.hub.isClosed = false → d.hub.isClosed = true →
      d.hub.sessions.active = [] ∧
      ∀ later, ∀ s ∈ (d.run later).hub.sessions.active, (s.id, s.target) ∈ d.granted ∧
        ∀ first rest, before ++ [a] = first ++ rest → ∀ old ∈ (start.run first).hub.sessions.sessions,
          old.serial < s.serial := by
  intro start c d isOpen closed
  have initial : start.Sound := initial_sound config link
  have sound : c.Sound := run_sound initial before
  have swept : d.hub.sessions.active = [] := closing_swept sound a isOpen closed
  refine ⟨swept, ?_⟩
  intro later s member
  rcases SessionTable.attaches_active (closed_attaches (act_sound sound a) closed later) s member with old
    | ⟨fresh, granted⟩
  · rw [swept] at old
    cases old
  · refine ⟨granted, ?_⟩
    intro first rest parts old held
    have ends : (start.run first).run rest = d := by
      rw [← run_append, ← parts, run_append]
      rfl
    have upTo := run_attaches initial first
    have after := run_attaches (run_sound initial first) rest
    rw [ends] at after
    rcases upTo.sessions old held with ⟨none_, present, _⟩ | ⟨_, bound, _⟩
    · cases present
    · exact Nat.lt_of_lt_of_le bound (Nat.le_trans after.serials fresh)

def grantedLate : List Act :=
  [.begin (.attach ⟨"V"⟩ none), .move .writer, .move .writer, .move (.caller 0),
    incoming "\x7b\"id\":1,\"result\":\x7b\"sessionId\":\"U\"\x7d\x7d", .move .reader, .move (.caller 0),
    .begin (.attach ⟨"T"⟩ none), .move .writer, .move .writer, .move (.caller 1),
    incoming "\x7b\"id\":2,\"result\":\x7b\"sessionId\":\"S\"\x7d\x7d", .far .hangUp, .move .reader]

theorem teardown_detaches_late :
    let c := (ofLink {} inMemory).run grantedLate
    let d := c.act (.move .reader)
    d.hub.isClosed = true ∧ d.hub.sessions.active = [] ∧
      ∀ later, ∀ s ∈ (d.run later).hub.sessions.active, s.id = ⟨"S"⟩ ∧ s.target = ⟨"T"⟩ ∧ 0 < s.serial := by
  have isOpen : ((ofLink {} inMemory).run grantedLate).hub.isClosed = false := by decide +kernel
  have closed : (((ofLink {} inMemory).run grantedLate).act (.move .reader)).hub.isClosed = true := by decide +kernel
  have granted : (((ofLink {} inMemory).run grantedLate).act (.move .reader)).granted = [(⟨"S"⟩, ⟨"T"⟩)] := by
    decide +kernel
  have there : ⟨0, ⟨"U"⟩, ⟨"V"⟩, false⟩ ∈ ((ofLink {} inMemory).run (grantedLate.take 7)).hub.sessions.sessions := by
    decide +kernel
  obtain ⟨swept, later⟩ := teardown_detaches {} inMemory grantedLate (.move .reader) isOpen closed
  refine ⟨closed, swept, ?_⟩
  intro acts s member
  obtain ⟨grants, fresh⟩ := later acts s member
  rw [granted, List.mem_singleton, Prod.mk.injEq] at grants
  exact ⟨grants.1, grants.2, fresh (grantedLate.take 7) (grantedLate.drop 7 ++ [.move .reader]) rfl _ there⟩

-- The caller moves after the end, and its session is attached.
theorem teardown_spares_grant :
    (((ofLink {} inMemory).run grantedLate).act (.move .reader)).hub.isClosed = true ∧
    ((((ofLink {} inMemory).run grantedLate).act (.move .reader)).act (.move (.caller 1))).hub.sessions.active =
      [⟨1, ⟨"S"⟩, ⟨"T"⟩, false⟩] := by
  decide +kernel

end Connection

end DevTools
