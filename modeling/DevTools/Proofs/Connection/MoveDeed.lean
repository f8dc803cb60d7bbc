import DevTools.Proofs.Connection.CallerDeed

set_option autoImplicit false

namespace DevTools

namespace Connection

-- As long as the connection is open somebody holds it.
def Kept (c : Connection) : Prop := c.hub.isClosed = true ∨ c.isHeld = true

def holders (c : Connection) : List (Nat × Bool) := c.callers.map fun entry => (entry.1, entry.2.holdsConnection)

structure Alike (c after : Connection) : Prop where
  owner : after.held = c.held
  holders : after.holders = c.holders
  next : after.nextCaller = c.nextCaller

def concluded (c : Connection) (hub : Hub) (result : Except Error Answer) : Connection :=
  { c with hub, nextCaller := c.nextCaller + 1, finished := c.finished ++ [(c.nextCaller, result)] }

def granted (c : Connection) : List (SessionId × TargetId) :=
  c.callers.filterMap fun entry => entry.2.granted? c.hub.calls

-- What an act may do beyond the plain deeds.
def Allows (c : Connection) (a : Act) : Deed → Prop
  | .post _ => ∃ operation, a = .begin operation
  | .frame bytes => a = .move .reader ∧ c.hub.isClosed = false ∧ c.link.receive.1 = .frame bytes
  | .detach session => ∃ cancel, a = .begin (.detach session cancel)
  | .attach session target => (session, target) ∈ c.granted
  | .purge => a = .purge
  | .shutdown reason => c.hub.isClosed = false ∧ c.trigger? a = some reason
  | _ => True

structure Does (c : Connection) (a : Act) (after : Hub) (deeds : List Deed) : Prop where
  hub : after = c.hub.performs deeds
  allowed : ∀ d ∈ deeds, c.Allows a d
  taken : ∀ stream, c.hub.yielded stream deeds = c.yields a stream

section
variable {c : Connection} {a : Act} {after : Hub}

theorem held_of_open (kept : c.Kept) (isOpen : c.hub.isClosed = false) : c.isHeld = true := by
  rcases kept with closed | held
  · rw [isOpen] at closed
    cases closed
  · exact held

theorem alike_refl : Alike c c := ⟨rfl, rfl, rfl⟩

theorem alike_trans {middle last : Connection} (first : Alike c middle) (second : Alike middle last) : Alike c last :=
  ⟨second.owner.trans first.owner, second.holders.trans first.holders, second.next.trans first.next⟩

theorem alike_held {later : Connection} (alike : Alike c later) : later.isHeld = c.isHeld := by
  have ofHolders : ∀ c : Connection, c.isHeld = (c.held || c.holders.any (·.2)) := by
    intro c
    simp only [isHeld, holders, List.any_map]
    rfl
  rw [ofHolders, ofHolders, alike.owner, alike.holders]

theorem enter_concluded (hub : Hub) (result : Except Error Answer) :
    (c.enter (.inr result, hub)).2 = (c.concluded hub result).closeUnheld := rfl

theorem close_unheld_of_held (held : c.isHeld = true) : c.closeUnheld = c := by
  simp only [isHeld] at held
  simp only [closeUnheld, held, if_true]

theorem close_unheld_of_free (free : c.isHeld = false) : c.closeUnheld = c.shutdown .closedHere := by
  simp only [isHeld] at free
  simp only [closeUnheld, free, Bool.false_eq_true, if_false]

theorem close_unheld_alike : Alike c c.closeUnheld := by
  simp only [closeUnheld]
  split <;> exact ⟨rfl, rfl, rfl⟩

theorem close_unheld_kept : c.closeUnheld.Kept := by
  cases held : c.isHeld with
  | true => exact Or.inr ((alike_held close_unheld_alike).trans held)
  | false =>
      left
      rw [close_unheld_of_free held, shutdown]
      simp only [Hub.shutdown]
      split
      · assumption
      · rfl

theorem plain_allowed (d : Deed) (plain : d.isPlain = true) : c.Allows a d := by
  cases d with
  | post | frame | detach | attach | purge | shutdown => cases plain
  | _ => trivial

theorem does_plainly (after : Hub) (taken : Nat → List Event) (plainly : Plainly c.hub after taken)
    (same : ∀ stream, taken stream = c.yields a stream) : ∃ deeds, Does c a after deeds := by
  obtain ⟨deeds, made, plain, yielded⟩ := plainly
  exact ⟨deeds, made, fun d member => plain_allowed d (plain d member),
    fun stream => (yielded stream).trans (same stream)⟩

theorem does_nothing (silent : ∀ stream, c.yields a stream = []) : ∃ deeds, Does c a c.hub deeds :=
  does_plainly c.hub _ (plainly_nothing c.hub) (fun stream => (silent stream).symm)

theorem does_one (d : Deed) (allowed : c.Allows a d) (same : ∀ stream, c.hub.yields stream d = c.yields a stream) :
    ∃ deeds, Does c a (c.hub.perform d) deeds := by
  refine ⟨[d], rfl, by simpa using allowed, ?_⟩
  intro stream
  simpa [Hub.yielded, trace] using same stream

theorem does_then (after : Hub) (d : Deed) (allowed : c.Allows a d) (silent : ∀ h stream, Hub.yields h stream d = [])
    (does : ∃ deeds, Does c a after deeds) : ∃ deeds, Does c a (after.perform d) deeds := by
  obtain ⟨deeds, rfl, allows, taken⟩ := does
  refine ⟨deeds ++ [d], (Hub.performs_append c.hub deeds [d]).symm, ?_, ?_⟩
  · intro other member
    rcases List.mem_append.mp member with old | new
    · exact allows other old
    · rw [List.mem_singleton.mp new]
      exact allowed
  · intro stream
    rw [Hub.yielded_append, taken]
    simp [Hub.yielded, trace, silent]

theorem does_closed (does : ∃ deeds, Does c a after deeds) (closed : c.hub.isClosed = true) :
    after.isClosed = true := by
  obtain ⟨deeds, made, _⟩ := does
  rw [made]
  exact Hub.performs_is_closed c.hub deeds closed

-- Closing for want of a holder is one more deed, and only where the act has let the last handle go.
theorem does_close (kept : c.Kept) (before : Connection) (same : c.act a = before.closeUnheld)
    (ordinary : c.trigger? a = if c.isHeld && !(c.act a).isHeld then some .closedHere else none)
    (does : ∃ deeds, Does c a before.hub deeds) : ∃ deeds, Does c a (c.act a).hub deeds := by
  cases held : before.isHeld with
  | true =>
      rw [same, close_unheld_of_held held]
      exact does
  | false =>
      rw [same, close_unheld_of_free held]
      cases closed : before.hub.isClosed with
      | true =>
          rw [shutdown, Hub.shutdown_closed before.hub closed]
          exact does
      | false =>
          have wasOpen : c.hub.isClosed = false := by
            cases was : c.hub.isClosed with
            | false => rfl
            | true =>
                rw [does_closed does was] at closed
                cases closed
          have nowFree : (c.act a).isHeld = false := by rw [same, alike_held close_unheld_alike, held]
          apply does_then before.hub (.shutdown .closedHere) ⟨wasOpen, ?_⟩ (fun _ _ => rfl) does
          rw [ordinary, held_of_open kept wasOpen, nowFree]
          rfl

theorem close_unheld_still (kept : c.Kept) (before : Connection) (held : before.isHeld = c.isHeld)
    (still : c.hub.isClosed = true → before.hub.isClosed = true) : before.closeUnheld = before := by
  rcases kept with closed | isHeld
  · cases free : before.isHeld with
    | true => exact close_unheld_of_held free
    | false =>
        rw [close_unheld_of_free free, shutdown, Hub.shutdown_closed before.hub (still closed) .closedHere]
  · exact close_unheld_of_held (held.trans isHeld)

theorem close_unheld_hub (kept : c.Kept) (before : Connection) (held : before.isHeld = c.isHeld)
    (still : c.hub.isClosed = true → before.hub.isClosed = true) : before.closeUnheld.hub = before.hub :=
  congrArg Connection.hub (close_unheld_still kept before held still)

theorem reader_moves : (∃ deeds, Does c (.move .reader) c.moveReader.hub deeds) ∧ Alike c c.moveReader := by
  constructor
  · simp only [moveReader]
    cases closed : c.hub.isClosed with
    | true => exact does_nothing (fun _ => rfl)
    | false =>
        have triggers : ∀ reason, c.trigger? (.move .reader) = some reason →
            ∃ deeds, Does c (.move .reader) (c.hub.shutdown reason) deeds := by
          intro reason triggered
          exact does_one (.shutdown reason) ⟨closed, triggered⟩ (fun _ => rfl)
        rcases received : c.link.receive with ⟨result, link⟩
        cases result with
        | frame bytes => exact does_one (.frame bytes) ⟨rfl, closed, by rw [received]⟩ (fun _ => rfl)
        | ended => exact triggers .remoteHangup (by simp only [trigger?, received])
        | failed fault => exact triggers (.readFailed fault.message) (by simp only [trigger?, received])
        | waiting | panicked => exact does_nothing (fun _ => rfl)
  · simp only [moveReader]
    split
    · exact ⟨rfl, rfl, rfl⟩
    · split <;> exact ⟨rfl, rfl, rfl⟩

theorem reader_hub (kept : c.Kept) : (c.act (.move .reader)).hub = c.moveReader.hub :=
  close_unheld_hub kept c.moveReader (alike_held reader_moves.2) (does_closed reader_moves.1)

theorem reader_frame (kept : c.Kept) (bytes : Bytes) (isOpen : c.hub.isClosed = false)
    (received : c.link.receive.1 = .frame bytes) :
    (c.act (.move .reader)).hub = c.hub.takeFrame bytes := by
  rw [reader_hub kept]
  rcases taken : c.link.receive with ⟨result, link⟩
  rw [taken] at received
  cases received
  simp [moveReader, isOpen, taken]

theorem reader_deeds (kept : c.Kept) : ∃ deeds, Does c (.move .reader) (c.act (.move .reader)).hub deeds := by
  rw [reader_hub kept]
  exact reader_moves.1

@[simp] theorem acknowledge_holds (call : Call) (result : Written) (caller : Caller) :
    (caller.acknowledge call result).holdsConnection = caller.holdsConnection := by
  cases caller <;> simp only [Caller.acknowledge] <;> split <;> rfl

theorem acknowledge_alike (call : Call) (result : Written) : Alike c (c.acknowledge call result) := by
  refine ⟨rfl, ?_, rfl⟩
  simp [holders, acknowledge]

theorem end_writer_hub : c.endWriter.hub = c.hub.perform .unqueueAll ∧ Alike c c.endWriter := by
  have refused : ∀ (queue : List Outbound) (before : Connection),
      let after := queue.foldl (fun c o => c.acknowledge o.call (.error .connectionClosed)) before
      after.hub = before.hub ∧ Alike before after := by
    intro queue
    induction queue with
    | nil => exact fun _ => ⟨rfl, alike_refl⟩
    | cons o queue ih =>
        intro before
        obtain ⟨hub, alike⟩ := ih (before.acknowledge o.call (.error .connectionClosed))
        exact ⟨hub, alike_trans (acknowledge_alike o.call _) alike⟩
  obtain ⟨hub, alike⟩ := refused c.hub.outbound c
  refine ⟨?_, alike.owner, alike.holders, alike.next⟩
  simp only [endWriter, Hub.perform]
  rw [hub]

theorem fail_write_hub (call : Call) (fault : Error) :
    (c.failWrite call fault).hub = (c.hub.shutdown (.writeFailed fault.message)).perform .unqueueAll ∧
      Alike c (c.failWrite call fault) := by
  obtain ⟨hub, alike⟩ := end_writer_hub (c := (c.acknowledge call (.error fault)).shutdown (.writeFailed fault.message))
  have told := acknowledge_alike (c := c) call (.error fault)
  exact ⟨hub, alike.owner.trans told.owner, alike.holders.trans told.holders, alike.next.trans told.next⟩

theorem writer_moves : (∃ deeds, Does c (.move .writer) c.moveWriter.hub deeds) ∧ Alike c c.moveWriter := by
  have silent : ∀ stream, c.yields (.move .writer) stream = [] := fun _ => rfl
  have unqueues : ∃ deeds, Does c (.move .writer) (c.hub.perform .unqueueAll) deeds :=
    does_one .unqueueAll trivial (fun _ => rfl)
  cases writing : c.writer with
  | ended =>
      have moved : c.moveWriter = c := by simp only [moveWriter, writing]
      rw [moved]
      exact ⟨does_nothing silent, ⟨rfl, rfl, rfl⟩⟩
  | idle =>
      cases closed : c.hub.isClosed with
      | true =>
          have moved : c.moveWriter = c.endWriter := by simp [moveWriter, writing, closed]
          obtain ⟨hub, alike⟩ := end_writer_hub (c := c)
          rw [moved, hub]
          exact ⟨unqueues, alike⟩
      | false =>
          cases queued : c.hub.outbound with
          | nil =>
              have moved : c.moveWriter = c := by simp [moveWriter, writing, closed, queued]
              rw [moved]
              exact ⟨does_nothing silent, ⟨rfl, rfl, rfl⟩⟩
          | cons o rest =>
              have moved :
                  c.moveWriter = { c with hub := c.hub.perform .unqueue, writer := .sending o (.ofFrame o.frame) } := by
                simp [moveWriter, writing, closed, queued, Hub.perform]
              rw [moved]
              exact ⟨does_one .unqueue trivial (fun _ => rfl), ⟨rfl, rfl, rfl⟩⟩
  | sending o left =>
      rcases sent : c.link.send left with ⟨result, link⟩
      cases result with
      | done =>
          have moved : c.moveWriter = { c with link, writer := .idle }.acknowledge o.call (.ok ()) := by
            simp [moveWriter, writing, sent]
          rw [moved]
          have told := acknowledge_alike (c := { c with link, writer := .idle }) o.call (.ok ())
          exact ⟨does_nothing silent, ⟨told.owner, told.holders, told.next⟩⟩
      | failed fault =>
          have moved : c.moveWriter = { c with link }.failWrite o.call fault := by simp [moveWriter, writing, sent]
          obtain ⟨hub, alike⟩ := fail_write_hub (c := { c with link }) o.call fault
          rw [moved, hub]
          refine ⟨?_, ⟨alike.owner, alike.holders, alike.next⟩⟩
          cases closed : c.hub.isClosed with
          | true =>
              rw [Hub.shutdown_closed c.hub closed]
              exact unqueues
          | false =>
              have triggered : c.trigger? (.move .writer) = some (.writeFailed fault.message) := by
                simp only [trigger?, writing, sent]
              exact does_then _ .unqueueAll trivial (fun _ _ => rfl)
                (does_one (.shutdown (.writeFailed fault.message)) ⟨closed, triggered⟩ (fun _ => rfl))
      | waiting left =>
          cases closed : c.hub.isClosed with
          | true =>
              have moved :
                  c.moveWriter = { c with link, writer := .sending o left }.failWrite o.call .connectionClosed := by
                simp [moveWriter, writing, sent, closed]
              obtain ⟨hub, alike⟩ :=
                fail_write_hub (c := { c with link, writer := .sending o left }) o.call .connectionClosed
              rw [moved, hub]
              refine ⟨?_, ⟨alike.owner, alike.holders, alike.next⟩⟩
              rw [Hub.shutdown_closed c.hub closed]
              exact unqueues
          | false =>
              have moved : c.moveWriter = { c with link, writer := .sending o left } := by
                simp [moveWriter, writing, sent, closed]
              rw [moved]
              exact ⟨does_nothing silent, ⟨rfl, rfl, rfl⟩⟩

theorem writer_deeds (kept : c.Kept) : ∃ deeds, Does c (.move .writer) (c.act (.move .writer)).hub deeds := by
  have moved := writer_moves (c := c)
  have same : (c.act (.move .writer)).hub = c.moveWriter.hub :=
    close_unheld_hub kept c.moveWriter (alike_held moved.2) (does_closed moved.1)
  rw [same]
  exact moved.1

theorem caller_deeds (kept : c.Kept) (key : Nat) :
    ∃ deeds, Does c (.move (.caller key)) (c.act (.move (.caller key))).hub deeds := by
  apply does_close kept (c.moveCaller key) rfl rfl
  simp only [moveCaller]
  cases found : c.caller? key with
  | none => exact does_nothing (fun stream => by simp only [yields, found])
  | some caller =>
      obtain ⟨deeds, made, makes, yielded⟩ := move_deeds caller c.clock c.tasksEnded c.hub
      have allowed : ∀ d ∈ deeds, c.Allows (.move (.caller key)) d := by
        intro d member
        rcases makes d member with plain | ⟨session, target, granted, rfl⟩
        · exact plain_allowed d plain
        · obtain ⟨entry, located, rfl⟩ := Option.map_eq_some_iff.mp found
          exact List.mem_filterMap.mpr ⟨entry, List.mem_of_find?_eq_some located, granted⟩
      have same : ∀ stream, caller.takes c.hub stream = c.yields (.move (.caller key)) stream := by
        intro stream
        simp only [yields, found]
        cases caller <;> rfl
      rcases moved : caller.move c.clock c.tasksEnded c.hub with ⟨progress, hub⟩
      rw [moved] at made
      have does : ∃ deeds, Does c (.move (.caller key)) hub deeds :=
        ⟨deeds, made, allowed, fun stream => (yielded stream).trans (same stream)⟩
      cases progress <;> simp only [moved] <;> exact does

theorem handler_deeds (kept : c.Kept) (own : Nat) :
    ∃ deeds, Does c (.move (.handler own)) (c.act (.move (.handler own))).hub deeds := by
  apply does_close kept (c.moveHandler own) rfl rfl
  simp only [moveHandler]
  cases found : c.handler? own with
  | none => exact does_nothing (fun stream => by simp only [yields, found])
  | some h =>
      cases busy : h.busy with
      | some work =>
          have silent : ∀ stream, c.yields (.move (.handler own)) stream = [] := by
            intro stream
            simp [yields, found, busy]
          simp only [busy]
          split <;> exact does_nothing silent
      | none =>
          simp only [busy]
          cases cancelled : h.cancelled with
          | true =>
              have silent : ∀ stream, c.yields (.move (.handler own)) stream = [] := by
                intro stream
                simp [yields, found, cancelled]
              exact does_one (.dropStream own) trivial (fun stream => (silent stream).symm)
          | false =>
              have gives : ∀ stream, c.yields (.move (.handler own)) stream = c.hub.yields stream (.take own) := by
                intro stream
                by_cases mine : own = stream
                · subst mine
                  simp [yields, found, busy, cancelled, Hub.yields]
                · simp [yields, found, busy, cancelled, Hub.yields, mine]
              have empty : (∀ e, c.hub.router.peek own ≠ .event e) → ∀ stream,
                  c.yields (.move (.handler own)) stream = [] := by
                intro nothing stream
                rw [gives stream]
                exact Hub.take_nothing c.hub own nothing stream
              simp only [Bool.false_eq_true, if_false]
              rcases taken : c.hub.router.take own with ⟨next, router⟩
              have peeked : c.hub.router.peek own = next := congrArg Prod.fst taken
              cases next with
              | event e =>
                  have does := does_one (c := c) (a := .move (.handler own)) (.take own) trivial
                    (fun stream => (gives stream).symm)
                  simp only [Hub.perform, taken] at does
                  exact does
              | ended =>
                  have silent := empty (by simp [peeked])
                  exact does_one (.dropStream own) trivial (fun stream => (silent stream).symm)
              | waiting => exact does_nothing (empty (by simp [peeked]))

end

end Connection

end DevTools
