import DevTools.Proofs.Connection.Wire

set_option autoImplicit false

namespace DevTools

namespace Socket

theorem flush_outbox (s : Socket) : s.flush.2.outbox = s.outbox := by
  rw [flush]
  split <;> rfl

theorem end_outbox (s : Socket) : s.atEnd.2.outbox = s.outbox := by
  rw [atEnd]
  dsimp only
  split <;> rfl

theorem read_outbox (s : Socket) (messages : List SocketMessage) : (s.readFrom messages).2.outbox = s.outbox := by
  induction messages generalizing s with
  | nil =>
      rw [readFrom]
      dsimp only
      split
      · exact end_outbox _
      · rfl
  | cons m rest ih =>
      cases m with
      | text | binary =>
          rw [readFrom]
          split <;> rfl
      | ping length =>
          rw [readFrom]
          dsimp only
          split
          · rfl
          · split
            · rfl
            · exact ih _
      | pong length =>
          rw [readFrom]
          split
          · rfl
          · exact ih _
      | close =>
          rw [readFrom]
          split <;> rfl

theorem receive_outbox (s : Socket) : s.receive.2.outbox = s.outbox := by
  have flushed := flush_outbox s
  rw [receive]
  split
  · rfl
  · split
    · split
      · next after flush =>
          rw [flush] at flushed
          rw [read_outbox, flushed]
      · next after flush =>
          rw [flush] at flushed
          exact flushed
    · exact read_outbox s s.inbox

theorem close_outbox (s : Socket) : s.close.2.outbox = s.outbox := by
  have flushed :=
    flush_outbox (if s.handshake == .active then { s with handshake := .closedHere, replyOwed := true } else s)
  have begun : (if s.handshake == .active then { s with handshake := .closedHere, replyOwed := true } else s).outbox =
    s.outbox := by
    split <;> rfl
  rw [close]
  rw [begun] at flushed
  split
  · next after flush =>
      rw [flush] at flushed
      exact flushed
  · next after flush =>
      rw [flush] at flushed
      exact flushed

end Socket

namespace Link

-- The messages under way to the far end, which takes them when it looks. On a pipe there are none.
def messages? (l : Link) : Option (List Bytes) :=
  match l.transport with
  | .pipe .. => none
  | .socket s => some s.outbox
  | .memory m => some m.outbox

section
variable (l : Link)

theorem messages_present (other : ¬ l.IsPipe) : l.messages?.isSome = true := by
  simp only [messages?]
  cases transport : l.transport with
  | pipe inlet outlet => exact absurd ⟨inlet, outlet, transport⟩ other
  | socket | memory => rfl

theorem receive_messages : l.receive.2.messages? = l.messages? := by
  simp only [receive, messages?]
  cases l.transport with
  | pipe => rfl
  | socket s => exact congrArg some (Socket.receive_outbox s)
  | memory m =>
      dsimp only [withTransport]
      rw [Memory.receive]
      split <;> rfl

theorem close_messages : l.close.2.messages? = l.messages? := by
  simp only [close, messages?]
  cases l.transport with
  | socket s => exact congrArg some (Socket.close_outbox s)
  | pipe | memory => rfl

theorem send_messages (s : Sending) : (l.send s).2.messages? = l.messages?.map fun messages =>
    match (l.send s).1 with
    | .done => messages ++ [s.rest]
    | _ => messages := by
  simp only [send, messages?]
  cases l.transport with
  | pipe => rfl
  | socket socket =>
      dsimp only [withTransport, Option.map_some]
      rw [Socket.send]
      split
      · rfl
      · split
        · rfl
        · split <;> rfl
        · rfl
  | memory m =>
      dsimp only [withTransport, Option.map_some]
      rw [Memory.send]
      split
      · rfl
      · split <;> rfl

theorem send_waits (s left : Sending) (whole : l.messages?.isSome = true) (waits : (l.send s).1 = .waiting left) :
    left = s := by
  simp only [send, messages?] at waits whole
  cases transport : l.transport with
  | pipe inlet outlet =>
      rw [transport] at whole
      cases whole
  | socket socket =>
      rw [transport] at waits
      dsimp only at waits
      rw [Socket.send] at waits
      split at waits
      · cases waits
      · split at waits
        · cases waits
        · split at waits <;> cases waits
        · cases waits
  | memory m =>
      rw [transport] at waits
      dsimp only at waits
      rw [Memory.send] at waits
      split at waits
      · cases waits
      · split at waits <;> cases waits
        rfl

theorem far_messages (deed : Far) :
    (l.far deed).messages? = l.messages? ∨ (l.far deed).messages? = l.messages?.map fun _ => [] := by
  cases deed with
  | arrive arrivals =>
      left
      rw [far]
      split
      · next transport =>
          split
          · rfl
          · simp only [messages?, withTransport, transport]
      · rfl
  | message m =>
      left
      rw [far, post]
      split
      · next s transport =>
          split
          · rfl
          · simp only [messages?, withTransport, transport, Socket.feed]
            split <;> rfl
      · rfl
  | hand handed =>
      left
      rw [far, hand]
      split
      · next m transport =>
          split
          · rfl
          · simp only [messages?, withTransport, transport]
      · rfl
  | hangUp =>
      left
      rw [far, hangUp]
      split
      · next transport => simp only [messages?, withTransport, transport]
      · next s transport => simp only [messages?, withTransport, transport, Socket.vanish]
      · next m transport =>
          rw [hand, transport]
          dsimp only
          split
          · rfl
          · simp only [messages?, withTransport, transport]
  | snap =>
      left
      rw [far, snap]
      split
      · next transport => simp only [messages?, withTransport, transport]
      · rfl
  | pace =>
      left
      rw [far]
      split
      · next transport => simp only [messages?, withTransport, transport]
      · rfl
  | script =>
      left
      rw [far]
      split
      · next transport => simp only [messages?, withTransport, transport]
      · rfl
  | look =>
      rw [far, collect]
      cases transport : l.transport with
      | pipe =>
          left
          dsimp only
          split <;> simp only [messages?, withTransport, transport]
      | socket s =>
          dsimp only
          split
          · exact Or.inl (by simp only [messages?, transport])
          · exact Or.inr (by simp only [messages?, withTransport, transport]; rfl)
      | memory m => exact Or.inr (by simp only [messages?, withTransport, transport]; rfl)

end

end Link

namespace Connection

def ships (c : Connection) (a : Act) : List Bytes :=
  ((c.act a).link.messages?.getD []).drop (c.link.messages?.getD []).length

def shipped (c : Connection) (acts : List Act) : List Bytes := (trace act c acts).flatMap fun (x, a) => x.ships a

-- A link of messages, on which the frame in hand is all there yet.
structure Whole (c : Connection) : Prop where
  messages : c.link.messages?.isSome = true
  inHand : ∀ o left, c.writer = .sending o left → left.rest = o.frame

section
variable {c : Connection} {a : Act}

theorem other_messages (other : a ≠ .move .writer) : (c.act a).link.messages? = c.link.messages? ∨
    (c.act a).link.messages? = c.link.messages?.map fun _ => [] := by
  cases aside : a.isAside with
  | true => exact Or.inl (congrArg Link.messages? (act_aside aside).link)
  | false =>
      cases a with
      | far deed => exact Link.far_messages c.link deed
      | advance | fire => exact Or.inl rfl
      | move activity =>
          cases activity with
          | reader =>
              left
              have received := Link.receive_messages c.link
              refine (congrArg Link.messages? (unheld_aside c.moveReader).link).trans ?_
              rw [moveReader]
              split
              · rfl
              · rcases received_ : c.link.receive with ⟨result, link⟩
                rw [received_] at received
                cases result <;> exact received
          | writer => exact absurd rfl other
          | caller | handler => cases aside
      | _ => cases aside

theorem end_messages (before : Connection) : before.endWriter.link.messages? = before.link.messages? := by
  rw [end_closes, Link.close_messages]

theorem fail_messages (before : Connection) (call : Call) (fault : Error) :
    (before.failWrite call fault).link.messages? = before.link.messages? :=
  end_messages ((before.acknowledge call (.error fault)).shutdown (.writeFailed fault.message))

theorem writer_messages (whole : c.Whole) :
    c.moveWriter.link.messages? = c.link.messages?.map (· ++ (c.completes? (.move .writer)).toList.map (·.frame)) ∧
    ∀ o left, c.moveWriter.writer = .sending o left → left.rest = o.frame := by
  have same : c.link.messages?.map (· ++ (none : Option Outbound).toList.map (·.frame)) = c.link.messages? := by simp
  cases writing : c.writer with
  | ended =>
      have moved : c.moveWriter = c := by simp only [moveWriter, writing]
      have nothing : c.completes? (.move .writer) = none := by simp only [completes?, writing]
      rw [moved, nothing, same]
      exact ⟨rfl, whole.inHand⟩
  | idle =>
      have nothing : c.completes? (.move .writer) = none := by simp only [completes?, writing]
      rw [nothing, same]
      cases closed : c.hub.isClosed with
      | true =>
          have moved : c.moveWriter = c.endWriter := by simp [moveWriter, writing, closed]
          rw [moved]
          exact ⟨end_messages c, fun _ _ sending => by cases sending⟩
      | false =>
          cases queued : c.hub.outbound with
          | nil =>
              have moved : c.moveWriter = c := by simp [moveWriter, writing, closed, queued]
              rw [moved]
              exact ⟨rfl, whole.inHand⟩
          | cons o rest =>
              have moved : c.moveWriter = { c with hub.outbound := rest, writer := .sending o (.ofFrame o.frame) } := by
                simp [moveWriter, writing, closed, queued]
              rw [moved]
              refine ⟨rfl, fun other left sending => ?_⟩
              cases sending
              rfl
  | sending o left =>
      have taken := Link.send_messages c.link left
      have waits := Link.send_waits c.link left
      rcases sends : c.link.send left with ⟨result, link⟩
      rw [sends] at taken waits
      cases result with
      | done =>
          have moved : c.moveWriter = { c with link, writer := .idle }.acknowledge o.call (.ok ()) := by
            simp [moveWriter, writing, sends]
          have goes : c.completes? (.move .writer) = some o := by simp only [completes?, writing, sends]
          rw [moved, goes, Option.toList_some, List.map_singleton, ← whole.inHand o left writing]
          exact ⟨taken, fun _ _ sending => by cases sending⟩
      | failed fault =>
          have moved : c.moveWriter = { c with link }.failWrite o.call fault := by simp [moveWriter, writing, sends]
          have nothing : c.completes? (.move .writer) = none := by simp only [completes?, writing, sends]
          rw [moved, nothing, same, fail_messages]
          exact ⟨taken.trans Option.map_id', fun _ _ sending => by cases sending⟩
      | waiting rest =>
          have nothing : c.completes? (.move .writer) = none := by simp only [completes?, writing, sends]
          have still : rest = left := waits rest whole.messages rfl
          rw [nothing, same]
          cases closed : c.hub.isClosed with
          | true =>
              have moved :
                  c.moveWriter = { c with link, writer := .sending o rest }.failWrite o.call .connectionClosed := by
                simp [moveWriter, writing, sends, closed]
              rw [moved, fail_messages]
              exact ⟨taken.trans Option.map_id', fun _ _ sending => by cases sending⟩
          | false =>
              have moved : c.moveWriter = { c with link, writer := .sending o rest } := by
                simp [moveWriter, writing, sends, closed]
              rw [moved]
              refine ⟨taken.trans Option.map_id', fun other remains sending => ?_⟩
              cases sending
              exact still ▸ whole.inHand o left writing

theorem act_messages (keyed : c.Keyed) (whole : c.Whole) (a : Act) :
    c.ships a = (c.completes? a).toList.map (·.frame) ∧ (c.act a).Whole := by
  obtain ⟨messages, present⟩ := Option.isSome_iff_exists.mp whole.messages
  by_cases writes : a = .move .writer
  · subst writes
    obtain ⟨taken, inHand⟩ := writer_messages whole
    have link : (c.act (.move .writer)).link = c.moveWriter.link := (unheld_aside _).link
    have writer : (c.act (.move .writer)).writer = c.moveWriter.writer := unheld_writer _
    rw [present] at taken
    refine ⟨?_, ?_, ?_⟩
    · rw [ships, link, taken, present]
      exact List.drop_left
    · rw [link, taken]
      rfl
    · rw [writer]
      exact inHand
  · rw [other_completes writes]
    have writer := (act_passes keyed a writes).writer
    have inHand : ∀ o left, (c.act a).writer = .sending o left → left.rest = o.frame := writer.symm ▸ whole.inHand
    rcases other_messages (c := c) writes with same | none_
    · rw [ships, same, present]
      exact ⟨List.drop_length, by rw [same, present]; rfl, inHand⟩
    · rw [ships, none_, present]
      exact ⟨List.drop_nil, by rw [none_, present]; rfl, inHand⟩

theorem run_messages (keyed : c.Keyed) (whole : c.Whole) (acts : List Act) :
    c.shipped acts = (c.completed acts).map (·.frame) := by
  induction acts generalizing c with
  | nil => rfl
  | cons a acts ih =>
      obtain ⟨now, next⟩ := act_messages keyed whole a
      have shipped : c.shipped (a :: acts) = c.ships a ++ (c.act a).shipped acts := rfl
      have completed : c.completed (a :: acts) = (c.completes? a).toList ++ (c.act a).completed acts := by
        simp only [Connection.completed, trace, List.filterMap_cons]
        cases c.completes? a <;> rfl
      rw [shipped, completed, List.map_append, now, ih (act_keyed keyed a) next]

end

end Connection

end DevTools
