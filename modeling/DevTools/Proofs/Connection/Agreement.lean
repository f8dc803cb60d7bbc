import DevTools.Proofs.Connection.Inflow
import DevTools.Proofs.Connection.Wire
import DevTools.Proofs.Transport.Passage

set_option autoImplicit false

namespace DevTools

def overSocket : Link := { transport := .socket {} }

-- Messages that bear these frames, one each, with a close message at their end or without one. A text has to be UTF-8.
inductive Bears (pings : Bool) : (closes : Bool) → List SocketMessage → List Bytes → Prop where
  | nothing : Bears pings false [] []
  | close : Bears pings true [.close] []
  | text (closes : Bool) (bytes : Bytes) (messages : List SocketMessage) (frames : List Bytes)
      (readable : (Utf8.decode? bytes).isSome = true) (fits : bytes.length ≤ Socket.longestPayload)
      (others : Bears pings closes messages frames) : Bears pings closes (.text bytes :: messages) (bytes :: frames)
  | binary (closes : Bool) (bytes : Bytes) (messages : List SocketMessage) (frames : List Bytes)
      (fits : bytes.length ≤ Socket.longestPayload) (others : Bears pings closes messages frames) :
      Bears pings closes (.binary bytes :: messages) (bytes :: frames)
  | ping (closes : Bool) (length : Nat) (messages : List SocketMessage) (frames : List Bytes) (allowed : pings = true)
      (short : length ≤ Socket.longestControl) (others : Bears pings closes messages frames) :
      Bears pings closes (.ping length :: messages) frames
  | pong (closes : Bool) (length : Nat) (messages : List SocketMessage) (frames : List Bytes)
      (short : length ≤ Socket.longestControl) (others : Bears pings closes messages frames) :
      Bears pings closes (.pong length :: messages) frames

def Inlet.script (i : Inlet) (chunks : List Bytes) : List Far := if i.ended then [] else chunks.map arrives ++ [.hangUp]

-- All frames are found, and then the end.
def Entire (rest : List Bytes) (result : Received) : Prop := rest = [] ∧ result = .ended

inductive PipeTells : Link → List Far → List Bytes → Prop where
  | flows (inlet : Inlet) (outlet : Outlet) (endSeen : Bool) (bytes : Bytes) (chunks frames : List Bytes)
      (silent : inlet.ended = true → chunks = []) (holds : inlet.Holds bytes)
      (owed : inlet.owes (bytes ++ chunks.flatten) = frames.map .frame ++ [.ended]) :
      PipeTells ⟨.pipe inlet outlet, false, endSeen⟩ (inlet.script chunks) frames

theorem pipe_call (inlet : Inlet) (outlet : Outlet) (deaf endSeen : Bool) (result : Received) (after : Link)
    (call : Link.receive ⟨.pipe inlet outlet, deaf, endSeen⟩ = (result, after)) :
    ∃ left, inlet.receive = (result, left) ∧ after = ⟨.pipe left outlet, deaf, endSeen⟩ := by
  cases call
  exact ⟨inlet.receive.2, rfl, rfl⟩

theorem pipe_aside (inlet : Inlet) (outlet : Outlet) (deaf endSeen : Bool) (deed : Far) (aside : deed.speaks = false) :
    ∃ changed seen, Link.far ⟨.pipe inlet outlet, deaf, endSeen⟩ deed = ⟨.pipe inlet changed, deaf, seen⟩ := by
  cases deed with
  | look =>
      simp only [Link.far, Link.collect]
      split <;> exact ⟨_, _, rfl⟩
  | snap | pace | script => exact ⟨_, _, rfl⟩
  | arrive | message | hand | hangUp => cases aside

theorem pipe_foretells : Foretells Entire PipeTells where
  comes l deed coming frames told := by
    generalize all : deed :: coming = deeds at told
    obtain ⟨inlet, outlet, endSeen, bytes, chunks, _, silent, holds, owed⟩ := told
    cases last : inlet.ended with
    | true => simp [Inlet.script, last] at all
    | false =>
        simp only [Inlet.script, last, Bool.false_eq_true, if_false] at all
        cases chunks with
        | nil =>
            cases all
            exact .flows { inlet with ended := true } outlet endSeen bytes [] frames (fun _ => rfl)
              (Inlet.hangUp_holds holds) owed
        | cons chunk chunks =>
            cases all
            have fed : Link.far ⟨.pipe inlet outlet, false, endSeen⟩ (arrives chunk) = ⟨.pipe (inlet.feed chunk) outlet,
                false, endSeen⟩ := by
              have opened : ¬ (false || inlet.ended) = true := by simp [last]
              simp only [Link.far, arrives]
              rw [if_neg opened]
              rfl
            have script : (inlet.feed chunk).script chunks = chunks.map arrives ++ [.hangUp] := by
              simp only [Inlet.script, Inlet.feed, last, Bool.false_eq_true, if_false]
            change PipeTells (Link.far _ (arrives chunk)) (chunks.map arrives ++ [.hangUp]) frames
            rw [fed, ← script]
            refine .flows (inlet.feed chunk) outlet endSeen (bytes ++ chunk) chunks frames ?_
              (Inlet.feed_holds holds chunk) ?_
            · exact fun ended => absurd (last.symm.trans ended) Bool.false_ne_true
            · rw [List.append_assoc]
              exact owed
  aside l deed coming frames aside told := by
    obtain ⟨inlet, outlet, endSeen, bytes, chunks, _, silent, holds, owed⟩ := told
    obtain ⟨changed, seen, same⟩ := pipe_aside inlet outlet false endSeen deed aside
    rw [same]
    exact .flows inlet changed seen bytes chunks frames silent holds owed
  sends l s coming frames told := by
    obtain ⟨inlet, outlet, endSeen, bytes, chunks, _, silent, holds, owed⟩ := told
    exact .flows inlet _ endSeen bytes chunks frames silent holds owed
  waits l after coming frames told call := by
    obtain ⟨inlet, outlet, endSeen, bytes, chunks, _, silent, holds, owed⟩ := told
    obtain ⟨left, received, rfl⟩ := pipe_call _ _ _ _ _ _ call
    have same := Inlet.receive_ended received
    cases Inlet.receive_returns received holds fun ended => congrArg List.flatten (silent ended) with
    | waits _ alive unread still =>
        have script : inlet.script chunks = left.script chunks := by rw [Inlet.script, Inlet.script, same]
        rw [script]
        refine ⟨by simp [Inlet.script, alive],
          .flows left outlet endSeen [] chunks frames ?_ unread (still.symm.trans owed)⟩
        exact fun ended => absurd (alive.symm.trans ended) Bool.false_ne_true
    | stops _ _ last => cases last
  frame l after coming frames bytes told call := by
    obtain ⟨inlet, outlet, endSeen, held, chunks, _, silent, holds, owed⟩ := told
    obtain ⟨left, received, rfl⟩ := pipe_call _ _ _ _ _ _ call
    have same := Inlet.receive_ended received
    cases Inlet.receive_returns received holds fun ended => congrArg List.flatten (silent ended) with
    | frame _ unread _ keeps next =>
        rw [owed] at next
        cases frames with
        | nil => cases next
        | cons first frames =>
            obtain ⟨first, others⟩ := List.cons.inj next
            cases first
            have script : inlet.script chunks = left.script chunks := by rw [Inlet.script, Inlet.script, same]
            rw [script]
            exact ⟨frames, rfl,
              .flows left outlet endSeen unread chunks frames (fun ended => silent (same ▸ ended)) keeps others.symm⟩
    | stops _ _ last => cases last
  begins l coming frames told panics := by
    obtain ⟨inlet, outlet, endSeen, held, chunks, _, silent, holds, owed⟩ := told
    rcases call : inlet.receive with ⟨result, left⟩
    cases (congrArg Prod.fst call).symm.trans panics
    cases Inlet.receive_returns call holds fun ended => congrArg List.flatten (silent ended) with
    | stops _ _ last => cases last
  stops l after coming frames result told call last := by
    obtain ⟨inlet, outlet, endSeen, held, chunks, _, silent, holds, owed⟩ := told
    obtain ⟨left, received, rfl⟩ := pipe_call _ _ _ _ _ _ call
    cases Inlet.receive_returns received holds fun ended => congrArg List.flatten (silent ended) with
    | stops _ _ _ only =>
        rw [owed] at only
        cases frames with
        | nil => exact ⟨rfl, (List.cons.inj only).1.symm⟩
        | cons first frames =>
            exact absurd (List.cons.inj only).2 (List.append_ne_nil_of_right_ne_nil _ (List.cons_ne_nil _ _))
    | frame | waits => cases last

def Socket.readFault (reason : String) : Error := .transport s!"WebSocket read failed: {reason}"

-- The far end is gone without a close message: all frames are found and then a failure, or the answer to a ping fails before that.
def Lost (pings : Bool) (rest : List Bytes) (result : Received) : Prop :=
  rest = [] ∧ result = .failed (Socket.readFault Socket.noHandshake) ∨
    pings = true ∧ result = .failed (Socket.readFault Socket.brokenPipe)

def Parts (pings closes : Bool) (rest : List Bytes) (result : Received) : Prop :=
  if closes then Entire rest result else Lost pings rest result

theorem parts_stops {pings closes : Bool} {rest : List Bytes} {result : Received}
    (parts : Parts pings closes rest result) :
    result.stops = true := by
  cases closes with
  | true =>
      obtain ⟨_, rfl⟩ := parts
      rfl
  | false => obtain ⟨_, rfl⟩ | ⟨_, rfl⟩ := parts <;> rfl

structure Socket.Calm (s : Socket) : Prop where
  active : s.handshake = .active
  unended : s.ended = false
  unowed : s.replyOwed = false
  unclosed : s.closeSent = false

def Socket.IsDone (s : Socket) (closes : Bool) (coming : List SocketMessage) : Prop :=
  s.vanished = true → closes = false ∧ coming = []

def Socket.script (s : Socket) (closes : Bool) (messages : List SocketMessage) : List Far :=
  if s.vanished then [] else messages.map .message ++ if closes then [] else [.hangUp]

theorem Socket.script_there {s : Socket} (there : s.vanished = false) (closes : Bool) (messages : List SocketMessage) :
    s.script closes messages = messages.map .message ++ if closes then [] else [.hangUp] := by
  rw [Socket.script, if_neg (by simp [there])]

inductive Reading (pings closes : Bool) (s : Socket) (coming : List SocketMessage) :
    List Bytes → Received × Socket → Prop where
  | frame (bytes : Bytes) (frames : List Bytes) (left : List SocketMessage)
      (bears : Bears pings closes (left ++ coming) frames) :
      Reading pings closes s coming (bytes :: frames) (.frame bytes, { s with inbox := left })
  | waits (frames : List Bytes) (there : s.vanished = false) (bears : Bears pings closes coming frames) :
      Reading pings closes s coming frames (.waiting, { s with inbox := [] })
  | stops (frames : List Bytes) (result : Received) (after : Socket) (parts : Parts pings closes frames result) :
      Reading pings closes s coming frames (result, after)

section
variable {pings closes : Bool} {s : Socket}

-- By induction on the messages in the inbox, of which pings and pongs are passed over.
theorem reads_messages (calm : s.Calm) (coming : List SocketMessage) (done : s.IsDone closes coming)
    (messages : List SocketMessage)
    (frames : List Bytes) (box : List SocketMessage) (bears : Bears pings closes (messages ++ coming) frames) :
    Reading pings closes s coming frames (Socket.readFrom { s with inbox := box } messages) := by
  induction messages generalizing box with
  | nil =>
      rw [Socket.readFrom]
      dsimp only
      split
      · next gone =>
          obtain ⟨rfl, rfl⟩ := done gone
          cases bears
          simp only [Socket.atEnd, Socket.canRead, calm.active, BEq.rfl, Bool.true_or, if_true]
          exact .stops [] _ _ (Or.inl ⟨rfl, rfl⟩)
      · next there => exact .waits frames (eq_false_of_ne_true there) bears
  | cons m messages ih =>
      generalize whole : messages ++ coming = others at bears ih
      rw [List.cons_append, whole] at bears
      cases bears with
      | close =>
          rw [Socket.readFrom]
          exact .stops [] _ _ ⟨rfl, rfl⟩
      | text _ bytes _ frames _ fits others | binary _ bytes _ frames fits others =>
          rw [Socket.readFrom]
          dsimp only
          rw [if_neg (Nat.not_lt.mpr fits)]
          exact .frame bytes frames messages (whole ▸ others)
      | ping _ length _ _ allowed short others =>
          rw [Socket.readFrom]
          dsimp only
          rw [if_neg (Nat.not_lt.mpr short)]
          split
          · next gone =>
              obtain ⟨rfl, rfl⟩ := done (Bool.and_eq_true_iff.mp gone).2
              exact .stops frames _ _ (Or.inr ⟨allowed, rfl⟩)
          · exact ih messages others
      | pong _ length _ _ short others =>
          rw [Socket.readFrom]
          dsimp only
          rw [if_neg (Nat.not_lt.mpr short)]
          exact ih messages others

theorem calm_reads (calm : s.Calm) (coming : List SocketMessage) (done : s.IsDone closes coming) (frames : List Bytes)
    (bears : Bears pings closes (s.inbox ++ coming) frames) : Reading pings closes s coming frames s.receive := by
  have inbox : s.receive = s.readFrom s.inbox := by simp [Socket.receive, calm.unended, calm.unowed]
  exact inbox ▸ reads_messages calm coming done s.inbox frames s.inbox bears

theorem close_last (messages rest : List SocketMessage) {frames : List Bytes}
    (bears : Bears pings closes (messages ++ .close :: rest) frames) : rest = [] := by
  induction messages generalizing frames with
  | nil =>
      cases bears
      rfl
  | cons m messages ih =>
      rw [List.cons_append] at bears
      generalize later : messages ++ .close :: rest = others at bears ih
      cases bears with
      | close => exact absurd later (List.append_ne_nil_of_right_ne_nil messages (List.cons_ne_nil _ rest))
      | text _ _ _ _ _ _ others | binary _ _ _ _ _ others | ping _ _ _ _ _ _ others | pong _ _ _ _ _ others =>
          exact ih others

end

theorem socket_call (s : Socket) (deaf endSeen : Bool) (result : Received) (after : Link)
    (call : Link.receive ⟨.socket s, deaf, endSeen⟩ = (result, after)) :
    ∃ left, s.receive = (result, left) ∧ after = ⟨.socket left, deaf, endSeen⟩ := by
  cases call
  exact ⟨s.receive.2, rfl, rfl⟩

theorem socket_message (s : Socket) (endSeen : Bool) (there : s.vanished = false) (speaks : s.farClosed = false)
    (m : SocketMessage) :
    Link.far ⟨.socket s, false, endSeen⟩ (.message m) =
      ⟨.socket { s with inbox := s.inbox ++ [m], farClosed := m == .close }, false, endSeen⟩ := by
  simp [Link.far, Link.post, Link.withTransport, Socket.feed, there, speaks]

theorem socket_aside (s : Socket) (calm : s.Calm) (endSeen : Bool) (deed : Far) (aside : deed.speaks = false) :
    ∃ outbox closeSeen seen, Link.far ⟨.socket s, false, endSeen⟩ deed = ⟨.socket { s with outbox, closeSeen },
      false, seen⟩ := by
  cases deed with
  | look =>
      have unanswered : (s.closeSent && !s.farClosed) = false := by simp [calm.unclosed]
      simp only [Link.far, Link.collect, Link.withTransport, Socket.collect, unanswered, Bool.or_false,
        Bool.false_eq_true, if_false]
      split
      · exact ⟨s.outbox, s.closeSeen, _, rfl⟩
      · exact ⟨_, _, _, rfl⟩
  | snap | pace | script => exact ⟨s.outbox, s.closeSeen, endSeen, rfl⟩
  | arrive | message | hand | hangUp => cases aside

theorem socket_send (s : Socket) (calm : s.Calm) (endSeen : Bool) (sending : Sending) :
    ∃ outbox unsent, (Link.send ⟨.socket s, false, endSeen⟩ sending).2 = ⟨.socket { s with outbox, unsent }, false,
      endSeen⟩ := by
  have sent : ∃ outbox unsent, (s.send sending.rest).2 = { s with outbox, unsent } := by
    rw [Socket.send]
    split
    · exact ⟨s.outbox, s.unsent, rfl⟩
    · rw [calm.active]
      dsimp only
      split <;> exact ⟨_, _, rfl⟩
  obtain ⟨outbox, unsent, same⟩ := sent
  exact ⟨outbox, unsent, congrArg (fun s => (⟨.socket s, false, endSeen⟩ : Link)) same⟩

inductive SocketTells (pings closes : Bool) : Link → List Far → List Bytes → Prop where
  | flows (s : Socket) (endSeen : Bool) (messages : List SocketMessage) (frames : List Bytes) (calm : s.Calm)
      (done : s.IsDone closes messages) (speaks : messages ≠ [] → s.farClosed = false)
      (bears : Bears pings closes (s.inbox ++ messages) frames) :
      SocketTells pings closes ⟨.socket s, false, endSeen⟩ (s.script closes messages) frames

theorem socket_foretells (pings closes : Bool) : Foretells (Parts pings closes) (SocketTells pings closes) where
  comes l deed coming frames told := by
    generalize all : deed :: coming = deeds at told
    obtain ⟨s, endSeen, messages, _, calm, done, speaks, bears⟩ := told
    cases there : s.vanished with
    | true => simp [Socket.script, there] at all
    | false =>
        rw [Socket.script_there there] at all
        cases messages with
        | nil =>
            cases closes with
            | true => cases all
            | false =>
                cases all
                exact .flows s.vanish endSeen [] frames { calm with } (fun _ => ⟨rfl, rfl⟩) (absurd rfl) bears
        | cons m messages =>
            obtain ⟨rfl, rfl⟩ := List.cons.inj all
            have script :=
              Socket.script_there
              (s := { s with inbox := s.inbox ++ [m], farClosed := m == .close }) there closes messages
            change SocketTells pings closes (Link.far _ (.message m)) (messages.map .message ++ _) frames
            rw [socket_message s endSeen there (speaks (List.cons_ne_nil m messages)) m, ← script]
            refine .flows _ endSeen messages frames { calm with } (fun gone => ?_) (fun more => ?_)
              (by simpa using bears)
            · exact absurd (there.symm.trans gone) Bool.false_ne_true
            · cases m with
              | close => exact absurd (close_last s.inbox messages bears) more
              | text | binary | ping | pong => rfl
  aside l deed coming frames aside told := by
    obtain ⟨s, endSeen, messages, _, calm, done, speaks, bears⟩ := told
    obtain ⟨outbox, closeSeen, seen, same⟩ := socket_aside s calm endSeen deed aside
    rw [same]
    exact .flows { s with outbox, closeSeen } seen messages frames { calm with } done speaks bears
  sends l sending coming frames told := by
    obtain ⟨s, endSeen, messages, _, calm, done, speaks, bears⟩ := told
    obtain ⟨outbox, unsent, same⟩ := socket_send s calm endSeen sending
    rw [same]
    exact .flows { s with outbox, unsent } endSeen messages frames { calm with } done speaks bears
  waits l after coming frames told call := by
    obtain ⟨s, endSeen, messages, _, calm, done, speaks, bears⟩ := told
    obtain ⟨left, received, rfl⟩ := socket_call _ _ _ _ _ call
    have reading := calm_reads calm messages done frames bears
    rw [received] at reading
    cases reading with
    | stops _ _ _ parts => cases parts_stops parts
    | waits _ there others =>
        refine ⟨?_, .flows { s with inbox := [] } endSeen messages frames { calm with } done speaks others⟩
        rw [Socket.script_there there]
        cases closes with
        | false => exact List.append_ne_nil_of_right_ne_nil _ (List.cons_ne_nil _ _)
        | true =>
            cases messages with
            | nil => cases others
            | cons m messages => exact List.cons_ne_nil _ _
  frame l after coming frames bytes told call := by
    obtain ⟨s, endSeen, messages, _, calm, done, speaks, bears⟩ := told
    obtain ⟨left, received, rfl⟩ := socket_call _ _ _ _ _ call
    have reading := calm_reads calm messages done frames bears
    rw [received] at reading
    cases reading with
    | stops _ _ _ parts => cases parts_stops parts
    | frame _ rest box others =>
        exact ⟨rest, rfl, .flows { s with inbox := box } endSeen messages rest { calm with } done speaks others⟩
  begins l coming frames told panics := by
    obtain ⟨s, endSeen, messages, _, calm, done, speaks, bears⟩ := told
    rcases call : s.receive with ⟨result, left⟩
    cases (congrArg Prod.fst call).symm.trans panics
    have reading := calm_reads calm messages done frames bears
    rw [call] at reading
    cases reading with
    | stops _ _ _ parts => cases parts_stops parts
  stops l after coming frames result told call last := by
    obtain ⟨s, endSeen, messages, _, calm, done, speaks, bears⟩ := told
    obtain ⟨left, received, rfl⟩ := socket_call _ _ _ _ _ call
    have reading := calm_reads calm messages done frames bears
    rw [received] at reading
    cases reading with
    | stops _ _ _ parts => exact parts
    | frame | waits => cases last

def Received.closes? : Received → Option CloseReason
  | .ended => some .remoteHangup
  | .failed fault => some (.readFailed fault.message)
  | .frame _ | .waiting | .panicked => none

theorem Connection.trigger_reader (c : Connection) : c.trigger? (.move .reader) = c.link.receive.1.closes? := by
  rw [Connection.trigger?]
  cases c.link.receive.1 <;> rfl

-- What comes over the link is these frames and a last result. Whoever receives finds that much, and so does a connection
-- that is not closed for another reason before.
structure Hears (last : List Bytes → Received → Prop) (link : Link) (script : List Far) (frames : List Bytes) :
    Prop where
  finds : ∃ found, Finds link script found
  found : ∀ found, Finds link script found →
    ∃ got rest result, frames = got ++ rest ∧ found = got.map .frame ++ [result] ∧ last rest result
  takes : ∀ config acts, Connection.spoken acts <+: script → (Connection.ofLink config link).frames acts <+: frames
  closes : ∀ config acts, Connection.spoken acts <+: script →
    ((Connection.ofLink config link).run acts).hub.isClosed = false →
    (((Connection.ofLink config link).run acts).act (.move .reader)).hub.isClosed = true →
    ∃ rest result, frames = (Connection.ofLink config link).frames acts ++ rest ∧ last rest result ∧
      (((Connection.ofLink config link).run acts).act (.move .reader)).hub.reason = result.closes?
  ends : ∀ config acts, Connection.spoken acts = script →
    ((Connection.ofLink config link).run acts).hub.isClosed = false →
    ∃ moves, let before := (Connection.ofLink config link).run (acts ++ List.replicate moves (.move .reader))
      before.hub.isClosed = false ∧ (before.act (.move .reader)).hub.isClosed = true

theorem foretold_hears {last : List Bytes → Received → Prop} {told : Link → List Far → List Bytes → Prop}
    (foretells : Foretells last told)
    {link : Link} {script : List Far} {frames : List Bytes} (expected : told link script frames) :
    Hears last link script frames where
  finds := foretold_finds foretells expected
  found found finds := finds_foretold foretells expected finds
  takes config acts follows :=
    Connection.run_frames foretells (Connection.initial_sound config link) expected acts follows
  closes config acts follows isOpen closed := by
    have initial := Connection.initial_sound config link
    have reason := Connection.open_reason (a := .move .reader) (Connection.run_sound initial acts) isOpen
    rw [Connection.trigger_reader] at reason
    have stopped : ((Connection.ofLink config link).run acts).link.receive.1.stops = true := by
      rw [Hub.isClosed, reason] at closed
      cases received : ((Connection.ofLink config link).run acts).link.receive.1 with
      | ended | failed => rfl
      | frame | waiting | panicked => simp [Received.closes?, received] at closed
    obtain ⟨rest, taken, ends⟩ := Connection.run_stops foretells initial expected acts isOpen follows stopped
    exact ⟨rest, _, taken, ends, reason⟩
  ends config acts all isOpen := by
    have initial := Connection.initial_sound config link
    obtain ⟨moves, still, stopped⟩ :=
      Connection.run_ends foretells initial expected frames.length acts (Nat.le_add_left _ _) isOpen all
    exact ⟨moves, still, Connection.stopped_closes still stopped⟩

theorem entire_finds {link : Link} {script : List Far} {frames : List Bytes} (hears : Hears Entire link script frames) :
    Finds link script (frames.map .frame ++ [.ended]) := by
  obtain ⟨found, finds⟩ := hears.finds
  obtain ⟨got, rest, result, same, rfl, rfl, rfl⟩ := hears.found found finds
  rw [List.append_nil] at same
  exact same ▸ finds

theorem pipe_hears (m : UInt64) (outlet : Outlet) (frames chunks : List Bytes) (bounded : m.toNat + 1 < UInt64.size)
    (whole : ∀ f ∈ frames, f ≠ [] ∧ Ascii.nul ∉ f ∧ f.length ≤ m.toNat) (brings : chunks.flatten = framed frames) :
    Hears Entire (overPipe { maxFrameBytes := m } outlet) (chunks.map arrives ++ [.hangUp]) frames := by
  have owed : Inlet.owes { maxFrameBytes := m } ([] ++ chunks.flatten) = frames.map .frame ++ [.ended] := by
    have cut := splitOn_framed frames fun f member => (whole f member).2.1
    have found := verdicts_framed m.toNat frames fun f member => ⟨(whole f member).1, (whole f member).2.2⟩
    rw [← found, ← cut, ← brings]
    rfl
  have fresh : Inlet.Holds { maxFrameBytes := m } [] := ⟨bounded, List.not_mem_nil, Nat.zero_le _, rfl⟩
  exact foretold_hears pipe_foretells (.flows _ outlet false [] chunks frames (fun ended => nomatch ended) fresh owed)

theorem socket_hears (pings closes : Bool) (frames : List Bytes) (messages : List SocketMessage)
    (bears : Bears pings closes messages frames) :
    Hears (Parts pings closes) overSocket (messages.map .message ++ if closes then [] else [.hangUp]) frames :=
  foretold_hears (socket_foretells pings closes)
    (.flows {} false messages frames ⟨rfl, rfl, rfl, rfl⟩ (fun gone => nomatch gone) (fun _ => rfl) bears)

theorem transports_agree (m : UInt64) (outlet : Outlet) (frames chunks : List Bytes) (messages : List SocketMessage)
    (pings : Bool)
    (bounded : m.toNat + 1 < UInt64.size) (whole : ∀ f ∈ frames, f ≠ [] ∧ Ascii.nul ∉ f ∧ f.length ≤ m.toNat)
    (brings : chunks.flatten = framed frames) :
    Hears Entire (overPipe { maxFrameBytes := m } outlet) (chunks.map arrives ++ [.hangUp]) frames ∧
      (Bears pings true messages frames → Hears Entire overSocket (messages.map .message) frames) ∧
      (Bears pings false messages frames →
        Hears (Lost pings) overSocket (messages.map .message ++ [.hangUp]) frames) := by
  refine ⟨pipe_hears m outlet frames chunks bounded whole brings, fun bears => ?_,
    socket_hears pings false frames messages⟩
  have hears := socket_hears pings true frames messages bears
  rw [if_pos rfl, List.append_nil] at hears
  exact hears

theorem transports_agree_pinged :
    ((4 : UInt64).toNat + 1 < UInt64.size ∧ (∀ f ∈ [[97], [98, 99]], f ≠ [] ∧ Ascii.nul ∉ f ∧
      f.length ≤ (4 : UInt64).toNat) ∧
        List.flatten [[97, 0, 98], [99, 0]] = framed [[97], [98, 99]]) ∧
      Hears Entire (overPipe { maxFrameBytes := 4 } {}) [arrives [97, 0, 98], arrives [99, 0], .hangUp]
        [[97], [98, 99]] ∧
      Hears Entire overSocket [.message (.ping 0), .message (.text [97]), .message (.binary [98, 99]), .message .close]
        [[97], [98, 99]] := by
  have bounded : (4 : UInt64).toNat + 1 < UInt64.size := by decide
  have whole : ∀ f ∈ ([[97], [98, 99]] : List Bytes), f ≠ [] ∧ Ascii.nul ∉ f ∧ f.length ≤ (4 : UInt64).toNat := by
    decide
  have agree := transports_agree 4 {} [[97], [98, 99]] [[97, 0, 98], [99, 0]]
    [.ping 0, .text [97], .binary [98, 99], .close] true
    bounded whole rfl
  have bears : Bears true true [.ping 0, .text [97], .binary [98, 99], .close] [[97], [98, 99]] :=
    .ping true 0 _ _ rfl (by decide)
      (.text true [97] _ _ (by decide) (by decide) (.binary true [98, 99] _ _ (by decide) .close))
  exact ⟨⟨bounded, whole, rfl⟩, agree.1, agree.2.1 bears⟩

def longFrame : Bytes := List.replicate (Socket.longestPayload + 1) 97

theorem long_message_fails (bytes : Bytes) (long : Socket.longestPayload < bytes.length) :
    Finds overSocket [.message (.binary bytes), .message .close]
      [.failed (Socket.readFault (Socket.messageTooLong bytes.length))] := by
  have call : ∃ after, Link.receive (overSocket.far (.message (.binary bytes))) =
      (.failed (Socket.readFault (Socket.messageTooLong bytes.length)), after) := by
    have read : ∃ after, Socket.readFrom { inbox := [.binary bytes] } [.binary bytes] =
        (.failed (Socket.readFault (Socket.messageTooLong bytes.length)), after) := by
      rw [Socket.readFrom]
      dsimp only
      rw [if_pos long]
      exact ⟨_, rfl⟩
    obtain ⟨after, read⟩ := read
    exact ⟨_, congrArg (fun read => (read.1, overSocket.withTransport (.socket read.2))) read⟩
  obtain ⟨after, call⟩ := call
  exact .comes (.stops call rfl)

-- A frame of one byte, and the far end of the socket is gone without a close message; a frame of 16 MiB and a byte, and a close message.
theorem sockets_fail :
    (Finds (overPipe { maxFrameBytes := 4 } {}) [arrives [97, 0], .hangUp] [.frame [97], .ended] ∧
        Finds overSocket [.message (.text [97]), .hangUp] [.frame [97], .failed (Socket.readFault Socket.noHandshake)] ∧
        ¬ Finds overSocket [.message (.text [97]), .hangUp] [.frame [97], .ended]) ∧
      Finds (overPipe { maxFrameBytes := 268435456 } {}) [arrives (longFrame ++ [Ascii.nul]), .hangUp]
        [.frame longFrame, .ended] ∧
      Finds overSocket [.message (.binary longFrame), .message .close]
        [.failed (Socket.readFault (Socket.messageTooLong 16777217))] := by
  refine ⟨⟨.comes (.frame rfl (.comes (.stops rfl rfl))), .comes (.frame rfl (.comes (.stops rfl rfl))),
    fun finds => ?_⟩, ?_, ?_⟩
  · have hears := socket_hears false false [[97]] [.text [97]] (.text false [97] _ _ (by decide) (by decide) .nothing)
    obtain ⟨got, rest, result, _, found, lost⟩ := hears.found _ finds
    have last := congrArg List.getLast? found
    rw [List.getLast?_concat] at last
    cases last
    obtain ⟨_, failed⟩ | ⟨_, failed⟩ := lost <;> cases failed
  · have whole : ∀ f ∈ [longFrame], f ≠ [] ∧ Ascii.nul ∉ f ∧ f.length ≤ (268435456 : UInt64).toNat := by
      intro f member
      rw [List.mem_singleton.mp member]
      refine ⟨List.cons_ne_nil _ _, fun delimits => absurd (List.mem_replicate.mp delimits).2 (by decide), ?_⟩
      rw [longFrame, List.length_replicate]
      decide
    exact entire_finds (pipe_hears 268435456 {} [longFrame] [longFrame ++ [Ascii.nul]] (by decide) whole rfl)
  · have length : longFrame.length = 16777217 := List.length_replicate
    have fails := long_message_fails longFrame (by rw [length]; decide)
    rw [length] at fails
    exact fails

end DevTools
