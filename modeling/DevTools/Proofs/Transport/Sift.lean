import DevTools.Proofs.Transport.Framing
import DevTools.Transport.Socket

set_option autoImplicit false

namespace DevTools

namespace SocketMessage

def isPing : SocketMessage → Bool
  | .ping _ => true
  | _ => false

-- A message that is too long makes no frame, whatever it says.
def isDropped (drops : Bytes → Bool) : SocketMessage → Bool
  | .text bytes | .binary bytes => bytes.length ≤ Socket.longestPayload && drops bytes
  | _ => false

-- A reader passes over the message whenever it comes upon it. It has to answer a ping, so the far end has to stay for that.
def isIdle (stays : Bool) : SocketMessage → Bool
  | .ping length => stays && length ≤ Socket.longestControl
  | .pong length => length ≤ Socket.longestControl
  | _ => false

end SocketMessage

namespace Socket

def sift (drops : Bytes → Bool) (s : Socket) : Socket := { s with inbox := s.inbox.filter (!·.isDropped drops) }

-- The far end is one that stays, or one that sends no pings.
def conforms (stays : Bool) (s : Socket) : Bool := if stays then !s.vanished else s.inbox.all (!·.isPing)

section
variable {drops : Bytes → Bool} {stays : Bool} {s : Socket}

theorem read_elsewhere (box messages : List SocketMessage) :
    ({ s with inbox := box } : Socket).readFrom messages = s.readFrom messages := by
  cases messages with
  | nil => rw [readFrom, readFrom]
  | cons m rest => cases m <;> rw [readFrom, readFrom]

theorem read_ping (length : Nat) (rest : List SocketMessage) (short : length ≤ longestControl)
    (answered : (s.handshake == .active && s.vanished) = false) :
    s.readFrom (.ping length :: rest) = s.readFrom rest := by
  rw [readFrom, if_neg (Nat.not_lt.mpr short), answered, if_neg Bool.false_ne_true]
  exact read_elsewhere rest rest

theorem read_pong (length : Nat) (rest : List SocketMessage) (short : length ≤ longestControl) :
    s.readFrom (.pong length :: rest) = s.readFrom rest := by
  rw [readFrom, if_neg (Nat.not_lt.mpr short)]
  exact read_elsewhere rest rest

inductive Meets (s : Socket) (m : SocketMessage) : Prop where
  | passes (kept : ∀ drops, m.isDropped drops = false) (idle : m.isIdle true = true)
      (goesOn : ∀ rest, s.readFrom (m :: rest) = s.readFrom rest)
  | frame (bytes : Bytes) (dropped : ∀ drops, m.isDropped drops = drops bytes)
      (ends : ∀ rest, s.readFrom (m :: rest) = (.frame bytes, { s with inbox := rest }))
  | stops (result : Received) (after : Socket) (last : result.stops = true)
      (dropped : ∀ drops, m.isDropped drops = false)
      (same : after.vanished = s.vanished)
      (ends : ∀ rest, s.readFrom (m :: rest) = (result, { after with inbox := rest }))

theorem read_meets (s : Socket) (m : SocketMessage) : s.Meets m := by
  cases m with
  | text bytes | binary bytes =>
      by_cases long : longestPayload < bytes.length
      · refine .stops (s.failRead (messageTooLong bytes.length)).1 { s with ended := true } rfl ?_ rfl ?_
        · intro drops
          simp [SocketMessage.isDropped, Nat.not_le.mpr long]
        · intro rest
          rw [readFrom, if_pos long]
          rfl
      · refine .frame bytes ?_ ?_
        · intro drops
          simp [SocketMessage.isDropped, Nat.not_lt.mp long]
        · intro rest
          rw [readFrom, if_neg long]
  | ping length =>
      by_cases long : longestControl < length
      · refine .stops (s.failRead (controlFault length)).1 { s with ended := true } rfl (fun _ => rfl) rfl ?_
        intro rest
        rw [readFrom, if_pos long]
        rfl
      · cases lost : s.handshake == .active && s.vanished with
        | true =>
            refine .stops (s.failRead brokenPipe).1 { s with unsent := true, ended := true } rfl (fun _ => rfl) rfl ?_
            intro rest
            simp only [readFrom, long, lost, if_false, if_true]
            rfl
        | false =>
            have short := Nat.not_lt.mp long
            exact .passes (fun _ => rfl) (decide_eq_true short) fun rest => read_ping length rest short lost
  | pong length =>
      by_cases long : longestControl < length
      · refine .stops (s.failRead (controlFault length)).1 { s with ended := true } rfl (fun _ => rfl) rfl ?_
        intro rest
        rw [readFrom, if_pos long]
        rfl
      · have short := Nat.not_lt.mp long
        exact .passes (fun _ => rfl) (decide_eq_true short) fun rest => read_pong length rest short
  | close =>
      cases active : s.handshake == .active with
      | true =>
          refine .stops .ended { s with handshake := .closedThere, replyOwed := true } rfl (fun _ => rfl) rfl ?_
          intro rest
          simp only [readFrom, active, if_true]
      | false =>
          refine .stops .ended { s with handshake := .acknowledged } rfl (fun _ => rfl) rfl ?_
          intro rest
          simp only [readFrom, active, Bool.false_eq_true, if_false]

theorem read_none (s : Socket) : s.readFrom [] = (.waiting, { s with inbox := [] }) ∨
    ∃ (result : Received) (after : Socket), s.readFrom [] = (result, { after with inbox := [] }) ∧ result.stops = true ∧
      after.vanished = s.vanished := by
  cases gone : s.vanished with
  | false => exact .inl (by simp [readFrom, gone])
  | true =>
      have ends : s.readFrom [] = ({ s with inbox := [] } : Socket).atEnd := by
        rw [readFrom]
        exact if_pos gone
      rw [ends, atEnd]
      dsimp only
      split <;> exact .inr ⟨_, { s with handshake := .finished, ended := true }, rfl, rfl, gone⟩

theorem read_late (late messages : List SocketMessage) (idle : ∀ m ∈ late, m.isIdle stays = true)
    (there : stays = true → s.vanished = false) : s.readFrom (late ++ messages) = s.readFrom messages := by
  induction late with
  | nil => rfl
  | cons m late ih =>
      have rest := ih fun m member => idle m (List.mem_cons_of_mem _ member)
      have first := idle m List.mem_cons_self
      cases m with
      | ping length =>
          obtain ⟨stays, short⟩ := Bool.and_eq_true_iff.mp first
          refine (read_ping length _ (of_decide_eq_true short) ?_).trans rest
          rw [there stays, Bool.and_false]
      | pong length => exact (read_pong length _ (of_decide_eq_true first)).trans rest
      | text | binary | close => cases first

theorem read_kept (messages : List SocketMessage) (kept : ∀ bytes, (s.readFrom messages).1 = .frame bytes →
      drops bytes = false) :
    s.readFrom (messages.filter (!·.isDropped drops)) = ((s.readFrom messages).1, (s.readFrom messages).2.sift drops) ∧
      (s.readFrom messages).2.vanished = s.vanished := by
  induction messages with
  | nil =>
      rw [List.filter_nil]
      obtain read | ⟨result, after, read, -, same⟩ := read_none s
      · rw [read]
        exact ⟨rfl, rfl⟩
      · rw [read]
        exact ⟨rfl, same⟩
  | cons m rest ih =>
      cases s.read_meets m with
      | passes stands _ goesOn =>
          rw [goesOn] at kept ⊢
          rw [List.filter_cons, stands drops, Bool.not_false, if_pos rfl, goesOn]
          exact ih kept
      | frame bytes dropped ends =>
          have stands : m.isDropped drops = false := (dropped drops).trans (kept bytes (congrArg Prod.fst (ends rest)))
          rw [List.filter_cons, stands, Bool.not_false, if_pos rfl, ends, ends]
          exact ⟨rfl, rfl⟩
      | stops result after _ dropped same ends =>
          rw [List.filter_cons, dropped drops, Bool.not_false, if_pos rfl, ends, ends]
          exact ⟨rfl, same⟩

-- A read that finds what is dropped has passed over what a later read can pass over as well.
theorem read_dropped (messages : List SocketMessage) (bytes : Bytes) (received : (s.readFrom messages).1 = .frame bytes)
    (dropped : drops bytes = true) (unpinged : stays = false → ∀ m ∈ messages, m.isPing = false) :
    ∃ late rest, (∀ m ∈ late, m.isIdle stays = true) ∧ rest <:+ messages ∧
      (s.readFrom messages).2 = { s with inbox := rest } ∧
      messages.filter (!·.isDropped drops) = late ++ rest.filter (!·.isDropped drops) := by
  induction messages with
  | nil =>
      obtain read | ⟨result, after, read, last, -⟩ := read_none s
      · rw [read] at received
        cases received
      · rw [read] at received
        cases received
        cases last
  | cons m rest ih =>
      cases s.read_meets m with
      | passes stands idle goesOn =>
          rw [goesOn] at received ⊢
          obtain ⟨late, left, idles, after, same, splits⟩ :=
            ih received fun gone other member => unpinged gone other (List.mem_cons_of_mem m member)
          refine ⟨m :: late, left, ?_, after.trans (List.suffix_cons m rest), same, ?_⟩
          · rintro other (_ | ⟨_, member⟩)
            · cases stays with
              | true => exact idle
              | false =>
                  have quiet := unpinged rfl m List.mem_cons_self
                  cases m with
                  | ping length => cases quiet
                  | pong length => exact idle
                  | text | binary | close => cases idle
            · exact idles other member
          · rw [List.filter_cons, stands drops, Bool.not_false, if_pos rfl, splits, List.cons_append]
      | frame found shows ends =>
          rw [ends] at received ⊢
          cases received
          refine ⟨[], rest, by simp, List.suffix_cons m rest, rfl, ?_⟩
          rw [List.filter_cons, (shows drops).trans dropped, Bool.not_true, if_neg Bool.false_ne_true, List.nil_append]
      | stops result after last _ _ ends =>
          rw [ends] at received
          cases received
          cases last

theorem read_suffix (messages : List SocketMessage) : (s.readFrom messages).2.inbox <:+ messages := by
  induction messages with
  | nil => obtain read | ⟨result, after, read, -⟩ := read_none s <;> simp [read]
  | cons m rest ih =>
      cases s.read_meets m with
      | passes _ _ goesOn =>
          rw [goesOn]
          exact ih.trans (List.suffix_cons m rest)
      | frame _ _ ends | stops _ _ _ _ _ ends =>
          rw [ends]
          exact List.suffix_cons m rest

theorem read_unowed (messages : List SocketMessage) (goesOn : (s.readFrom messages).1.stops = false) :
    (s.readFrom messages).2.replyOwed = s.replyOwed := by
  induction messages with
  | nil =>
      obtain read | ⟨result, after, read, last, -⟩ := read_none s
      · rw [read]
      · rw [read] at goesOn
        cases last.symm.trans goesOn
  | cons m rest ih =>
      cases s.read_meets m with
      | passes _ _ skips =>
          rw [skips] at goesOn ⊢
          exact ih goesOn
      | frame _ _ ends => rw [ends]
      | stops result after last _ _ ends =>
          rw [ends] at goesOn
          cases last.symm.trans goesOn

theorem receive_unowed (unowed : s.replyOwed = false) (goesOn : s.receive.1.stops = false) :
    s.receive.2.replyOwed = false := by
  have quits : ¬ s.replyOwed = true := by simp [unowed]
  rw [receive] at goesOn ⊢
  by_cases finished : s.ended = true
  · rw [if_pos finished] at goesOn
    cases goesOn
  · rw [if_neg finished, if_neg quits] at goesOn ⊢
    exact (read_unowed s.inbox goesOn).trans unowed

theorem send_unowed (frame : Bytes) : (s.send frame).2.replyOwed = s.replyOwed := by
  rw [send]
  cases Utf8.decode frame with
  | error fault => rfl
  | ok text =>
      dsimp only
      split
      · rfl
      · split <;> rfl
      · rfl

theorem conforms_there (conforms : s.conforms true = true) : s.vanished = false := by
  simpa [Socket.conforms] using conforms

theorem conforms_quiet (conforms : s.conforms false = true) : ∀ m ∈ s.inbox, m.isPing = false := by
  simpa [Socket.conforms] using conforms

theorem conforms_later {after : Socket} (conforms : s.conforms stays = true) (vanished : after.vanished = s.vanished)
    (later : after.inbox <:+ s.inbox) : after.conforms stays = true := by
  cases stays with
  | true => exact (congrArg (!·) vanished).trans conforms
  | false =>
      have quiet : ∀ m ∈ s.inbox, (!m.isPing) = true := List.all_eq_true.mp conforms
      exact List.all_eq_true.mpr fun m member => quiet m (later.mem member)

-- The second reader has what the first one has less the frames that are dropped. It may have pings and pongs before it that
-- the first one has passed over.
structure Sifts (drops : Bytes → Bool) (stays : Bool) (s t : Socket) : Prop where
  conforms : s.conforms stays = true
  left : ∃ late, (∀ m ∈ late, m.isIdle stays = true) ∧
    t = { s with inbox := late ++ s.inbox.filter (!·.isDropped drops) }

theorem sifts_sift (conforms : s.conforms stays = true) : Sifts drops stays s (s.sift drops) :=
  ⟨conforms, [], by simp, rfl⟩

section
variable {t : Socket} (sifts : Sifts drops stays s t)
include sifts

theorem sifts_read (kept : ∀ bytes, (s.readFrom s.inbox).1 = .frame bytes → drops bytes = false) :
    (s.readFrom s.inbox).1 = (t.readFrom t.inbox).1 ∧
      Sifts drops stays (s.readFrom s.inbox).2 (t.readFrom t.inbox).2 := by
  obtain ⟨conforms, late, idle, rfl⟩ := sifts
  obtain ⟨same, vanished⟩ := read_kept s.inbox kept
  have there : stays = true → s.vanished = false := by
    rintro rfl
    exact conforms_there conforms
  have second : ∀ box, ({ s with inbox := box } : Socket).readFrom (late ++ s.inbox.filter (!·.isDropped drops)) =
      ((s.readFrom s.inbox).1, (s.readFrom s.inbox).2.sift drops) :=
    fun box => (read_elsewhere box _).trans ((read_late late _ idle there).trans same)
  rw [second]
  exact ⟨rfl, sifts_sift (conforms_later conforms vanished (read_suffix s.inbox))⟩

theorem sifts_flush : s.flush.1 = t.flush.1 ∧ Sifts drops stays s.flush.2 t.flush.2 := by
  obtain ⟨conforms, late, idle, rfl⟩ := sifts
  rcases s with ⟨handshake, inbox, replyOwed, unsent, ended, outbox, closeSent, closeSeen, farClosed, vanished⟩
  cases vanished <;> exact ⟨rfl, conforms, late, idle, rfl⟩

theorem sifts_receive (kept : ∀ bytes, s.receive.1 = .frame bytes → drops bytes = false) :
    s.receive.1 = t.receive.1 ∧ Sifts drops stays s.receive.2 t.receive.2 := by
  have reads := sifts_read sifts
  obtain ⟨flushed, after⟩ := sifts_flush sifts
  have ended : t.ended = s.ended := by
    obtain ⟨_, _, _, rfl⟩ := sifts
    rfl
  have owed : t.replyOwed = s.replyOwed := by
    obtain ⟨_, _, _, rfl⟩ := sifts
    rfl
  rw [receive] at kept ⊢
  rw [receive, ended, owed]
  by_cases finished : s.ended = true
  · rw [if_pos finished, if_pos finished]
    exact ⟨rfl, sifts⟩
  · rw [if_neg finished] at kept ⊢
    rw [if_neg finished]
    by_cases owes : s.replyOwed = true
    · rw [if_pos owes] at kept ⊢
      rw [if_pos owes]
      rcases first : s.flush with ⟨done, u⟩
      rcases second : t.flush with ⟨other, v⟩
      rw [first, second] at flushed after
      rw [first] at kept
      cases flushed
      cases done with
      | true => exact sifts_read after kept
      | false =>
          obtain ⟨conforms, late, idle, rfl⟩ := after
          exact ⟨rfl, conforms, late, idle, rfl⟩
    · rw [if_neg owes] at kept ⊢
      rw [if_neg owes]
      exact reads kept

theorem sifts_drops (bytes : Bytes) (received : s.receive.1 = .frame bytes) (dropped : drops bytes = true)
    (unowed : s.replyOwed = false) :
    Sifts drops stays s.receive.2 t := by
  obtain ⟨conforms, late, idle, rfl⟩ := sifts
  rw [receive] at received ⊢
  by_cases finished : s.ended = true
  · rw [if_pos finished] at received
    cases received
  · have quits : ¬ s.replyOwed = true := by simp [unowed]
    rw [if_neg finished, if_neg quits] at received ⊢
    have unpinged : stays = false → ∀ m ∈ s.inbox, m.isPing = false := by
      rintro rfl
      exact conforms_quiet conforms
    obtain ⟨more, rest, idles, later, same, splits⟩ := read_dropped s.inbox bytes received dropped unpinged
    rw [same, splits, ← List.append_assoc]
    refine ⟨conforms_later conforms rfl later, late ++ more, ?_, rfl⟩
    intro m member
    exact (List.mem_append.mp member).elim (idle m) (idles m)

theorem sifts_send (frame : Bytes) : (s.send frame).1 = (t.send frame).1 ∧
    Sifts drops stays (s.send frame).2 (t.send frame).2 := by
  obtain ⟨conforms, late, idle, rfl⟩ := sifts
  rcases s with ⟨handshake, inbox, replyOwed, unsent, ended, outbox, closeSent, closeSeen, farClosed, vanished⟩
  rw [send, send]
  cases Utf8.decode frame with
  | error fault => exact ⟨rfl, conforms, late, idle, rfl⟩
  | ok text => cases handshake <;> cases vanished <;> exact ⟨rfl, conforms, late, idle, rfl⟩

theorem sifts_close : Sifts drops stays s.close.2 t.close.2 := by
  have closes : ∀ u : Socket, u.close.2 =
      (if u.handshake == .active then { u with handshake := .closedHere, replyOwed := true }
        else u : Socket).flush.2 := by
    intro u
    rw [close]
    generalize (if u.handshake == .active then { u with handshake := .closedHere, replyOwed := true } else u :
      Socket) = begun
    rcases begun.flush with ⟨done, after⟩
    cases done <;> rfl
  rw [closes, closes]
  refine (sifts_flush ?_).2
  obtain ⟨conforms, late, idle, rfl⟩ := sifts
  dsimp only
  split <;> exact ⟨conforms, late, idle, rfl⟩

theorem sifts_feed (m : SocketMessage) (fits : (stays || !m.isPing) = true) :
    Sifts drops stays (s.feed m).2 (if m.isDropped drops then t else (t.feed m).2) := by
  obtain ⟨conforms, late, idle, rfl⟩ := sifts
  rw [feed, feed]
  dsimp only
  by_cases gone : (s.vanished || s.farClosed) = true
  · rw [if_pos gone, if_pos gone, ite_self]
    exact ⟨conforms, late, idle, rfl⟩
  · rw [if_neg gone, if_neg gone]
    have still : Socket.conforms stays { s with inbox := s.inbox ++ [m], farClosed := m == .close } = true := by
      cases stays with
      | true => exact conforms
      | false =>
          have quiet : m.isPing = false := by simpa using fits
          simpa [Socket.conforms, quiet] using conforms
    refine ⟨still, late, idle, ?_⟩
    rw [List.filter_append, List.filter_cons, List.filter_nil, ← List.append_assoc]
    cases dropped : m.isDropped drops with
    | false => rfl
    | true =>
        have open_ : s.farClosed = false := (Bool.or_eq_false_iff.mp (eq_false_of_ne_true gone)).2
        have other : (m == .close) = false := by cases m <;> first | rfl | cases dropped
        simp [other, ← open_]

theorem sifts_vanish (leaves : stays = false) : Sifts drops stays s.vanish t.vanish := by
  obtain ⟨conforms, late, idle, rfl⟩ := sifts
  subst leaves
  exact ⟨conforms, late, idle, rfl⟩

theorem sifts_collect : Sifts drops stays s.collect.2 t.collect.2 := by
  obtain ⟨conforms, late, idle, rfl⟩ := sifts
  rw [collect, collect]
  dsimp only
  cases answers : s.closeSent && !s.farClosed with
  | false => exact ⟨conforms, late, idle, rfl⟩
  | true =>
      refine ⟨?_, late, idle, ?_⟩
      · cases stays with
        | true => exact conforms
        | false => simpa [Socket.conforms, SocketMessage.isPing] using conforms
      · simp [SocketMessage.isDropped]

end

end

end Socket

end DevTools
