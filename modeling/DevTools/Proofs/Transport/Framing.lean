import DevTools.Transport.Pipe

set_option autoImplicit false

namespace DevTools

-- What a reader with this limit finds in a stream cut at its delimiters. No delimiter ends the last segment.
def verdicts (limit : Nat) : List Bytes → List Received
  | [] => []
  | [tail] =>
    if limit < tail.length then [.failed (.transport s!"Frame exceeds {limit} bytes")]
    else if tail.isEmpty then [.ended]
    else [.failed (.transport s!"Failed to read frame: stream ended after {tail.length} bytes without a delimiter")]
  | segment :: next :: more =>
    if limit < segment.length then [.failed (.transport s!"Frame exceeds {limit} bytes")]
    else if segment.isEmpty then verdicts limit (next :: more)
    else .frame segment :: verdicts limit (next :: more)

-- What is found from here on, with `begun` read of a frame, its last byte first, and `bytes` still to be read.
def due (limit : Nat) (begun bytes : Bytes) : List Received :=
  verdicts limit ((begun.reverse ++ bytes).splitOn Ascii.nul)

def Received.stops : Received → Bool
  | .ended | .failed _ => true
  | .frame _ | .waiting | .panicked => false

-- Calls for one frame after another, up to the first that gives none, on a stream that is to bring these chunks
-- and then its end. They may come before a call, between two calls or while one waits.
inductive Reads : Inlet → List Bytes → List Received → Prop
  | brings {i : Inlet} {chunk : Bytes} {coming : List Bytes} {found : List Received}
      (rest : Reads (i.feed chunk) coming found) :
      Reads i (chunk :: coming) found
  | hangsUp {i : Inlet} {found : List Received} (rest : Reads { i with ended := true } [] found) : Reads i [] found
  | waits {i after : Inlet} {coming : List Bytes} {found : List Received} (call : i.receive = (.waiting, after))
      (rest : Reads after coming found) : Reads i coming found
  | frame {i after : Inlet} {coming : List Bytes} {found : List Received} {bytes : Bytes}
      (call : i.receive = (.frame bytes, after))
      (rest : Reads after coming found) : Reads i coming (.frame bytes :: found)
  | stops {i after : Inlet} {coming : List Bytes} {result : Received} (call : i.receive = (result, after))
      (last : result.stops) : Reads i coming [result]

theorem verdicts_long {limit : Nat} {segment : Bytes} (more : List Bytes) (long : limit < segment.length) :
    verdicts limit (segment :: more) = [.failed (.transport s!"Frame exceeds {limit} bytes")] := by
  cases more <;> simp [verdicts, long]

theorem verdicts_segment {limit : Nat} {segment : Bytes} {more : List Bytes} (fits : segment.length ≤ limit)
    (ended : more ≠ []) :
    verdicts limit (segment :: more) = if segment.isEmpty then verdicts limit more
      else .frame segment :: verdicts limit more := by
  cases more with
  | nil => exact absurd rfl ended
  | cons next more => simp only [verdicts, Nat.not_lt.mpr fits, if_false]

theorem splitOn_segment {segment : Bytes} (whole : Ascii.nul ∉ segment) (bytes : Bytes) :
    (segment ++ Ascii.nul :: bytes).splitOn Ascii.nul = segment :: bytes.splitOn Ascii.nul := by
  refine List.splitOnP_append_cons_of_forall_mem ?_ Ascii.nul (by simp) bytes
  intro b member
  exact beq_false_of_ne fun same => whole (same ▸ member)

theorem splitOn_longer {begun : Bytes} (whole : Ascii.nul ∉ begun) (bytes : Bytes) :
    ∃ rest more, (begun ++ bytes).splitOn Ascii.nul = (begun ++ rest) :: more := by
  induction begun with
  | nil => exact List.exists_cons_of_ne_nil (List.splitOn_ne_nil Ascii.nul bytes)
  | cons b begun ih =>
      obtain ⟨rest, more, cut⟩ := ih fun member => whole (List.mem_cons_of_mem b member)
      have other : (b == Ascii.nul) = false := beq_false_of_ne fun same => whole (same ▸ List.mem_cons_self)
      refine ⟨rest, more, ?_⟩
      simp only [List.splitOn] at cut ⊢
      rw [List.cons_append, List.splitOnP_cons_eq_if_modifyHead, other, cut]
      rfl

theorem due_frame {limit : Nat} {begun : Bytes} (whole : Ascii.nul ∉ begun) (fits : begun.length ≤ limit)
    (bytes : Bytes) :
    due limit begun (Ascii.nul :: bytes) = if begun.isEmpty then due limit [] bytes
      else .frame begun.reverse :: due limit [] bytes := by
  have whole : Ascii.nul ∉ begun.reverse := by simpa using whole
  rw [due, splitOn_segment whole bytes, verdicts_segment (by simpa using fits) (List.splitOn_ne_nil Ascii.nul bytes),
    List.isEmpty_reverse]
  rfl

theorem due_end {limit : Nat} {begun : Bytes} (whole : Ascii.nul ∉ begun) (fits : begun.length ≤ limit) :
    due limit begun [] = [Inlet.atEnd begun] := by
  have cut : (begun.reverse ++ []).splitOn Ascii.nul = [begun.reverse] := by
    rw [List.append_nil]
    exact List.splitOn_eq_singleton (by simpa using whole)
  have short : ¬ limit < begun.reverse.length := by simpa using fits
  rw [due, cut, verdicts, if_neg short, List.isEmpty_reverse, List.length_reverse]
  cases begun <;> rfl

theorem due_long {limit : Nat} {begun : Bytes} (whole : Ascii.nul ∉ begun) (long : limit < begun.length)
    (bytes : Bytes) :
    due limit begun bytes = [.failed (.transport s!"Frame exceeds {limit} bytes")] := by
  have whole : Ascii.nul ∉ begun.reverse := by simpa using whole
  obtain ⟨rest, more, cut⟩ := splitOn_longer whole bytes
  rw [due, cut]
  exact verdicts_long more (by rw [List.length_append, List.length_reverse]; omega)

theorem due_byte (limit : Nat) (begun : Bytes) (b : UInt8) (bytes : Bytes) :
    due limit begun (b :: bytes) = due limit (b :: begun) bytes := by
  rw [due, due, List.reverse_cons, List.append_assoc, List.singleton_append]

namespace Inlet

-- Between two calls: what is held of a frame is within the limit, and `bytes` have come and not been read.
structure Holds (i : Inlet) (bytes : Bytes) : Prop where
  bounded : i.maxFrameBytes.toNat + 1 < UInt64.size
  whole : Ascii.nul ∉ i.begun
  fits : i.begun.length ≤ i.maxFrameBytes.toNat
  queued : i.queue = bytes.map .byte

def owes (i : Inlet) (bytes : Bytes) : List Received := due i.maxFrameBytes.toNat i.begun bytes

-- How a call may come back, with `found` owed before it and `coming` what the stream is still to bring.
inductive Returns (coming : Bytes) (found : List Received) : Received → Inlet → Prop
  | frame (bytes left : Bytes) (after : Inlet) (holds : after.Holds left)
      (owed : found = .frame bytes :: after.owes (left ++ coming)) :
      Returns coming found (.frame bytes) after
  | waits (after : Inlet) (alive : after.ended = false) (holds : after.Holds []) (owed : found = after.owes coming) :
      Returns coming found .waiting after
  | stops (result : Received) (after : Inlet) (last : result.stops) (owed : found = [result]) :
      Returns coming found result after

def resumed (i : Inlet) (read : Received × Bytes × List Arrival) : Inlet :=
  { i with begun := read.2.1, queue := read.2.2 }

theorem bounded_computes {i : Inlet} (bounded : i.maxFrameBytes.toNat + 1 < UInt64.size) : i.overflows = false :=
  decide_eq_false (Nat.not_le.mpr bounded)

theorem overflow_receive {i : Inlet} (overflowing : i.overflows = true) : i.receive = (.panicked, i) := by
  rw [receive, if_pos overflowing]

theorem computed_receive {i : Inlet} (computed : i.overflows = false) :
    i.receive = ((i.gather (i.limit - i.begun.length) i.begun i.queue).1,
      i.resumed (i.gather (i.limit - i.begun.length) i.begun i.queue)) := by
  rw [receive, computed]
  rfl

theorem receive_limit (i : Inlet) : i.receive.2.maxFrameBytes = i.maxFrameBytes := by
  rw [receive]
  split <;> rfl

theorem gather_begins (i : Inlet) (room : Nat) (begun : Bytes) (queue : List Arrival) :
    (i.gather room begun queue).1 ≠ .panicked := by
  fun_induction i.gather room begun queue with
  | case1 begun queue => split <;> intro panics <;> cases panics
  | case2 room begun | case7 room begun => cases begun <;> intro panics <;> cases panics
  | case4 _ _ _ _ ih | case6 _ _ _ _ _ ih => exact ih
  | case3 | case5 | case8 => intro panics; cases panics

theorem panicked_overflow {i : Inlet} (panics : i.receive.1 = .panicked) : i.overflows = true := by
  cases excess : i.overflows with
  | true => rfl
  | false =>
      rw [computed_receive excess] at panics
      exact absurd panics (gather_begins i _ _ _)

theorem atEnd_stops (begun : Bytes) : (atEnd begun).stops := by cases begun <;> rfl

theorem gather_full {i : Inlet} {begun : Bytes} (whole : Ascii.nul ∉ begun)
    (full : begun.length = i.maxFrameBytes.toNat + 1)
    (coming bytes : Bytes) (queue : List Arrival) :
    Returns coming (due i.maxFrameBytes.toNat begun bytes) (i.gather 0 begun queue).1
      (i.resumed (i.gather 0 begun queue)) := by
  have some_ : begun.isEmpty = false := by cases begun <;> simp_all
  rw [gather, some_, due_long whole (by omega) bytes]
  exact .stops _ _ rfl rfl

-- By induction on the bytes that have come, the room left being what the frame so far leaves of the limit.
theorem gather_returns {i : Inlet} {coming : Bytes} (bounded : i.maxFrameBytes.toNat + 1 < UInt64.size)
    (silent : i.ended = true → coming = []) (room : Nat) (begun bytes : Bytes) (whole : Ascii.nul ∉ begun)
    (left : room + begun.length = i.maxFrameBytes.toNat + 1) :
    Returns coming (due i.maxFrameBytes.toNat begun (bytes ++ coming))
      (i.gather room begun (bytes.map .byte)).1 (i.resumed (i.gather room begun (bytes.map .byte))) := by
  induction bytes generalizing room begun with
  | nil =>
      cases room with
      | zero => exact gather_full whole (by omega) coming _ _
      | succ room =>
          have fits : begun.length ≤ i.maxFrameBytes.toNat := by omega
          rw [List.map_nil, gather, List.nil_append]
          cases ended : i.ended with
          | false => exact .waits _ ended ⟨bounded, whole, fits, rfl⟩ rfl
          | true =>
              rw [silent ended, due_end whole fits]
              exact .stops _ _ (atEnd_stops begun) rfl
  | cons b bytes ih =>
      cases room with
      | zero => exact gather_full whole (by omega) coming _ _
      | succ room =>
          rw [List.map_cons, gather, List.cons_append]
          split
          · next delimits =>
              rw [delimits, due_frame whole (by omega)]
              split
              · exact ih i.limit [] List.not_mem_nil rfl
              · exact .frame begun.reverse bytes _ ⟨bounded, List.not_mem_nil, Nat.zero_le _, rfl⟩ rfl
          · next other =>
              rw [due_byte]
              have still : Ascii.nul ∉ b :: begun := by
                rw [List.mem_cons, not_or]
                exact ⟨fun same => other same.symm, whole⟩
              exact ih room (b :: begun) still (by rw [List.length_cons]; omega)

theorem receive_returns {i after : Inlet} {result : Received} {bytes coming : Bytes}
    (call : i.receive = (result, after))
    (holds : i.Holds bytes) (silent : i.ended = true → coming = []) :
    Returns coming (i.owes (bytes ++ coming)) result after := by
  have room : i.limit - i.begun.length + i.begun.length = i.maxFrameBytes.toNat + 1 := by
    have fits := holds.fits
    rw [limit]
    omega
  have returns := gather_returns holds.bounded silent _ i.begun bytes holds.whole room
  rw [← holds.queued] at returns
  rw [computed_receive (bounded_computes holds.bounded)] at call
  obtain ⟨rfl, rfl⟩ := Prod.mk.inj call
  exact returns

theorem receive_ended {i after : Inlet} {result : Received} (call : i.receive = (result, after)) :
    after.ended = i.ended := by
  rw [receive] at call
  split at call <;> exact congrArg (fun call => call.2.ended) call.symm

theorem feed_holds {i : Inlet} {bytes : Bytes} (holds : i.Holds bytes) (chunk : Bytes) :
    (i.feed chunk).Holds (bytes ++ chunk) :=
  ⟨holds.bounded, holds.whole, holds.fits, by simp [feed, holds.queued]⟩

theorem hangUp_holds {i : Inlet} {bytes : Bytes} (holds : i.Holds bytes) : Inlet.Holds { i with ended := true } bytes :=
  ⟨holds.bounded, holds.whole, holds.fits, holds.queued⟩

end Inlet

theorem reads_owed {i : Inlet} {chunks : List Bytes} {found : List Received} (reads : Reads i chunks found)
    {bytes : Bytes}
    (holds : i.Holds bytes) (silent : i.ended = true → chunks = []) : found = i.owes (bytes ++ chunks.flatten) := by
  induction reads generalizing bytes with
  | @brings i chunk coming found rest ih =>
      have alive : i.ended = true → coming = [] := fun ended => by cases silent ended
      rw [ih (Inlet.feed_holds holds chunk) alive, List.flatten_cons, List.append_assoc]
      rfl
  | hangsUp rest ih => exact ih (Inlet.hangUp_holds holds) fun _ => rfl
  | waits call rest ih =>
      cases Inlet.receive_returns call holds fun ended => congrArg List.flatten (silent ended) with
      | waits _ alive unread owed =>
          rw [owed, ih unread fun ended => absurd (alive ▸ ended) Bool.false_ne_true]
          rfl
      | stops _ _ last => cases last
  | frame call rest ih =>
      cases Inlet.receive_returns call holds fun ended => congrArg List.flatten (silent ended) with
      | frame _ left _ unread owed => rw [owed, ih unread fun ended => silent (Inlet.receive_ended call ▸ ended)]
      | stops _ _ last => cases last
  | stops call last =>
      cases Inlet.receive_returns call holds fun ended => congrArg List.flatten (silent ended) with
      | frame => cases last
      | waits => cases last
      | stops _ _ _ owed => exact owed.symm

-- Once the stream has ended every call comes back, and the calls go on to the last verdict: by induction on the verdicts.
theorem ended_reads {i : Inlet} {bytes : Bytes} (holds : i.Holds bytes) (ended : i.ended = true) :
    Reads i [] (i.owes bytes) := by
  generalize owing : i.owes bytes = found
  induction found generalizing i bytes with
  | nil =>
      rcases call : i.receive with ⟨result, after⟩
      have returns := Inlet.receive_returns call holds fun _ => rfl
      rw [List.append_nil, owing] at returns
      cases returns with
      | frame _ _ _ _ owed => cases owed
      | waits _ alive => exact absurd ((Inlet.receive_ended call).trans ended) (by rw [alive]; exact Bool.false_ne_true)
      | stops _ _ _ owed => cases owed
  | cons verdict found ih =>
      rcases call : i.receive with ⟨result, after⟩
      have returns := Inlet.receive_returns call holds fun _ => rfl
      rw [List.append_nil, owing] at returns
      cases returns with
      | frame _ left _ unread owed =>
          obtain ⟨rfl, rest⟩ := List.cons.inj owed
          rw [List.append_nil] at rest
          exact .frame call (ih unread ((Inlet.receive_ended call).trans ended) rest.symm)
      | waits _ alive => exact absurd ((Inlet.receive_ended call).trans ended) (by rw [alive]; exact Bool.false_ne_true)
      | stops _ _ last owed =>
          obtain ⟨rfl, rfl⟩ := List.cons.inj owed
          exact .stops call last

theorem reads_all {i : Inlet} {bytes : Bytes} (holds : i.Holds bytes) (chunks : List Bytes) :
    Reads i chunks (i.owes (bytes ++ chunks.flatten)) := by
  induction chunks generalizing i bytes with
  | nil =>
      rw [List.flatten_nil, List.append_nil]
      exact .hangsUp (ended_reads (Inlet.hangUp_holds holds) rfl)
  | cons chunk chunks ih =>
      have rest := ih (Inlet.feed_holds holds chunk)
      rw [List.append_assoc] at rest
      exact .brings rest

theorem reads_iff {m : UInt64} (bounded : m.toNat + 1 < UInt64.size) (chunks : List Bytes) (found : List Received) :
    Reads { maxFrameBytes := m } chunks found ↔ found = verdicts m.toNat (chunks.flatten.splitOn Ascii.nul) := by
  have fresh : Inlet.Holds { maxFrameBytes := m } [] := ⟨bounded, List.not_mem_nil, Nat.zero_le _, rfl⟩
  constructor
  · intro reads
    exact reads_owed reads fresh fun ended => by cases ended
  · rintro rfl
    exact reads_all fresh chunks

theorem Inlet.gather_ended {i : Inlet} (ended : i.ended = true) (room : Nat) (begun : Bytes) (queue : List Arrival) :
    (i.gather room begun queue).1 ≠ .waiting := by
  have decided : ∀ begun : Bytes, atEnd begun ≠ .waiting := fun begun => by cases begun <;> exact Received.noConfusion
  fun_induction i.gather room begun queue with
  | case1 begun queue => split <;> exact Received.noConfusion
  | case2 room begun _ => exact decided begun
  | case3 room begun alive => exact absurd ended alive
  | case4 => assumption
  | case5 => exact Received.noConfusion
  | case6 => assumption
  | case7 room begun queue => exact decided begun
  | case8 => exact Received.noConfusion

theorem Inlet.ended_awake {i : Inlet} (ended : i.ended = true) : i.receive.1 ≠ .waiting := by
  rw [receive]
  split
  · exact Received.noConfusion
  · exact gather_ended ended _ _ _

theorem segments_read_in_order (m : UInt64) (chunks : List Bytes) (bounded : m.toNat + 1 < UInt64.size) :
    (∀ found, Reads { maxFrameBytes := m } chunks found ↔ found = verdicts m.toNat (chunks.flatten.splitOn Ascii.nul)) ∧
      ∀ i : Inlet, i.ended = true → i.receive.1 ≠ .waiting :=
  ⟨reads_iff bounded chunks, fun _ ended => Inlet.ended_awake ended⟩

theorem segments_read_until_too_long :
    (3 : UInt64).toNat + 1 < UInt64.size ∧
      Reads { maxFrameBytes := 3 } [[97], [98, 0, 0, 99], [100, 101, 0, 102, 103, 104], [105, 0]]
        [.frame [97, 98], .frame [99, 100, 101], .failed (.transport "Frame exceeds 3 bytes")] := by
  have bounded : (3 : UInt64).toNat + 1 < UInt64.size := by decide
  exact ⟨bounded, ((segments_read_in_order 3 _ bounded).1 _).mpr rfl⟩

end DevTools
