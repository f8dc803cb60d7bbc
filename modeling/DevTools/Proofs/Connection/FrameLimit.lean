import DevTools.Proofs.Connection.Inflow
import DevTools.Proofs.Connection.Wire
/- A read takes one byte more than the limit for the delimiter, and that sum is a number of 64 bits. For the largest
   limit there is none: no read begins, and a connection goes on without its reader. -/

set_option autoImplicit false

namespace DevTools

-- The stream is at its end after the bytes that have come: it has ended, or a read gives nothing.
def runsOut (ended : Bool) : List Arrival → Bool
  | [] => ended
  | .byte _ :: rest => runsOut ended rest
  | .nothing :: _ => true
  | .fault _ :: _ => false

namespace Inlet

def isOver (i : Inlet) : Bool := runsOut i.ended i.queue

-- A reader with this limit, whatever has come and however often it was asked for a frame.
inductive Reached (m : UInt64) : Inlet → Prop where
  | fresh : Reached m { maxFrameBytes := m }
  | arrives (i : Inlet) (arrivals : List Arrival) (earlier : Reached m i) :
      Reached m { i with queue := i.queue ++ arrivals }
  | hangsUp (i : Inlet) (earlier : Reached m i) : Reached m { i with ended := true }
  | receives (i : Inlet) (earlier : Reached m i) : Reached m i.receive.2
  | forgets (i : Inlet) (earlier : Reached m i) : Reached m i.forget

-- What has been read of a frame leaves room for a delimiter.
def HasRoom (i : Inlet) : Prop := i.begun = [] ∨ i.begun.length < i.limit

section
variable {i : Inlet}

theorem gather_room (room : Nat) (begun : Bytes) (queue : List Arrival) (left : room + begun.length = i.limit) :
    (i.gather room begun queue).2.1 = [] ∨ (i.gather room begun queue).2.1.length < i.limit := by
  fun_induction i.gather room begun queue with
  | case3 room begun alive =>
      right
      change begun.length < i.limit
      omega
  | case4 _ _ _ _ ih => exact ih rfl
  | case6 room begun _ queue _ ih => exact ih (by rw [List.length_cons]; omega)
  | case1 | case2 | case5 | case7 | case8 => exact Or.inl rfl

theorem gather_over (room : Nat) (begun : Bytes) (queue : List Arrival) (left : room + begun.length = i.limit)
    (ended : (i.gather room begun queue).1 = .ended) : runsOut i.ended queue = true := by
  fun_induction i.gather room begun queue with
  | case1 begun queue =>
      split at ended
      · next none_ =>
          rw [List.isEmpty_iff.mp none_] at left
          exact absurd left.symm (Nat.succ_ne_zero _)
      · cases ended
  | case2 room begun ends => exact ends
  | case4 _ _ _ _ ih => exact ih rfl ended
  | case6 room begun _ queue _ ih => exact ih (by rw [List.length_cons]; omega) ended
  | case7 => rfl
  | case3 | case5 | case8 => cases ended

theorem room_left (hasRoom : i.HasRoom) : i.limit - i.begun.length + i.begun.length = i.limit := by
  rcases hasRoom with none_ | short
  · simp [none_]
  · omega

theorem reached_limit {m : UInt64} (reached : Reached m i) : i.maxFrameBytes = m := by
  induction reached with
  | fresh => rfl
  | arrives _ _ _ ih | hangsUp _ _ ih | forgets _ _ ih => exact ih
  | receives i _ ih => exact (receive_limit i).trans ih

theorem reached_room {m : UInt64} (reached : Reached m i) : i.HasRoom := by
  induction reached with
  | fresh | forgets => exact Or.inl rfl
  | arrives _ _ _ ih | hangsUp _ _ ih => exact ih
  | receives i _ ih =>
      rw [receive]
      split
      · exact ih
      · exact gather_room _ _ _ (room_left ih)

section
variable {m : UInt64} (reached : Reached m i)
include reached

theorem reached_computes (bounded : m.toNat + 1 < UInt64.size) : i.overflows = false :=
  bounded_computes (reached_limit reached ▸ bounded)

theorem reached_over (bounded : m.toNat + 1 < UInt64.size) (ended : i.receive.1 = .ended) : i.isOver = true := by
  rw [computed_receive (reached_computes reached bounded)] at ended
  exact gather_over _ _ _ (room_left (reached_room reached)) ended

theorem reached_panics (last : m.toNat + 1 = UInt64.size) : i.receive = (.panicked, i) :=
  overflow_receive (decide_eq_true (Nat.le_of_eq (reached_limit reached ▸ last).symm))

end

end

end Inlet

theorem verdicts_within (limit : Nat) (before : List Bytes) (segment : Bytes) (after : List Bytes)
    (delimited : after ≠ [])
    (earlier : ∀ s ∈ before, s.length ≤ limit) (some_ : segment ≠ []) (fits : segment.length ≤ limit) :
    verdicts limit (before ++ segment :: after) = (before.filter (!·.isEmpty)).map .frame ++
      .frame segment :: verdicts limit after := by
  induction before with
  | nil =>
      have solid : segment.isEmpty = false := by simpa using some_
      rw [List.nil_append, verdicts_segment fits delimited, solid]
      rfl
  | cons s before ih =>
      have rest := ih fun other member => earlier other (List.mem_cons_of_mem s member)
      rw [List.cons_append, verdicts_segment (earlier s List.mem_cons_self) (by simp), rest, List.filter_cons]
      cases s <;> rfl

theorem panicked_reads {m : UInt64} (last : m.toNat + 1 = UInt64.size) (chunks : List Bytes) (found : List Received) :
    ¬ Reads { maxFrameBytes := m } chunks found := by
  have reached : Inlet.Reached m { maxFrameBytes := m } := .fresh
  intro reads
  generalize ({ maxFrameBytes := m } : Inlet) = i at reads reached
  induction reads with
  | brings _ ih => exact ih (.arrives _ _ reached)
  | hangsUp _ ih => exact ih (.hangsUp _ reached)
  | waits call | frame call =>
      rw [Inlet.reached_panics reached last] at call
      cases call
  | stops call stopped =>
      rw [Inlet.reached_panics reached last] at call
      cases call
      cases stopped

def Link.Reached (m : UInt64) (l : Link) : Prop := ∃ inlet outlet, l.transport = .pipe inlet outlet ∧ inlet.Reached m

section
variable {m : UInt64} {l : Link} (reached : l.Reached m)
include reached

theorem receive_reached : l.receive.2.Reached m := by
  obtain ⟨inlet, outlet, transport, earlier⟩ := reached
  refine ⟨inlet.receive.2, outlet, ?_, .receives inlet earlier⟩
  simp only [Link.receive, transport, Link.withTransport]

theorem send_reached (s : Sending) : (l.send s).2.Reached m := by
  obtain ⟨inlet, outlet, transport, earlier⟩ := reached
  refine ⟨inlet, (outlet.send s).2, ?_, earlier⟩
  simp only [Link.send, transport, Link.withTransport]

theorem far_reached (deed : Far) : (l.far deed).Reached m := by
  obtain ⟨inlet, outlet, transport, earlier⟩ := reached
  cases deed with
  | arrive arrivals =>
      simp only [Link.far, transport]
      split
      · exact ⟨inlet, outlet, transport, earlier⟩
      · exact ⟨_, outlet, rfl, .arrives inlet arrivals earlier⟩
  | message | hand | script =>
      simp only [Link.far, Link.post, Link.hand, transport]
      exact ⟨inlet, outlet, transport, earlier⟩
  | hangUp =>
      simp only [Link.far, Link.hangUp, transport]
      exact ⟨_, outlet, rfl, .hangsUp inlet earlier⟩
  | snap =>
      simp only [Link.far, Link.snap, transport]
      exact ⟨inlet, _, rfl, earlier⟩
  | pace =>
      simp only [Link.far, transport]
      exact ⟨inlet, _, rfl, earlier⟩
  | look =>
      simp only [Link.far, Link.collect, transport]
      split
      · exact ⟨inlet, outlet, rfl, earlier⟩
      · exact ⟨inlet, _, rfl, earlier⟩

end

namespace Connection

theorem reached_lasting {m : UInt64} : Lasting (Link.Reached m) where
  reads _ reached _ := receive_reached reached
  panics _ reached _ := receive_reached reached
  sends _ s reached := send_reached reached s
  far _ deed reached := far_reached reached deed

def piped (config : Config) (outlet : Outlet) : Connection :=
  ofLink config (overPipe { maxFrameBytes := config.maxFrameBytes } outlet)

section
variable (config : Config) (outlet : Outlet) (acts : List Act)

theorem piped_sound : ((piped config outlet).run acts).Sound := run_sound (initial_sound config _) acts

theorem piped_reached (isOpen : ((piped config outlet).run acts).hub.isClosed = false) :
    ((piped config outlet).run acts).link.Reached config.maxFrameBytes :=
  open_lasting reached_lasting (initial_sound config _) ⟨_, outlet, rfl, .fresh⟩ acts isOpen

theorem hangup_over (bounded : config.maxFrameBytes.toNat + 1 < UInt64.size)
    (isOpen : ((piped config outlet).run acts).hub.isClosed = false)
    (hangsUp : (((piped config outlet).run acts).act (.move .reader)).hub.reason = some .remoteHangup) :
    ∃ inlet out, ((piped config outlet).run acts).link.transport = .pipe inlet out ∧ inlet.isOver = true := by
  obtain ⟨inlet, out, transport, reached⟩ := piped_reached config outlet acts isOpen
  have received : ((piped config outlet).run acts).link.receive.1 = inlet.receive.1 := by
    simp only [Link.receive, transport]
  rw [open_reason (piped_sound config outlet acts) isOpen, trigger?, received] at hangsUp
  refine ⟨inlet, out, transport, Inlet.reached_over reached bounded ?_⟩
  cases result : inlet.receive.1 with
  | ended => rfl
  | frame | failed | waiting | panicked => simp [result] at hangsUp

theorem piped_panics (last : config.maxFrameBytes.toNat + 1 = UInt64.size)
    (isOpen : ((piped config outlet).run acts).hub.isClosed = false) :
    ((piped config outlet).run acts).link.receive = (.panicked, ((piped config outlet).run acts).link) := by
  obtain ⟨inlet, out, transport, reached⟩ := piped_reached config outlet acts isOpen
  simp only [Link.receive, transport, Inlet.reached_panics reached last]
  rw [Link.withTransport, ← transport]

theorem panicked_frames (last : config.maxFrameBytes.toNat + 1 = UInt64.size) :
    (piped config outlet).frames acts = [] := by
  induction acts using List.reverseRecOn with
  | nil => rfl
  | append_singleton acts a ih =>
      rw [frames_after, ih, List.nil_append]
      cases taken : ((piped config outlet).run acts).takes? a with
      | none => rfl
      | some bytes =>
          obtain ⟨_, isOpen, received⟩ := (takes_reader bytes).mp taken
          rw [piped_panics config outlet acts last isOpen] at received
          cases received

theorem panicked_reader (last : config.maxFrameBytes.toNat + 1 = UInt64.size)
    (isOpen : ((piped config outlet).run acts).hub.isClosed = false) :
    ((piped config outlet).run acts).act (.move .reader) = ((piped config outlet).run acts).endReader := by
  have kept := (piped_sound config outlet acts).kept
  have moved : ((piped config outlet).run acts).moveReader = ((piped config outlet).run acts).endReader := by
    simp only [moveReader, isOpen, piped_panics config outlet acts last isOpen, Bool.false_eq_true, if_false]
  rw [act, move, moved]
  exact close_unheld_of_held (held_of_open kept isOpen)

end

-- Every read begins. Frames within the limit are found, and the end only where it is.
structure KeepsLimit (config : Config) : Prop where
  begins : ∀ i : Inlet, i.Reached config.maxFrameBytes → i.overflows = false
  finds : ∀ chunks before segment after, chunks.flatten.splitOn Ascii.nul = before ++ segment :: after → after ≠ [] →
    (∀ s ∈ before, s.length ≤ config.maxFrameBytes.toNat) → segment ≠ [] → segment.length ≤ config.maxFrameBytes.toNat →
    ∃ rest, ∀ found, Reads { maxFrameBytes := config.maxFrameBytes } chunks found ↔
      found = (before.filter (!·.isEmpty)).map .frame ++ .frame segment :: rest
  ended : ∀ i : Inlet, i.Reached config.maxFrameBytes → i.receive.1 = .ended → i.isOver = true
  hangsUp : ∀ outlet acts, ((piped config outlet).run acts).hub.isClosed = false →
    (((piped config outlet).run acts).act (.move .reader)).hub.reason = some .remoteHangup →
    ∃ inlet out, ((piped config outlet).run acts).link.transport = .pipe inlet out ∧ inlet.isOver = true

-- No read begins. The reader of an open connection is gone with its first move, and nothing else changes: the connection
-- stays open, and whatever has come or is to come, nobody takes it in.
structure LosesReader (config : Config) : Prop where
  panics : ∀ i : Inlet, i.Reached config.maxFrameBytes → i.receive = (.panicked, i)
  finds : ∀ chunks found, ¬ Reads { maxFrameBytes := config.maxFrameBytes } chunks found
  takes : ∀ outlet acts, (piped config outlet).frames acts = []
  ends : ∀ outlet acts, ((piped config outlet).run acts).hub.isClosed = false →
    ((piped config outlet).run acts).act (.move .reader) = ((piped config outlet).run acts).endReader

theorem frame_limit_kept (config : Config) :
    (config.maxFrameBytes.toNat + 1 < UInt64.size → KeepsLimit config) ∧
      (config.maxFrameBytes.toNat + 1 = UInt64.size → LosesReader config) := by
  constructor
  · intro bounded
    refine ⟨fun _ reached => Inlet.reached_computes reached bounded, ?_, fun _ reached =>
      Inlet.reached_over reached bounded,
      fun outlet acts => hangup_over config outlet acts bounded⟩
    intro chunks before segment after cut delimited earlier solid fits
    refine ⟨verdicts config.maxFrameBytes.toNat after, fun found => ?_⟩
    rw [reads_iff bounded, cut, verdicts_within _ before segment after delimited earlier solid fits]
  · intro last
    exact ⟨fun _ reached => Inlet.reached_panics reached last, panicked_reads last,
      fun outlet acts => panicked_frames config outlet acts last, fun outlet acts =>
        panicked_reader config outlet acts last⟩

theorem frame_limit_kept_edges :
    (((3 : UInt64).toNat + 1 < UInt64.size) ∧ KeepsLimit { maxFrameBytes := 3 }) ∧
      ((18446744073709551615 : UInt64).toNat + 1 = UInt64.size) ∧
      LosesReader (({} : Config).withMaxFrameBytes 18446744073709551615) := by
  have bounded : (3 : UInt64).toNat + 1 < UInt64.size := by decide
  have last : (18446744073709551615 : UInt64).toNat + 1 = UInt64.size := by decide
  exact ⟨⟨bounded, (frame_limit_kept { maxFrameBytes := 3 }).1 bounded⟩, last, (frame_limit_kept _).2 last⟩

-- A frame of one byte has come, and the read panics. The connection is open, and its reader is gone.
theorem last_limit_panics :
    let config := ({} : Config).withMaxFrameBytes 18446744073709551615
    let c := (piped config {}).run [.far (arrives [97, 0]), .move .reader]
    (Inlet.receive { maxFrameBytes := 18446744073709551615, queue := [97, 0].map .byte }).1 = .panicked ∧
      (piped config {}).frames [.far (arrives [97, 0]), .move .reader] = [] ∧
      c.hub.isClosed = false ∧ c.readerEnded = true ∧ c.link.isGone = false := by
  exact ⟨rfl, rfl, rfl, rfl, rfl⟩

end Connection

end DevTools
