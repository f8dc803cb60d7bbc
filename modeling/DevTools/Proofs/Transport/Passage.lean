import DevTools.Proofs.Transport.Framing
import DevTools.Proofs.Transport.Outlet

set_option autoImplicit false

namespace DevTools

-- One frame is written to its end; whenever the pipe takes no more, it is asked again once there is room.
inductive Sends : Outlet → Sending → Outlet → Prop
  | done {o after : Outlet} {s : Sending} (call : o.send s = (.done, after)) : Sends o s after
  | waits {o blocked after : Outlet} {s left : Sending} (room : Option Nat) (call : o.send s = (.waiting left, blocked))
      (rest : Sends { blocked with room } left after) : Sends o s after

inductive Writes : Outlet → List Bytes → Outlet → Prop
  | nothing (o : Outlet) : Writes o [] o
  | next {o middle after : Outlet} {frame : Bytes} {frames : List Bytes} (first : Sends o (.ofFrame frame) middle)
      (rest : Writes middle frames after) : Writes o (frame :: frames) after

def framed (frames : List Bytes) : Bytes := frames.flatMap (· ++ [Ascii.nul])

theorem sends_accepted {o after : Outlet} {s : Sending} (sends : Sends o s after) :
    after.accepted = o.accepted ++ s.remaining := by
  induction sends with
  | @done o after s call =>
      obtain ⟨took, accepted, leaves⟩ := o.send_takes s
      rw [call] at accepted leaves
      rw [accepted, leaves]
  | @waits o blocked after s left room call _ ih =>
      obtain ⟨took, accepted, leaves⟩ := o.send_takes s
      rw [call] at accepted leaves
      rw [ih, leaves, ← List.append_assoc, ← accepted]

theorem writes_accepted {o after : Outlet} {frames : List Bytes} (writes : Writes o frames after) :
    after.accepted = o.accepted ++ framed frames := by
  induction writes with
  | nothing o => exact (List.append_nil _).symm
  | next first _ ih =>
      rw [ih, sends_accepted first, List.append_assoc]
      rfl

namespace Outlet

-- Nothing keeps the pipe from taking bytes, now or later.
structure Healthy (o : Outlet) : Prop where
  whole : o.broken = false
  opened : o.shut = false
  takes : o.refusal = none
  flushes : o.flushFault = none

structure Takes (o : Outlet) (step : Sent × Outlet) : Prop where
  healthy : step.2.Healthy
  goesOn : step.1 = .done ∨ ∃ left, step.1 = .waiting left
  roomy : o.room = none → step.1 = .done ∧ step.2.room = none

section
variable {o : Outlet} (healthy : o.Healthy)
include healthy

theorem flush_takes : o.Takes (o.flush, o) := by
  have flushed : o.flush = .done := by rw [flush, healthy.flushes]
  exact ⟨healthy, Or.inl flushed, fun roomy => ⟨flushed, roomy⟩⟩

theorem write_goes (stage : Stage) (bytes : Bytes) : o.Takes (o.write stage bytes) := by
  have live : ¬ (o.broken || o.shut) = true := by simp [healthy.whole, healthy.opened]
  simp only [write, if_neg live]
  split
  · exact ⟨healthy, Or.inl rfl, fun roomy => ⟨rfl, roomy⟩⟩
  · cases room : o.room with
    | none =>
        simp only [take, room, List.isEmpty_nil, if_true]
        exact ⟨⟨healthy.whole, healthy.opened, healthy.takes, healthy.flushes⟩, Or.inl rfl, fun _ => ⟨rfl, rfl⟩⟩
    | some n =>
        have never : o.room ≠ none := by rw [room]; exact Option.some_ne_none n
        simp only [take, room, healthy.takes]
        split
        · exact ⟨⟨healthy.whole, healthy.opened, rfl, healthy.flushes⟩, Or.inl rfl, fun none_ => absurd none_ never⟩
        · exact ⟨⟨healthy.whole, healthy.opened, rfl, healthy.flushes⟩, Or.inr ⟨_, rfl⟩,
            fun none_ => absurd none_ never⟩

theorem delimiter_goes (bytes : Bytes) : o.Takes (o.sendDelimiter bytes) := by
  have takes := write_goes healthy .delimiter bytes
  rcases written : o.write .delimiter bytes with ⟨result, after⟩
  rw [written] at takes
  rcases takes.goesOn with rfl | ⟨left, rfl⟩
  · have flushed := flush_takes takes.healthy
    simp only [sendDelimiter, written]
    exact ⟨flushed.healthy, flushed.goesOn, fun roomy => flushed.roomy (takes.roomy roomy).2⟩
  · simp only [sendDelimiter, written]
    exact takes

theorem send_goes (s : Sending) : o.Takes (o.send s) := by
  obtain ⟨stage, rest⟩ := s
  cases stage with
  | flush => exact flush_takes healthy
  | delimiter => exact delimiter_goes healthy rest
  | frame =>
      have takes := write_goes healthy .frame rest
      rcases written : o.write .frame rest with ⟨result, after⟩
      rw [written] at takes
      rcases takes.goesOn with rfl | ⟨left, rfl⟩
      · have delimits := delimiter_goes takes.healthy [Ascii.nul]
        simp only [send, written]
        exact ⟨delimits.healthy, delimits.goesOn, fun roomy => delimits.roomy (takes.roomy roomy).2⟩
      · simp only [send, written]
        exact takes

end

end Outlet

theorem healthy_sends {o : Outlet} (healthy : o.Healthy) (s : Sending) : ∃ after, Sends o s after ∧ after.Healthy := by
  have takes := Outlet.send_goes healthy s
  rcases call : o.send s with ⟨sent, blocked⟩
  rw [call] at takes
  rcases takes.goesOn with rfl | ⟨left, rfl⟩
  · exact ⟨blocked, .done call, takes.healthy⟩
  · have still := takes.healthy
    have again := Outlet.send_goes (o := { blocked with room := none }) ⟨still.whole, still.opened, still.takes,
      still.flushes⟩ left
    rcases last : { blocked with room := none }.send left with ⟨sent, after⟩
    rw [last] at again
    obtain ⟨rfl, _⟩ := again.roomy rfl
    exact ⟨after, .waits none call (.done last), again.healthy⟩

theorem healthy_writes {o : Outlet} (healthy : o.Healthy) (frames : List Bytes) :
    ∃ after, Writes o frames after ∧ after.Healthy := by
  induction frames generalizing o with
  | nil => exact ⟨o, .nothing o, healthy⟩
  | cons frame frames ih =>
      obtain ⟨middle, first, still⟩ := healthy_sends healthy (.ofFrame frame)
      obtain ⟨after, rest, end_⟩ := ih still
      exact ⟨after, .next first rest, end_⟩

theorem splitOn_framed (frames : List Bytes) (whole : ∀ f ∈ frames, Ascii.nul ∉ f) :
    (framed frames).splitOn Ascii.nul = frames ++ [[]] := by
  induction frames with
  | nil => rfl
  | cons frame frames ih =>
      have rest := ih fun f member => whole f (List.mem_cons_of_mem frame member)
      have cut := splitOn_segment (whole frame List.mem_cons_self) (framed frames)
      rw [rest] at cut
      rw [framed, List.flatMap_cons, List.append_assoc]
      exact cut

theorem verdicts_framed (limit : Nat) (frames : List Bytes) (fits : ∀ f ∈ frames, f ≠ [] ∧ f.length ≤ limit) :
    verdicts limit (frames ++ [[]]) = frames.map .frame ++ [.ended] := by
  induction frames with
  | nil => rfl
  | cons frame frames ih =>
      obtain ⟨some_, short⟩ := fits frame List.mem_cons_self
      have solid : frame.isEmpty = false := by simpa using some_
      rw [List.cons_append, verdicts_segment short (by simp), solid, ih fun f member =>
        fits f (List.mem_cons_of_mem frame member)]
      rfl

-- The reader finds what the writer wrote, and then the end.
theorem passage_reads {o after : Outlet} {frames chunks : List Bytes} {m : UInt64} (fresh : o.accepted = [])
    (whole : ∀ f ∈ frames, f ≠ [] ∧ Ascii.nul ∉ f) (writes : Writes o frames after)
    (brings : chunks.flatten = after.accepted)
    (bounded : m.toNat + 1 < UInt64.size) (fits : ∀ f ∈ frames, f.length ≤ m.toNat) (found : List Received) :
    Reads { maxFrameBytes := m } chunks found ↔ found = frames.map .frame ++ [.ended] := by
  have written := writes_accepted writes
  rw [fresh, List.nil_append] at written
  rw [reads_iff bounded, brings, written, splitOn_framed frames fun f member => (whole f member).2,
    verdicts_framed m.toNat frames fun f member => ⟨(whole f member).1, fits f member⟩]

end DevTools
