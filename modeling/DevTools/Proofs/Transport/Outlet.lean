import DevTools.Transport.Pipe
import Mathlib.Data.List.Basic

set_option autoImplicit false

namespace DevTools

def Sending.remaining (s : Sending) : Bytes :=
  match s.stage with
  | .frame => s.rest ++ [Ascii.nul]
  | .delimiter => s.rest
  | .flush => []

namespace Outlet

def Leaves (bytes took : Bytes) : Sent → Prop
  | .done => took = bytes
  | .waiting left => bytes = took ++ left.remaining
  | .failed _ => took <+: bytes

theorem take_takes (o : Outlet) (bytes : Bytes) : ∃ took, (o.take bytes).2.accepted = o.accepted ++ took ∧
    bytes = took ++ (o.take bytes).1 := by
  cases room : o.room with
  | none => exact ⟨bytes, by simp [take, room], by simp [take, room]⟩
  | some n => exact ⟨bytes.take n, by simp [take, room], by simp [take, room]⟩

theorem write_takes (o : Outlet) (stage : Stage) (bytes : Bytes) :
    ∃ took, (o.write stage bytes).2.accepted = o.accepted ++ took ∧
      match (o.write stage bytes).1 with
      | .done => took = bytes
      | .waiting left => left.stage = stage ∧ bytes = took ++ left.rest
      | .failed _ => took <+: bytes := by
  simp only [write]
  split
  · next nothing =>
      have empty : bytes = [] := List.isEmpty_iff.mp nothing
      exact ⟨[], by simp, empty.symm⟩
  · split
    · exact ⟨[], by simp, List.nil_prefix⟩
    · obtain ⟨took, takes, split_⟩ := take_takes o bytes
      rcases taken : o.take bytes with ⟨rest, after⟩
      rw [taken] at takes split_
      dsimp only at takes split_ ⊢
      split
      · next nothing =>
          have empty : rest = [] := List.isEmpty_iff.mp nothing
          refine ⟨took, takes, ?_⟩
          rw [split_, empty, List.append_nil]
      · split
        · exact ⟨took, takes, split_ ▸ List.prefix_append took rest⟩
        · exact ⟨took, takes, rfl, split_⟩

theorem delimiter_takes (o : Outlet) (bytes : Bytes) :
    ∃ took, (o.sendDelimiter bytes).2.accepted = o.accepted ++ took ∧ Leaves bytes took (o.sendDelimiter bytes).1 := by
  obtain ⟨took, takes, leaves⟩ := write_takes o .delimiter bytes
  rcases written : o.write .delimiter bytes with ⟨result, after⟩
  rw [written] at takes leaves
  cases result with
  | done =>
      simp only [sendDelimiter, written]
      refine ⟨took, takes, ?_⟩
      dsimp only at leaves
      subst leaves
      cases fault : after.flushFault with
      | none => simp only [flush, fault, Leaves]
      | some reason =>
          simp only [flush, fault, Leaves]
          exact List.prefix_refl took
  | waiting left =>
      simp only [sendDelimiter, written]
      obtain ⟨stage, split_⟩ := leaves
      exact ⟨took, takes, by simp [Leaves, Sending.remaining, stage, split_]⟩
  | failed fault =>
      simp only [sendDelimiter, written]
      exact ⟨took, takes, leaves⟩

theorem send_takes (o : Outlet) (s : Sending) : ∃ took, (o.send s).2.accepted = o.accepted ++ took ∧
    Leaves s.remaining took (o.send s).1 := by
  obtain ⟨stage, rest⟩ := s
  cases stage with
  | flush =>
      refine ⟨[], by simp [send], ?_⟩
      cases fault : o.flushFault with
      | none => simp only [send, flush, fault, Leaves, Sending.remaining]
      | some reason =>
          simp only [send, flush, fault, Leaves]
          exact List.nil_prefix
  | delimiter => exact delimiter_takes o rest
  | frame =>
      obtain ⟨took, takes, leaves⟩ := write_takes o .frame rest
      rcases written : o.write .frame rest with ⟨result, after⟩
      rw [written] at takes leaves
      cases result with
      | done =>
          obtain ⟨more, takesMore, leavesMore⟩ := delimiter_takes after [Ascii.nul]
          dsimp only at leaves
          subst leaves
          simp only [send, written, Sending.remaining]
          refine ⟨took ++ more, ?_, ?_⟩
          · rw [takesMore, takes, List.append_assoc]
          · cases ended : (after.sendDelimiter [Ascii.nul]).1 with
            | done =>
                rw [ended] at leavesMore
                exact congrArg (took ++ ·) leavesMore
            | waiting left =>
                rw [ended] at leavesMore
                rw [Leaves, List.append_assoc]
                exact congrArg (took ++ ·) leavesMore
            | failed fault =>
                rw [ended] at leavesMore
                exact (List.prefix_append_right_inj took).mpr leavesMore
      | waiting left =>
          simp only [send, written, Sending.remaining]
          obtain ⟨stage, split_⟩ := leaves
          exact ⟨took, takes, by simp [Leaves, Sending.remaining, stage, split_]⟩
      | failed fault =>
          simp only [send, written, Sending.remaining]
          exact ⟨took, takes, leaves.trans (List.prefix_append rest [Ascii.nul])⟩

theorem send_flushed (o : Outlet) (s : Sending) (sent : (o.send s).1 = .done) : (o.send s).2.flush = .done := by
  have delimited : ∀ (o : Outlet) (bytes : Bytes), (o.sendDelimiter bytes).1 = .done →
      (o.sendDelimiter bytes).2.flush = .done := by
    intro o bytes done
    rcases written : o.write .delimiter bytes with ⟨result, after⟩
    cases result <;> simp only [sendDelimiter, written] at done ⊢
    · exact done
    · cases done
    · cases done
  obtain ⟨stage, rest⟩ := s
  cases stage with
  | flush => exact sent
  | delimiter => exact delimited o rest sent
  | frame =>
      rcases written : o.write .frame rest with ⟨result, after⟩
      cases result <;> simp only [send, written] at sent ⊢
      · exact delimited after [Ascii.nul] sent
      · cases sent
      · cases sent

end Outlet

end DevTools
