import DevTools.Transport.Link

set_option autoImplicit false

namespace DevTools

theorem Outlet.write_fault (o : Outlet) (stage : Stage) (bytes : Bytes) (fault : Error)
    (fails : (o.write stage bytes).1 = .failed fault) :
    ∃ reason, fault = .transport reason := by
  simp only [write] at fails
  split at fails
  · cases fails
  · split at fails
    · cases fails
      exact ⟨_, rfl⟩
    · split at fails
      · cases fails
      · split at fails <;> cases fails
        exact ⟨_, rfl⟩

theorem Outlet.flush_fault (o : Outlet) (fault : Error) (fails : o.flush = .failed fault) :
    ∃ reason, fault = .transport reason := by
  simp only [flush] at fails
  split at fails <;> cases fails
  exact ⟨_, rfl⟩

theorem Outlet.delimiter_fault (o : Outlet) (rest : Bytes) (fault : Error)
    (fails : (o.sendDelimiter rest).1 = .failed fault) :
    ∃ reason, fault = .transport reason := by
  have writes := write_fault o .delimiter rest
  rcases written : o.write .delimiter rest with ⟨result, after⟩
  rw [written] at writes
  cases result <;> simp only [sendDelimiter, written] at fails
  · exact flush_fault after fault fails
  · exact writes fault fails
  · cases fails

theorem Outlet.send_fault (o : Outlet) (s : Sending) (fault : Error) (fails : (o.send s).1 = .failed fault) :
    ∃ reason, fault = .transport reason := by
  obtain ⟨stage, rest⟩ := s
  cases stage with
  | flush => exact flush_fault o fault fails
  | delimiter => exact delimiter_fault o rest fault fails
  | frame =>
      have writes := write_fault o .frame rest
      rcases written : o.write .frame rest with ⟨result, after⟩
      rw [written] at writes
      cases result <;> simp only [send, written] at fails
      · exact delimiter_fault after _ fault fails
      · exact writes fault fails
      · cases fails

theorem Socket.send_fault (s : Socket) (frame : Bytes) (fault : Error) (fails : (s.send frame).1 = .failed fault) :
    ∃ reason, fault = .transport reason := by
  simp only [send] at fails
  split at fails
  · cases fails
    exact ⟨_, rfl⟩
  · split at fails
    · cases fails
      exact ⟨_, rfl⟩
    · split at fails <;> cases fails
      exact ⟨_, rfl⟩
    · cases fails
      exact ⟨_, rfl⟩

theorem Memory.send_fault (m : Memory) (s : Sending) (fault : Error) (fails : (m.send s).1 = .failed fault) :
    ∃ reason, fault = .transport reason := by
  simp only [send] at fails
  split at fails
  · cases fails
    exact ⟨_, rfl⟩
  · split at fails <;> cases fails

theorem Link.send_fault (l : Link) (s : Sending) (fault : Error) (fails : (l.send s).1 = .failed fault) :
    ∃ reason, fault = .transport reason := by
  simp only [send] at fails
  split at fails
  · exact Outlet.send_fault _ s fault fails
  · exact Socket.send_fault _ s.rest fault fails
  · exact Memory.send_fault _ s fault fails

end DevTools
