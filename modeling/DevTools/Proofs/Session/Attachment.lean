import DevTools.Session.Table

set_option autoImplicit false

namespace DevTools.SessionTable

section
variable {t : SessionTable}

theorem attached_iff (id : SessionId) :
    t.isAttached id = true ↔ ∃ s, t.sessions.find? (·.id == id) = some s ∧ s.detached = false := by
  simp [isAttached, get?, Option.any_eq_true]

theorem attached_of_sessions (after : SessionTable) (same : after.sessions = t.sessions) (id : SessionId) :
    after.isAttached id = t.isAttached id := by
  simp only [isAttached, get?, same]

theorem mark_get (which : Session → Bool) (id : SessionId) :
    (t.markWhere which).sessions.find? (·.id == id) =
      (t.sessions.find? (·.id == id)).map fun s => if which s then { s with detached := true } else s := by
  simp only [markWhere, List.find?_map]
  congr 2
  funext s
  simp only [Function.comp]
  split <;> rfl

theorem mark_get_other (session id : SessionId) (other : id ≠ session) :
    (t.markWhere (·.id == session)).get? id = t.get? id := by
  simp only [get?, mark_get]
  cases found : t.sessions.find? (·.id == id) with
  | none => rfl
  | some s =>
      have own : s.id = id := by simpa using List.find?_some found
      simp [own, other]

theorem mark_other (session id : SessionId) (other : id ≠ session) :
    (t.markWhere (·.id == session)).isAttached id = t.isAttached id := by
  simp only [isAttached, mark_get_other session id other]

theorem register_keeps (id session : SessionId) (target : TargetId) (attached : t.isAttached id = true) :
    (t.register session target).2.isAttached id = true := by
  simp only [register]
  cases known : t.get? session with
  | some s =>
      dsimp only
      split
      · exact attached
      · exact attached
  | none =>
      obtain ⟨s, found, isOn⟩ := (attached_iff id).mp attached
      apply (attached_iff id).mpr
      exact ⟨s, by simp [ring, List.find?_append, found], isOn⟩

theorem purge_keeps (id : SessionId) (attached : t.isAttached id = true) : t.purge.2.isAttached id = true := by
  obtain ⟨s, found, isOn⟩ := (attached_iff id).mp attached
  have kept : s ∈ t.active := List.mem_filter.mpr ⟨List.mem_of_find?_eq_some found, by simp [isOn]⟩
  have own := List.find?_some found
  apply (attached_iff id).mpr
  cases still : t.purge.2.sessions.find? (·.id == id) with
  | none => exact absurd own (List.find?_eq_none.mp still s kept)
  | some other =>
      have active := (List.mem_filter.mp (List.mem_of_find?_eq_some still)).2
      exact ⟨other, rfl, by simpa using active⟩

theorem lie_down_keeps (id : SessionId) (target : TargetId) : (t.lieDown target).2.isAttached id = t.isAttached id := by
  apply attached_of_sessions
  simp only [lieDown]
  split <;> rfl

theorem get_up_keeps (id : SessionId) (key : Nat) : (t.getUp key).isAttached id = t.isAttached id := by
  apply attached_of_sessions
  simp only [getUp]
  split <;> rfl

theorem scope_ok (session : SessionId) (s : Session) (accepted : t.scope session = .ok s) :
    t.isAttached session = true := by
  simp only [scope] at accepted
  cases known : t.get? session with
  | none =>
      rw [known] at accepted
      cases accepted
  | some found =>
      simp only [known] at accepted
      cases detached : found.detached with
      | true => simp [detached] at accepted
      | false => simp [isAttached, known, detached]

theorem scope_fault (session : SessionId) (fault : Error) (refused : t.scope session = .error fault) :
    fault = .sessionNotFound session := by
  simp only [scope] at refused
  split at refused
  · split at refused <;> cases refused
    rfl
  · cases refused
    rfl

theorem scope_refused (session : SessionId) (unattached : t.isAttached session = false) :
    t.scope session = .error (.sessionNotFound session) := by
  simp only [isAttached] at unattached
  simp only [scope]
  cases known : t.get? session with
  | none => rfl
  | some found =>
      have detached : found.detached = true := by simpa [known] using unattached
      simp [detached]

end

end DevTools.SessionTable
