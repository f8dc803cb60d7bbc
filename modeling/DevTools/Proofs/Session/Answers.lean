import DevTools.Proofs.Session.Standing

set_option autoImplicit false

namespace DevTools

namespace SessionTable

def Number (which : SessionId → Prop) (n : Nat) : Prop :=
  ∃ ids : List SessionId, ids.Nodup ∧ ids.length = n ∧ ∀ id, id ∈ ids ↔ which id

def Moves (t : SessionTable) (d : SessionDeed) (id : SessionId) : Prop := (t.perform d).standing id ≠ t.standing id

-- What the table says of an id goes by its standing, and every session that it names is the one it holds.
structure Candid (t : SessionTable) : Prop where
  held : ∀ id s, t.get? id = some s → s.id = id ∧ t.standing id = s.standing
  scope : ∀ id, (∀ target, t.standing id = .attached target → ∃ s, t.scope id = .ok s ∧ t.get? id = some s) ∧
    ((∀ target, t.standing id ≠ .attached target) → t.scope id = .error (.sessionNotFound id))
  detached : ∀ id, t.isDetached id = true ↔ ∃ target, t.standing id = .detached target
  active : ∀ s, s ∈ t.active ↔ t.get? s.id = some s ∧ t.standing s.id = .attached s.target
  once : (t.active.map (·.id)).Nodup
  length : Number (fun id => t.standing id ≠ .unknown) t.length
  markDetached : ∀ id s, (t.markDetached id).1 = some s ↔
    ∃ held, t.get? id = some held ∧ t.standing id = .attached held.target ∧ s = { held with detached := true }
  detachAll : Number (t.Moves .detachAll) t.detachAll.1
  purge : Number (t.Moves .purge) t.purge.1

section
variable {t : SessionTable}

theorem standing_known (id : SessionId) (s : Session) (found : t.get? id = some s) : t.standing id = s.standing := by
  rw [standing, found, Option.elim_some]

theorem standing_unknown (id : SessionId) : t.standing id = .unknown ↔ t.get? id = none := by
  cases found : t.get? id with
  | none => simp [standing, found]
  | some s =>
      rw [standing_known id s found, Session.standing]
      split <;> simp

theorem standing_attached (id : SessionId) (target : TargetId) :
    t.standing id = .attached target ↔ ∃ s, t.get? id = some s ∧ s.detached = false ∧ s.target = target := by
  cases found : t.get? id with
  | none => simp [standing, found]
  | some s =>
      rw [standing_known id s found, Session.standing]
      cases off : s.detached <;> simp [off]

theorem standing_detached (id : SessionId) (target : TargetId) :
    t.standing id = .detached target ↔ ∃ s, t.get? id = some s ∧ s.detached = true ∧ s.target = target := by
  cases found : t.get? id with
  | none => simp [standing, found]
  | some s =>
      rw [standing_known id s found, Session.standing]
      cases off : s.detached <;> simp [off]

theorem number_filter (tidy : t.Tidy) (picks : Session → Bool) :
    Number (fun id => ∃ s, t.get? id = some s ∧ picks s = true) (t.sessions.filter picks).length := by
  refine ⟨(t.sessions.filter picks).map (·.id), tidy.ids.sublist (List.filter_sublist.map _), List.length_map _, ?_⟩
  intro id
  constructor
  · intro member
    obtain ⟨s, picked, rfl⟩ := List.mem_map.mp member
    obtain ⟨held, fits⟩ := List.mem_filter.mp picked
    exact ⟨s, get_of_mem tidy s held, fits⟩
  · rintro ⟨s, found, fits⟩
    obtain ⟨held, own⟩ := get_mem id s found
    exact List.mem_map.mpr ⟨s, List.mem_filter.mpr ⟨held, fits⟩, own⟩

theorem number_congr {which others : SessionId → Prop} {n : Nat} (number : Number which n)
    (same : ∀ id, which id ↔ others id) :
    Number others n := by
  obtain ⟨ids, distinct, length, listed⟩ := number
  exact ⟨ids, distinct, length, fun id => (listed id).trans (same id)⟩

theorem moves_detach (tidy : t.Tidy) (id : SessionId) :
    (∃ s, t.get? id = some s ∧ (!s.detached) = true) ↔ t.Moves .detachAll id := by
  rw [Moves, perform_standing tidy, Standing.next]
  cases found : t.get? id with
  | none => simp [standing, found, Standing.detach]
  | some s =>
      rw [standing_known id s found, Session.standing]
      cases off : s.detached <;> simp [off, Standing.detach]

theorem moves_purge (tidy : t.Tidy) (id : SessionId) :
    (∃ s, t.get? id = some s ∧ s.detached = true) ↔ t.Moves .purge id := by
  rw [Moves, perform_standing tidy, Standing.next]
  cases found : t.get? id with
  | none => simp [standing, found, Standing.forget]
  | some s =>
      rw [standing_known id s found, Session.standing]
      cases off : s.detached <;> simp [off, Standing.forget]

theorem mark_gives (id : SessionId) (s : Session) :
    (t.markDetached id).1 = some s ↔ ∃ held, t.get? id = some held ∧ held.detached = false ∧
      s = { held with detached := true } := by
  simp only [markDetached]
  cases found : t.get? id with
  | none => simp
  | some held =>
      simp only [Option.some.injEq, exists_eq_left']
      by_cases off : held.detached = true
      · simp [off]
      · simpa [off] using eq_comm

theorem tidy_candid (tidy : t.Tidy) : t.Candid where
  held id s found := ⟨(get_mem id s found).2, standing_known id s found⟩
  scope id := by
    constructor
    · intro target attached
      obtain ⟨s, found, isOn, -⟩ := (standing_attached id target).mp attached
      exact ⟨s, by simp [scope, found, isOn], found⟩
    · intro unattached
      cases found : t.get? id with
      | none => simp [scope, found]
      | some s =>
          cases off : s.detached with
          | true => simp [scope, found, off]
          | false => exact absurd ((standing_attached id s.target).mpr ⟨s, found, off, rfl⟩) (unattached s.target)
  detached id := by
    simp only [isDetached, Option.any_eq_true, standing_detached]
    constructor
    · rintro ⟨s, found, off⟩
      exact ⟨s.target, s, found, off, rfl⟩
    · rintro ⟨target, s, found, off, -⟩
      exact ⟨s, found, off⟩
  active s := by
    rw [active, List.mem_filter, standing_attached]
    constructor
    · rintro ⟨held, isOn⟩
      have found := get_of_mem tidy s held
      exact ⟨found, s, found, by simpa using isOn, rfl⟩
    · rintro ⟨found, same, again, isOn, -⟩
      rw [found] at again
      cases again
      exact ⟨(get_mem s.id s found).1, by simp [isOn]⟩
  once := tidy.ids.sublist (List.filter_sublist.map _)
  length := by
    have all : Number (fun id => t.standing id ≠ .unknown) (t.sessions.filter fun _ => true).length :=
      number_congr (number_filter tidy fun _ => true) fun id => by
        rw [ne_eq, standing_unknown, ← ne_eq, Option.ne_none_iff_exists']
        simp
    rwa [List.filter_eq_self.mpr fun _ _ => rfl] at all
  markDetached id s := by
    rw [mark_gives]
    constructor
    · rintro ⟨held, found, isOn, marked⟩
      exact ⟨held, found, (standing_attached id held.target).mpr ⟨held, found, isOn, rfl⟩, marked⟩
    · rintro ⟨held, found, attached, marked⟩
      obtain ⟨same, again, isOn, -⟩ := (standing_attached id held.target).mp attached
      rw [found] at again
      cases again
      exact ⟨held, found, isOn, marked⟩
  detachAll := number_congr (number_filter tidy fun s => !s.detached) (moves_detach tidy)
  purge := number_congr (number_filter tidy fun s => s.detached) (moves_purge tidy)

end

end SessionTable

end DevTools
