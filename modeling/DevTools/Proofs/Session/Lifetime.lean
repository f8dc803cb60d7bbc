import DevTools.Proofs.Session.Attachment
import DevTools.Proofs.Trace

set_option autoImplicit false

namespace DevTools.SessionTable

-- Every session is an old one, detached meanwhile perhaps, or a new one that may come.
structure Attaches (t : SessionTable) (may : SessionId → TargetId → Prop) (after : SessionTable) : Prop where
  serials : t.nextSerial ≤ after.nextSerial
  sessions : ∀ s ∈ after.sessions, (∃ old ∈ t.sessions, s = old ∨ s = { old with detached := true }) ∨
    (t.nextSerial ≤ s.serial ∧ s.serial < after.nextSerial ∧ may s.id s.target)
  distinct : (t.sessions.map (·.id)).Nodup → (after.sessions.map (·.id)).Nodup

section
variable {t : SessionTable} {may : SessionId → TargetId → Prop}

theorem attaches_same (after : SessionTable) (sessions : after.sessions = t.sessions)
    (serials : after.nextSerial = t.nextSerial) : t.Attaches may after := by
  refine ⟨Nat.le_of_eq serials.symm, ?_, ?_⟩
  · intro s member
    exact Or.inl ⟨s, sessions ▸ member, Or.inl rfl⟩
  · rw [sessions]
    exact id

theorem attaches_trans {middle after : SessionTable} (first : t.Attaches may middle)
    (second : middle.Attaches may after) :
    t.Attaches may after := by
  refine ⟨Nat.le_trans first.serials second.serials, ?_, fun distinct => second.distinct (first.distinct distinct)⟩
  intro s member
  rcases second.sessions s member with ⟨old, held, same⟩ | ⟨fresh, bound, allowed⟩
  · rcases first.sessions old held with ⟨older, present, was⟩ | ⟨fresh, bound, allowed⟩
    · left
      refine ⟨older, present, ?_⟩
      rcases same with rfl | rfl
      · exact was
      · rcases was with rfl | rfl <;> exact Or.inr rfl
    · right
      have later := second.serials
      rcases same with rfl | rfl
      · exact ⟨fresh, Nat.lt_of_lt_of_le bound later, allowed⟩
      · exact ⟨fresh, Nat.lt_of_lt_of_le bound later, allowed⟩
  · exact Or.inr ⟨Nat.le_trans first.serials fresh, bound, allowed⟩

theorem attaches_mono {after : SessionTable} {more : SessionId → TargetId → Prop} (attaches : t.Attaches may after)
    (weaker : ∀ session target, may session target → more session target) : t.Attaches more after := by
  refine ⟨attaches.serials, ?_, attaches.distinct⟩
  intro s member
  exact (attaches.sessions s member).imp_right fun ⟨fresh, bound, allowed⟩ => ⟨fresh, bound, weaker _ _ allowed⟩

theorem attaches_mark (which : Session → Bool) (sleepers : List Sleeper) :
    t.Attaches may { t.markWhere which with sleepers } := by
  have ids : (t.markWhere which).sessions.map (·.id) = t.sessions.map (·.id) := by
    simp only [markWhere, List.map_map]
    apply List.map_congr_left
    intro s _
    simp only [Function.comp]
    split <;> rfl
  refine ⟨Nat.le_refl _, ?_, by rw [ids]; exact id⟩
  intro s member
  obtain ⟨old, held, rfl⟩ := List.mem_map.mp member
  refine Or.inl ⟨old, held, ?_⟩
  split
  · exact Or.inr rfl
  · exact Or.inl rfl

theorem attaches_purge : t.Attaches may t.purge.2 :=
  ⟨Nat.le_refl _, fun s member => Or.inl ⟨s, (List.mem_filter.mp member).1, Or.inl rfl⟩,
    fun distinct => distinct.sublist (List.filter_sublist.map _)⟩

theorem attaches_register (session : SessionId) (target : TargetId) (allowed : may session target) :
    t.Attaches may (t.register session target).2 := by
  simp only [register]
  cases known : t.get? session with
  | some s =>
      dsimp only
      split <;> exact attaches_same _ rfl rfl
  | none =>
      refine ⟨Nat.le_succ _, ?_, ?_⟩
      · intro s member
        rcases List.mem_append.mp member with old | new
        · exact Or.inl ⟨s, old, Or.inl rfl⟩
        · rw [List.mem_singleton.mp new]
          exact Or.inr ⟨Nat.le_refl _, Nat.lt_succ_self _, allowed⟩
      · intro distinct
        simp only [ring, List.map_append, List.map_cons, List.map_nil]
        rw [← List.concat_eq_append, List.nodup_concat]
        refine ⟨?_, distinct⟩
        intro member
        obtain ⟨s, held, same⟩ := List.mem_map.mp member
        exact List.find?_eq_none.mp known s held (beq_iff_eq.mpr same)

theorem attaches_detach (session : SessionId) : t.Attaches may (t.markDetached session).2 := by
  simp only [markDetached]
  split
  · split
    · exact attaches_same t rfl rfl
    · exact attaches_mark _ t.sleepers
  · exact attaches_same t rfl rfl

theorem attaches_lie_down (target : TargetId) : t.Attaches may (t.lieDown target).2 := by
  simp only [lieDown]
  split <;> exact attaches_same _ rfl rfl

theorem attaches_get_up (key : Nat) : t.Attaches may (t.getUp key) := by
  simp only [getUp]
  split <;> exact attaches_same _ rfl rfl

theorem attaches_active {after : SessionTable} (attaches : t.Attaches may after) (s : Session)
    (member : s ∈ after.active) :
    s ∈ t.active ∨ (t.nextSerial ≤ s.serial ∧ may s.id s.target) := by
  obtain ⟨held, isOn⟩ := List.mem_filter.mp member
  rcases attaches.sessions s held with ⟨old, present, rfl | rfl⟩ | ⟨fresh, _, allowed⟩
  · exact Or.inl (List.mem_filter.mpr ⟨present, isOn⟩)
  · simp at isOn
  · exact Or.inr ⟨fresh, allowed⟩

theorem attached_active (session : SessionId) (attached : t.isAttached session = true) :
    ∃ s ∈ t.active, s.id = session := by
  obtain ⟨s, found, isOn⟩ := (attached_iff session).mp attached
  exact ⟨s, List.mem_filter.mpr ⟨List.mem_of_find?_eq_some found, by simp [isOn]⟩, by simpa using List.find?_some found⟩

theorem active_attached (distinct : (t.sessions.map (·.id)).Nodup) (s : Session) (member : s ∈ t.active) :
    t.isAttached s.id = true := by
  obtain ⟨held, isOn⟩ := List.mem_filter.mp member
  exact (attached_iff s.id).mpr ⟨s, find_keyed Session.id t.sessions distinct s held, by simpa using isOn⟩

theorem detached_iff (session : SessionId) :
    t.isDetached session = true ↔ ∃ s, t.sessions.find? (·.id == session) = some s ∧ s.detached = true := by
  simp [isDetached, get?, Option.any_eq_true]

theorem detached_unattached (session : SessionId) (detached : t.isDetached session = true) :
    t.isAttached session = false := by
  obtain ⟨s, found, off⟩ := (detached_iff session).mp detached
  simp [isAttached, get?, found, off]

theorem mark_detached (which : Session → Bool) (session : SessionId) (detached : t.isDetached session = true) :
    (t.markWhere which).isDetached session = true := by
  obtain ⟨s, found, off⟩ := (detached_iff session).mp detached
  apply (detached_iff session).mpr
  rw [mark_get, found]
  refine ⟨_, rfl, ?_⟩
  dsimp only
  split
  · rfl
  · exact off

theorem register_detached (id session : SessionId) (target : TargetId) (detached : t.isDetached session = true) :
    (t.register id target).2.isDetached session = true := by
  simp only [register]
  cases known : t.get? id with
  | some s =>
      dsimp only
      split <;> exact detached
  | none =>
      obtain ⟨s, found, off⟩ := (detached_iff session).mp detached
      apply (detached_iff session).mpr
      exact ⟨s, by simp [ring, List.find?_append, found], off⟩

theorem detach_detached (id session : SessionId) (detached : t.isDetached session = true) :
    (t.markDetached id).2.isDetached session = true := by
  simp only [markDetached]
  split
  · split
    · exact detached
    · exact mark_detached _ session detached
  · exact detached

theorem lie_down_detached (target : TargetId) (session : SessionId) :
    (t.lieDown target).2.isDetached session = t.isDetached session := by
  simp only [lieDown]
  split <;> rfl

theorem get_up_detached (key : Nat) (session : SessionId) :
    (t.getUp key).isDetached session = t.isDetached session := by
  simp only [getUp]
  split <;> rfl

theorem known_detached (session : SessionId) (s : Session) (known : t.get? session = some s) :
    (t.markDetached session).2.isDetached session = true := by
  simp only [markDetached, known]
  cases off : s.detached with
  | true => simp [isDetached, known, off]
  | false =>
      apply (detached_iff session).mpr
      have own : s.id = session := by simpa using List.find?_some known
      simp only [get?] at known
      simp only [Bool.false_eq_true, if_false]
      rw [mark_get, known]
      exact ⟨{ s with detached := true }, by simp [own], rfl⟩

end

end DevTools.SessionTable
