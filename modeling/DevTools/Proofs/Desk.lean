import DevTools.Desk

set_option autoImplicit false

namespace DevTools.Desk

variable {σ ω ρ : Type} {d : Desk σ ω ρ}

theorem wait_found (key : Nat) (w : ω) (found : d.wait? key = some w) : (key, w) ∈ d.waits := by
  obtain ⟨entry, located, rfl⟩ := Option.map_eq_some_iff.mp found
  have same : entry.1 = key := by simpa using List.find?_some located
  rw [← same]
  exact List.mem_of_find?_eq_some located

theorem mem_without (key : Nat) (x : Nat × ω) : x ∈ (d.withoutWait key).waits ↔ x ∈ d.waits ∧ x.1 ≠ key := by
  simp [withoutWait]

def place (d : Desk σ ω ρ) (key : Nat) (w : ω) (table : σ) : Desk σ ω ρ :=
  { d with table, waits := d.waits.map fun old => if old.1 == key then (key, w) else old }

def conclude (d : Desk σ ω ρ) (key : Nat) (result : ρ) (table : σ) : Desk σ ω ρ :=
  { d.withoutWait key with table, finished := d.finished ++ [(key, result)] }

theorem move_place (kind : WaitKind σ ω ρ) (key : Nat) (w next : ω) (table : σ) (found : d.wait? key = some w)
    (goes : kind.move w d.clock d.table = (.inl next, table)) : d.move kind key = d.place key next table := by
  simp only [move, found, goes, place]

theorem move_conclude (kind : WaitKind σ ω ρ) (key : Nat) (w : ω) (result : ρ) (table : σ)
    (found : d.wait? key = some w)
    (ends : kind.move w d.clock d.table = (.inr result, table)) : d.move kind key = d.conclude key result table := by
  simp only [move, found, ends, conclude]

theorem mem_place (key : Nat) (w next : ω) (table : σ) (member : (key, w) ∈ d.waits) (x : Nat × ω) :
    x ∈ (d.place key next table).waits ↔ (x ∈ d.waits ∧ x.1 ≠ key) ∨ x = (key, next) := by
  rw [place, List.mem_map]
  constructor
  · rintro ⟨old, before, rfl⟩
    by_cases own : old.1 = key
    · exact Or.inr (if_pos (beq_iff_eq.mpr own))
    · rw [if_neg (by simpa using own)]
      exact Or.inl ⟨before, own⟩
  · rintro (⟨before, other⟩ | rfl)
    · exact ⟨x, before, if_neg (by simpa using other)⟩
    · exact ⟨(key, w), member, if_pos (beq_self_eq_true key)⟩

theorem place_wait (key : Nat) (w next : ω) (table : σ) (found : d.wait? key = some w) :
    (d.place key next table).wait? key = some next := by
  obtain ⟨entry, located, -⟩ := Option.map_eq_some_iff.mp found
  have same : entry.1 = key := by simpa using List.find?_some located
  have stays : ((fun x : Nat × ω => x.1 == key) ∘ fun old => if old.1 == key then (key, next) else old) = fun x =>
    x.1 == key := by
    funext x
    by_cases own : x.1 = key <;> simp [own]
  rw [wait?, place, List.find?_map, stays, located]
  simp [same]

@[simp] theorem place_place (key : Nat) (w next : ω) (table later : σ) :
    (d.place key w table).place key next later = d.place key next later := by
  simp only [place, List.map_map, mk.injEq, true_and, and_true]
  refine List.map_congr_left fun x _ => ?_
  by_cases own : x.1 = key <;> simp [own]

@[simp] theorem place_conclude (key : Nat) (w : ω) (result : ρ) (table later : σ) :
    (d.place key w table).conclude key result later = d.conclude key result later := by
  simp only [place, conclude, withoutWait, mk.injEq, true_and, and_true]
  rw [List.filter_map]
  have same : ((fun x : Nat × ω => x.1 != key) ∘ fun old => if old.1 == key then (key, w) else old) = fun x =>
    x.1 != key := by
    funext x
    by_cases own : x.1 = key <;> simp [own]
  rw [same]
  refine (List.map_congr_left fun x stays => ?_).trans (List.map_id _)
  have other : x.1 ≠ key := by simpa using (List.mem_filter.mp stays).2
  simp [other]

section
variable (unused : ∀ x ∈ d.waits, x.1 ≠ d.nextWait)
include unused

theorem start_wait (w : ω) : (d.start (.inl w)).2.wait? d.nextWait = some w := by
  have unseen : d.waits.find? (fun x => x.1 == d.nextWait) = none :=
    List.find?_eq_none.mpr fun x member => by simpa using unused x member
  simp [start, wait?, List.find?_append, unseen]

theorem start_place (w next : ω) (table : σ) :
    (d.start (.inl w)).2.place d.nextWait next table = (({ d with table } : Desk σ ω ρ).start (.inl next)).2 := by
  have others : d.waits.map (fun old => if old.1 == d.nextWait then (d.nextWait, next) else old) = d.waits :=
    (List.map_congr_left fun x member => if_neg (by simpa using unused x member)).trans (List.map_id' _)
  simp only [start, place, List.map_append, others]
  simp

theorem start_conclude (w : ω) (result : ρ) (table : σ) :
    (d.start (.inl w)).2.conclude d.nextWait result table =
    (({ d with table } : Desk σ ω ρ).start (.inr result)).2 := by
  have others : d.waits.filter (fun x => x.1 != d.nextWait) = d.waits :=
    List.filter_eq_self.mpr fun x member => by simpa using unused x member
  simp only [start, conclude, withoutWait, List.filter_append, others]
  simp

end

end DevTools.Desk
