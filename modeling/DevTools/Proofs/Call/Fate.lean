import DevTools.Proofs.Call.Table

set_option autoImplicit false

namespace DevTools

namespace CallTable

section
variable {t : CallTable}

def added (t : CallTable) : CallDeed → List Entry
  | .register id _ session => if t.closed then [] else [⟨id, t.nextTicket, session⟩]
  | _ => []

theorem remove_pending (d : CallDeed) (gone : Entry → Bool) (outcome : Outcome)
    (fate : ∀ e, d.fate e = if gone e then some outcome else none) :
    (t.remove gone outcome).pending = t.pending.filter (fun e => (d.fate e).isNone) := by
  apply List.filter_congr
  intro e _
  rw [fate e]
  cases gone e <;> rfl

theorem perform_pending (matched : t.Matched) (d : CallDeed) :
    (t.perform d).pending = t.pending.filter (fun e => (d.fate e).isNone) ++ t.added d := by
  have removed : ∀ (gone : Entry → Bool) (outcome : Outcome),
      (∀ e, d.fate e = if gone e then some outcome else none) → t.added d = [] →
      (t.remove gone outcome).pending = t.pending.filter (fun e => (d.fate e).isNone) ++ t.added d := by
    intro gone outcome fate nothing
    rw [nothing, List.append_nil]
    exact remove_pending d gone outcome fate
  cases d with
  | allocate => simp [perform, allocate, added, CallDeed.fate]
  | register id method session =>
      cases closed : t.closed with
      | true => simp [perform, register_closed closed, added, closed, matched.closed closed]
      | false =>
          simp only [perform, register_open closed, added, closed, Bool.false_eq_true, if_false, cancel]
          rw [remove_pending (.register id method session) (·.id == id) _ (fun e => by simp [CallDeed.fate])]
  | resolve id response => exact removed (·.id == id) _ (fun e => by simp [CallDeed.fate]) rfl
  | cancel id => exact removed (·.id == id) _ (fun e => by simp [CallDeed.fate]) rfl
  | failSession session => exact removed (·.session == some session) _ (fun e => by simp [CallDeed.fate]) rfl
  | failAll => exact removed (fun _ => true) (.error .connectionClosed) (fun e => by simp [CallDeed.fate]) rfl
  | collect call =>
      have kept : (t.perform (.collect call)).pending = t.pending := by
        cases collected : t.collect call with
        | none => simp only [perform, collected]
        | some result =>
            obtain ⟨outcome, _, rfl⟩ := Option.map_eq_some_iff.mp collected
            simp only [perform, collected, release]
      simp [kept, added, CallDeed.fate]
  | abandon call =>
      simp only [perform, abandon_eq]
      exact removed (·.id == call.id) (.error .connectionClosed) (fun e => by simp [CallDeed.fate]) rfl

theorem perform_pending_iff (matched : t.Matched) (d : CallDeed) (e : Entry) :
    e ∈ (t.perform d).pending ↔ (e ∈ t.pending ∧ d.fate e = none) ∨ e ∈ t.added d := by
  rw [perform_pending matched d, List.mem_append, List.mem_filter, Option.isNone_iff_eq_none]

theorem added_iff (d : CallDeed) (e : Entry) :
    e ∈ t.added d ↔ t.closed = false ∧ e.ticket = t.nextTicket ∧
      ∃ method, d = .register e.id method e.session := by
  cases d with
  | register id method session =>
      cases closed : t.closed with
      | true => simp [added, closed]
      | false =>
          simp only [added, closed, Bool.false_eq_true, if_false, List.mem_singleton, true_and]
          constructor
          · rintro rfl
            exact ⟨rfl, method, rfl⟩
          · rintro ⟨ticket, other, same⟩
            cases same
            cases e
            simp_all
  | _ => simp [added]

-- A handle that comes out of a deed was there before, its outcome changed by nothing but the fate of its
-- own entry, or it is the one that the deed has registered.
theorem perform_slot (matched : t.Matched) (d : CallDeed) (after : Slot) (member : after ∈ (t.perform d).slots) :
    (∃ s ∈ t.slots, s.call = after.call ∧ (∀ o, s.outcome = some o → after.outcome = some o) ∧
      ∀ e ∈ t.pending, e.ticket = s.call.ticket → after.outcome = d.fate e) ∨
    (after.outcome = none ∧ t.closed = false ∧ after.call.ticket = t.nextTicket ∧
      ∃ session, d = .register after.call.id after.call.method session) := by
  have stays : ∀ s ∈ t.slots, s.call = after.call → s = after → (∀ e, d.fate e = none) →
      ∃ s ∈ t.slots, s.call = after.call ∧ (∀ o, s.outcome = some o → after.outcome = some o) ∧
        ∀ e ∈ t.pending, e.ticket = s.call.ticket → after.outcome = d.fate e := by
    intro s present call same nothing
    refine ⟨s, present, call, by rw [same]; exact fun _ settled => settled, ?_⟩
    intro e pending ticket
    obtain ⟨own, held, ownTicket, _, isOpen⟩ := matched_entry_slot matched e pending
    have unique := matched_slot_unique matched own s held present (ownTicket.trans ticket)
    rw [nothing e, ← same, ← unique, isOpen]
  have removed : ∀ (gone : Entry → Bool) (outcome : Outcome),
      (∀ e, d.fate e = if gone e then some outcome else none) → after ∈ (t.remove gone outcome).slots →
      ∃ s ∈ t.slots, s.call = after.call ∧ (∀ o, s.outcome = some o → after.outcome = some o) ∧
        ∀ e ∈ t.pending, e.ticket = s.call.ticket → after.outcome = d.fate e := by
    intro gone outcome fate present
    obtain ⟨s, held, call, keeps, settles⟩ := remove_slot matched gone outcome after present
    exact ⟨s, held, call, keeps, fun e pending ticket => by rw [fate e]; exact settles e pending ticket⟩
  cases d with
  | allocate => exact Or.inl (stays after member rfl rfl fun _ => rfl)
  | register id method session =>
      cases closed : t.closed with
      | true =>
          simp only [perform, register_closed closed] at member
          refine Or.inl ⟨after, member, rfl, fun _ settled => settled, ?_⟩
          intro e pending
          simp [matched.closed closed] at pending
      | false =>
          simp only [perform, register_open closed] at member
          rcases List.mem_append.mp member with old | new
          · exact Or.inl (removed (·.id == id) _ (fun e => by simp [CallDeed.fate]) old)
          · right
            rw [List.mem_singleton.mp new]
            exact ⟨rfl, rfl, rfl, session, rfl⟩
  | resolve id response => exact Or.inl (removed (·.id == id) _ (fun e => by simp [CallDeed.fate]) member)
  | cancel id => exact Or.inl (removed (·.id == id) _ (fun e => by simp [CallDeed.fate]) member)
  | failSession session =>
      exact Or.inl (removed (·.session == some session) _ (fun e => by simp [CallDeed.fate]) member)
  | failAll => exact Or.inl (removed (fun _ => true) _ (fun e => by simp [CallDeed.fate]) member)
  | collect call =>
      have present : after ∈ t.slots := by
        cases collected : t.collect call with
        | none => simpa only [perform, collected] using member
        | some result =>
            obtain ⟨outcome, _, rfl⟩ := Option.map_eq_some_iff.mp collected
            simp only [perform, collected] at member
            exact (List.mem_filter.mp member).1
      exact Or.inl (stays after present rfl rfl fun _ => rfl)
  | abandon call =>
      simp only [perform, abandon_eq] at member
      exact Or.inl (removed (·.id == call.id) _ (fun e => by simp [CallDeed.fate]) (List.mem_filter.mp member).1)

theorem perform_next_ticket (d : CallDeed) : (t.perform d).nextTicket = t.nextTicket + (t.added d).length := by
  cases d with
  | register id method session =>
      cases closed : t.closed with
      | true => simp [perform, register_closed closed, added, closed]
      | false => simp [perform, register_open closed, added, closed]
  | collect call =>
      cases collected : t.collect call with
      | none => simp [perform, collected, added]
      | some result =>
          obtain ⟨outcome, _, rfl⟩ := Option.map_eq_some_iff.mp collected
          simp only [perform, collected, release, added, List.length_nil, Nat.add_zero]
  | _ => rfl

theorem next_id (id : UInt64) (room : id.toNat + 1 < UInt64.size) : (id + 1).toNat = id.toNat + 1 := by
  rw [UInt64.toNat_add]
  exact Nat.mod_eq_of_lt room

theorem perform_next_id (d : CallDeed) (other : .allocate ≠ d) : (t.perform d).nextId = t.nextId := by
  cases d with
  | allocate => exact absurd rfl other
  | register id method session =>
      cases closed : t.closed with
      | true => simp only [perform, register_closed closed]
      | false => simp only [perform, register_open closed, cancel, remove]
  | collect call =>
      cases collected : t.collect call with
      | none => simp only [perform, collected]
      | some result =>
          obtain ⟨outcome, _, rfl⟩ := Option.map_eq_some_iff.mp collected
          simp only [perform, collected, release]
  | _ => rfl

theorem perform_closed (d : CallDeed) :
    (t.perform d).closed = (t.closed || match d with | .failAll => true | _ => false) := by
  cases d with
  | register id method session =>
      cases closed : t.closed with
      | true => simp [perform, register_closed closed, closed]
      | false => simp [perform, register_open closed, cancel, remove, closed]
  | collect call =>
      cases collected : t.collect call with
      | none => simp [perform, collected]
      | some result =>
          obtain ⟨outcome, _, rfl⟩ := Option.map_eq_some_iff.mp collected
          simp only [perform, collected, release, Bool.or_false]
  | failAll => simp [perform, failAll]
  | _ => exact (Bool.or_false _).symm

def released (t : CallTable) : CallDeed → Option Call
  | .collect call => if (t.outcome? call).isSome then some call else none
  | .abandon call => some call
  | _ => none

def issued (t : CallTable) : CallDeed → List Call
  | .register id method _ => if t.closed then [] else [⟨t.nextTicket, id, method⟩]
  | _ => []

def calls (t : CallTable) : List Call := t.slots.map (·.call)

theorem remove_calls (gone : Entry → Bool) (outcome : Outcome) : (t.remove gone outcome).calls = t.calls := by
  simp only [calls, remove, List.map_map]
  apply List.map_congr_left
  intro s _
  simp only [Function.comp]
  split <;> rfl

theorem release_calls (call : Call) :
    (t.release call).calls = t.calls.filter (fun other => some call ≠ some other) := by
  simp only [calls, release, List.filter_map]
  congr 1
  apply List.filter_congr
  intro s _
  by_cases own : s.call = call
  · simp [own]
  · simp [own, Ne.symm own]

theorem perform_calls (d : CallDeed) :
    (t.perform d).calls = t.calls.filter (fun call => t.released d ≠ some call) ++ t.issued d := by
  have removed : ∀ (gone : Entry → Bool) (outcome : Outcome), t.released d = none → t.issued d = [] →
      (t.remove gone outcome).calls = t.calls.filter (fun call => t.released d ≠ some call) ++ t.issued d := by
    intro gone outcome keeps nothing
    simp [remove_calls, keeps, nothing]
  cases d with
  | register id method session =>
      cases closed : t.closed with
      | true => simp [perform, register_closed closed, released, issued, closed]
      | false =>
          have same := remove_calls (t := t) (·.id == id) (.error .connectionClosed)
          simp only [calls] at same
          simp [perform, register_open closed, released, issued, closed, calls, cancel, same]
  | collect call =>
      cases outcome : t.outcome? call with
      | none => simp [perform, collect, released, issued, outcome]
      | some o => simpa [perform, collect, released, issued, outcome] using release_calls call
  | abandon call =>
      rw [perform, abandon_eq, release_calls, cancel, remove_calls]
      simp [released, issued]
  | resolve id response => exact removed _ _ rfl rfl
  | cancel id => exact removed _ _ rfl rfl
  | failSession session => exact removed _ _ rfl rfl
  | failAll => exact removed (fun _ => true) (.error .connectionClosed) rfl rfl
  | allocate => simp [perform, allocate, released, issued, calls]

theorem outcome_of_slot (matched : t.Matched) (s : Slot) (member : s ∈ t.slots) : t.outcome? s.call = s.outcome := by
  have found : t.slot? s.call = some s := by
    cases located : t.slot? s.call with
    | none =>
        have missing := List.find?_eq_none.mp located s member
        simp at missing
    | some other =>
        have own : other.call = s.call := by simpa using List.find?_some located
        have listed := List.mem_of_find?_eq_some located
        rw [matched_slot_unique matched other s listed member (by rw [own])]
  simp [outcome?, found]

theorem slot_of_outcome (call : Call) (outcome : Outcome) (settled : t.outcome? call = some outcome) :
    ∃ s ∈ t.slots, s.call = call ∧ s.outcome = some outcome := by
  obtain ⟨s, located, has⟩ := Option.bind_eq_some_iff.mp settled
  exact ⟨s, List.mem_of_find?_eq_some located, by simpa using List.find?_some located, has⟩

theorem perform_count (matched : t.Matched) (d : CallDeed) :
    (t.perform d).pending.length + t.pending.countP (fun e => (d.fate e).isSome) =
      t.pending.length + (t.added d).length := by
  have parts := List.length_eq_countP_add_countP (fun e => (d.fate e).isNone) (l := t.pending)
  simp only [Bool.not_eq_true, Option.isNone_eq_false_iff, Bool.decide_eq_true] at parts
  rw [perform_pending matched d, List.length_append, ← List.countP_eq_length_filter]
  omega

theorem count_of_id (matched : t.Matched) (id : UInt64) :
    t.pending.countP (fun e => e.id == id) = (t.isPending id).toNat := by
  have counted : t.pendingIds.count id = t.pending.countP (fun e => e.id == id) := by
    rw [pendingIds, List.count, List.countP_map]
    rfl
  rw [← counted]
  cases present : t.isPending id with
  | true =>
      simp only [isPending, List.any_eq_true, beq_iff_eq] at present
      exact List.count_eq_one_of_mem matched.ids (List.mem_map.mpr present)
  | false =>
      apply List.count_eq_zero_of_not_mem
      intro member
      obtain ⟨e, pending, same⟩ := List.mem_map.mp member
      simp only [isPending, List.any_eq_false, beq_iff_eq] at present
      exact present e pending same

end

end CallTable

def CallWait.fault? (w : CallWait) (clock : Clock) : Option Error :=
  if clock.hasFired w.cancel then some .cancelled
  else w.limit.bind fun limit => if clock.hasPassed limit then some (.timeout limit.after) else none

theorem finish_settled (w : CallWait) (clock : Clock) (t : CallTable) (outcome : Outcome)
    (settled : t.outcome? w.call = some outcome) :
    w.finish? clock t = some (outcome, t.perform (.collect w.call)) := by
  simp [CallWait.finish?, CallTable.collect, CallTable.perform, settled]

theorem finish_unsettled (w : CallWait) (clock : Clock) (t : CallTable) (unsettled : t.outcome? w.call = none) :
    w.finish? clock t = (w.fault? clock).map fun fault => (.error fault, t.perform (.abandon w.call)) := by
  simp only [CallWait.finish?, CallTable.collect, unsettled, Option.map_none, CallWait.fault?]
  split
  · rfl
  · cases w.limit with
    | none => rfl
    | some limit =>
        dsimp only [Option.bind_some]
        split <;> rfl

end DevTools
