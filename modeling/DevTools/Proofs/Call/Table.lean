import DevTools.Call.Wait
import Mathlib.Data.List.Nodup

set_option autoImplicit false

namespace DevTools

def Entry.key (e : Entry) : Nat × UInt64 := (e.ticket, e.id)

def Slot.key (s : Slot) : Nat × UInt64 := (s.call.ticket, s.call.id)

inductive CallDeed where
  | allocate
  | register (id : UInt64) (method : String) (session : Option SessionId)
  | resolve (id : UInt64) (response : Response)
  | cancel (id : UInt64)
  | failSession (session : SessionId)
  | failAll
  | collect (call : Call)
  | abandon (call : Call)

-- What a deed makes of an entry: the outcome with which it leaves the table, or none if it stays. An
-- id that is registered again or abandoned takes with it whatever is in flight under that id.
def CallDeed.fate (d : CallDeed) (e : Entry) : Option Outcome :=
  match d with
  | .resolve id response => if e.id = id then some (.ok response) else none
  | .cancel id | .register id _ _ => if e.id = id then some (.error .connectionClosed) else none
  | .abandon call => if e.id = call.id then some (.error .connectionClosed) else none
  | .failSession session => if e.session = some session then some (.error (.sessionDetached session)) else none
  | .failAll => some (.error .connectionClosed)
  | .allocate | .collect _ => none

namespace CallTable

def perform (t : CallTable) : CallDeed → CallTable
  | .allocate => t.allocate.2
  | .register id method session =>
      match t.register id method session with
      | .ok (_, t) => t
      | .error _ => t
  | .resolve id response => (t.resolve id response).2
  | .cancel id => (t.cancel id).2
  | .failSession session => (t.failSession session).2
  | .failAll => t.failAll.2
  | .collect call =>
      match t.collect call with
      | some (_, t) => t
      | none => t
  | .abandon call => t.abandon call

def unsettled (t : CallTable) : List Slot := t.slots.filter (·.outcome.isNone)

structure Matched (t : CallTable) : Prop where
  tickets : (t.slots.map (·.call.ticket)).Nodup
  below : ∀ s ∈ t.slots, s.call.ticket < t.nextTicket
  entries : t.pending.map Entry.key = t.unsettled.map Slot.key
  ids : t.pendingIds.Nodup
  closed : t.closed = true → t.pending = []

theorem empty_matched : Matched {} :=
  ⟨List.nodup_nil, by simp, rfl, List.nodup_nil, fun _ => rfl⟩

section
variable {t : CallTable}

theorem matched_entry_slot (matched : t.Matched) (e : Entry) (member : e ∈ t.pending) :
    ∃ s ∈ t.slots, s.call.ticket = e.ticket ∧ s.call.id = e.id ∧ s.outcome = none := by
  have listed : e.key ∈ t.unsettled.map Slot.key := by
    rw [← matched.entries]
    exact List.mem_map_of_mem member
  obtain ⟨s, unsettled, same⟩ := List.mem_map.mp listed
  obtain ⟨held, isOpen⟩ := List.mem_filter.mp unsettled
  simp only [Slot.key, Entry.key, Prod.mk.injEq] at same
  exact ⟨s, held, same.1, same.2, Option.isNone_iff_eq_none.mp isOpen⟩

theorem matched_slot_entry (matched : t.Matched) (s : Slot) (member : s ∈ t.slots) (isOpen : s.outcome = none) :
    ∃ e ∈ t.pending, e.ticket = s.call.ticket ∧ e.id = s.call.id := by
  have listed : s.key ∈ t.pending.map Entry.key := by
    rw [matched.entries]
    exact List.mem_map_of_mem (List.mem_filter.mpr ⟨member, by simp [isOpen]⟩)
  obtain ⟨e, pending, same⟩ := List.mem_map.mp listed
  simp only [Slot.key, Entry.key, Prod.mk.injEq] at same
  exact ⟨e, pending, same.1, same.2⟩

theorem matched_pending_tickets (matched : t.Matched) : (t.pending.map (·.ticket)).Nodup := by
  have same : t.pending.map (·.ticket) = t.unsettled.map (·.call.ticket) := by
    have tickets := congrArg (List.map Prod.fst) matched.entries
    rw [List.map_map, List.map_map] at tickets
    exact tickets
  rw [same]
  exact matched.tickets.sublist (List.filter_sublist.map _)

theorem matched_slot_unique (matched : t.Matched) (a b : Slot) (left : a ∈ t.slots) (right : b ∈ t.slots)
    (same : a.call.ticket = b.call.ticket) : a = b :=
  List.inj_on_of_nodup_map matched.tickets left right same

theorem matched_entry_unique (matched : t.Matched) (a b : Entry) (left : a ∈ t.pending) (right : b ∈ t.pending)
    (same : a.ticket = b.ticket) : a = b :=
  List.inj_on_of_nodup_map (matched_pending_tickets matched) left right same

theorem matched_entry_of_id (matched : t.Matched) (a b : Entry) (left : a ∈ t.pending) (right : b ∈ t.pending)
    (same : a.id = b.id) : a = b :=
  List.inj_on_of_nodup_map matched.ids left right same

theorem gone_ticket_iff (matched : t.Matched) (gone : Entry → Bool) (e : Entry) (member : e ∈ t.pending) :
    ((t.pending.filter gone).map (·.ticket)).contains e.ticket = gone e := by
  apply Bool.eq_iff_iff.mpr
  rw [List.contains_iff_mem, List.mem_map]
  constructor
  · rintro ⟨other, present, same⟩
    obtain ⟨pending, goes⟩ := List.mem_filter.mp present
    rw [← matched_entry_unique matched other e pending member same]
    exact goes
  · intro goes
    exact ⟨e, List.mem_filter.mpr ⟨member, goes⟩, rfl⟩

theorem remove_unsettled (gone : Entry → Bool) (outcome : Outcome) :
    (t.remove gone outcome).unsettled.map Slot.key =
      (t.unsettled.map Slot.key).filter
        (fun key => !((t.pending.filter gone).map (·.ticket)).contains key.1) := by
  simp only [unsettled, remove, List.filter_map, List.map_map, List.filter_filter]
  generalize (t.pending.filter gone).map (·.ticket) = tickets
  induction t.slots with
  | nil => rfl
  | cons s slots ih =>
      cases open_ : s.outcome <;> by_cases goes : s.call.ticket ∈ tickets <;>
        simp_all [Slot.key, Slot.settle]

theorem remove_matched (matched : t.Matched) (gone : Entry → Bool) (outcome : Outcome) :
    (t.remove gone outcome).Matched := by
  refine ⟨?_, ?_, ?_, ?_, ?_⟩
  · have same : (t.remove gone outcome).slots.map (·.call.ticket) = t.slots.map (·.call.ticket) := by
      simp only [remove, List.map_map]
      apply List.map_congr_left
      intro s _
      simp only [Function.comp]
      split <;> rfl
    rw [same]
    exact matched.tickets
  · intro s member
    obtain ⟨old, present, rfl⟩ := List.mem_map.mp member
    have bound := matched.below old present
    split <;> exact bound
  · rw [remove_unsettled, ← matched.entries, List.filter_map]
    apply congrArg
    apply List.filter_congr
    intro e member
    simp only [Function.comp, Entry.key, gone_ticket_iff matched gone e member]
  · exact matched.ids.sublist (List.filter_sublist.map _)
  · intro closed
    simp [remove, matched.closed closed]

theorem remove_slot (matched : t.Matched) (gone : Entry → Bool) (outcome : Outcome) (after : Slot)
    (member : after ∈ (t.remove gone outcome).slots) :
    ∃ s ∈ t.slots, s.call = after.call ∧ (∀ o, s.outcome = some o → after.outcome = some o) ∧
      ∀ e ∈ t.pending, e.ticket = s.call.ticket → after.outcome = if gone e then some outcome else none := by
  obtain ⟨s, present, rfl⟩ := List.mem_map.mp member
  refine ⟨s, present, by split <;> rfl, ?_, ?_⟩
  · intro o settled
    split <;> simp [Slot.settle, settled]
  · intro e pending same
    obtain ⟨held, heldMember, ticket, _, isOpen⟩ := matched_entry_slot matched e pending
    have own : held = s := matched_slot_unique matched held s heldMember present (ticket.trans same)
    subst own
    rw [← same, gone_ticket_iff matched gone e pending]
    cases gone e <;> simp [Slot.settle, isOpen]

theorem remove_slot_mem (matched : t.Matched) (gone : Entry → Bool) (outcome : Outcome) (s : Slot)
    (member : s ∈ t.slots)
    (e : Entry) (pending : e ∈ t.pending) (own : e.ticket = s.call.ticket) :
    (if gone e then s.settle outcome else s) ∈ (t.remove gone outcome).slots := by
  have moved := List.mem_map_of_mem (f := fun s : Slot =>
    if ((t.pending.filter gone).map (·.ticket)).contains s.call.ticket then s.settle outcome else s) member
  simp only [← own, gone_ticket_iff matched gone e pending] at moved
  exact moved

theorem remove_nothing (gone : Entry → Bool) (outcome : Outcome) (stays : ∀ e ∈ t.pending, gone e = false) :
    t.remove gone outcome = t := by
  have nobody : t.pending.filter gone = [] := List.filter_eq_nil_iff.mpr fun e member => by simp [stays e member]
  have everyone : t.pending.filter (fun e => !gone e) = t.pending :=
    List.filter_eq_self.mpr fun e member => by simp [stays e member]
  simp [remove, nobody, everyone]

theorem release_matched (matched : t.Matched) (call : Call)
    (settled : ∀ s ∈ t.slots, s.call = call → s.outcome ≠ none) : (t.release call).Matched := by
  have same : (t.release call).unsettled = t.unsettled := by
    simp only [unsettled, release, List.filter_filter]
    apply List.filter_congr
    intro s member
    by_cases own : s.call = call
    · have some_ := settled s member own
      cases outcome : s.outcome <;> simp_all
    · simp [own]
  refine ⟨?_, ?_, ?_, matched.ids, matched.closed⟩
  · exact matched.tickets.sublist (List.filter_sublist.map _)
  · intro s member
    exact matched.below s (List.mem_filter.mp member).1
  · rw [same]
    exact matched.entries

-- Whether a handle is let go before or after its id leaves the table makes no difference. In this order
-- every step leaves the table matched.
theorem abandon_eq (call : Call) : t.abandon call = ((t.cancel call.id).2).release call := by
  simp only [abandon, cancel, release, remove, List.filter_map]
  congr 2
  apply List.filter_congr
  intro s _
  simp only [Function.comp]
  split <;> rfl

theorem cancel_settles (matched : t.Matched) (id : UInt64) (s : Slot) (member : s ∈ (t.cancel id).2.slots)
    (same : s.call.id = id) : s.outcome ≠ none := by
  intro isOpen
  obtain ⟨e, pending, _, sameId⟩ := matched_slot_entry (remove_matched matched _ _) s member isOpen
  have stays := (List.mem_filter.mp pending).2
  simp [sameId, same] at stays

theorem abandon_matched (matched : t.Matched) (call : Call) : (t.abandon call).Matched := by
  rw [abandon_eq]
  apply release_matched (remove_matched matched _ _)
  intro s member own
  exact cancel_settles matched call.id s member (by rw [own])

theorem collect_matched (matched : t.Matched) (call : Call) (outcome : Outcome) (after : CallTable)
    (collected : t.collect call = some (outcome, after)) : after.Matched := by
  obtain ⟨found, settled, result⟩ := Option.map_eq_some_iff.mp collected
  cases result
  apply release_matched matched
  intro s member own none_
  obtain ⟨slot, located, has⟩ := Option.bind_eq_some_iff.mp settled
  have slotOwn : slot.call = call := by simpa using List.find?_some located
  have unique := matched_slot_unique matched s slot member (List.mem_of_find?_eq_some located) (by rw [own, slotOwn])
  rw [← unique, none_] at has
  cases has

theorem register_open (isOpen : t.closed = false) (id : UInt64) (method : String) (session : Option SessionId) :
    t.register id method session = .ok (⟨t.nextTicket, id, method⟩,
      { (t.cancel id).2 with
        nextTicket := t.nextTicket + 1
        pending := (t.cancel id).2.pending ++ [⟨id, t.nextTicket, session⟩]
        slots := (t.cancel id).2.slots ++ [⟨⟨t.nextTicket, id, method⟩, none⟩] }) := by
  simp only [register, isOpen]
  rfl

theorem register_closed (closed : t.closed = true) (id : UInt64) (method : String) (session : Option SessionId) :
    t.register id method session = .error .connectionClosed := by
  simp [register, closed]

theorem register_ok (id : UInt64) (method : String) (session : Option SessionId) (result : Call × CallTable)
    (registered : t.register id method session = .ok result) :
    t.closed = false ∧ result = (⟨t.nextTicket, id, method⟩,
      { (t.cancel id).2 with
        nextTicket := t.nextTicket + 1
        pending := (t.cancel id).2.pending ++ [⟨id, t.nextTicket, session⟩]
        slots := (t.cancel id).2.slots ++ [⟨⟨t.nextTicket, id, method⟩, none⟩] }) := by
  cases closed : t.closed with
  | true => simp [register_closed closed] at registered
  | false =>
      rw [register_open closed] at registered
      cases registered
      exact ⟨rfl, rfl⟩

theorem register_matched (matched : t.Matched) (id : UInt64) (method : String) (session : Option SessionId)
    (call : Call) (after : CallTable) (registered : t.register id method session = .ok (call, after)) :
    after.Matched := by
  obtain ⟨isOpen, same⟩ := register_ok _ _ _ _ registered
  cases same
  have cancelled : (t.cancel id).2.Matched := remove_matched matched _ _
  refine ⟨?_, ?_, ?_, ?_, ?_⟩
  · simp only [List.map_append, List.map_cons, List.map_nil]
    apply List.nodup_append.mpr
    refine ⟨cancelled.tickets, by simp, ?_⟩
    intro a old b new
    obtain ⟨s, member, rfl⟩ := List.mem_map.mp old
    have bound : s.call.ticket < t.nextTicket := cancelled.below s member
    simp only [List.mem_singleton] at new
    omega
  · intro s member
    rcases List.mem_append.mp member with old | new
    · exact Nat.lt_succ_of_lt (cancelled.below s old)
    · rw [List.mem_singleton.mp new]
      exact Nat.lt_succ_self _
  · simp only [unsettled, List.map_append, List.filter_append]
    have entries := cancelled.entries
    simp only [unsettled] at entries
    rw [entries]
    rfl
  · simp only [pendingIds, List.map_append, List.map_cons, List.map_nil]
    apply List.nodup_append.mpr
    refine ⟨cancelled.ids, by simp, ?_⟩
    intro a old b new
    obtain ⟨e, member, rfl⟩ := List.mem_map.mp old
    have other := (List.mem_filter.mp member).2
    simp only [List.mem_singleton] at new
    simpa [new] using other
  · intro nowClosed
    have stillOpen : (t.cancel id).2.closed = false := isOpen
    simp [stillOpen] at nowClosed

theorem perform_matched (matched : t.Matched) (d : CallDeed) : (t.perform d).Matched := by
  cases d with
  | allocate => exact ⟨matched.tickets, matched.below, matched.entries, matched.ids, matched.closed⟩
  | register id method session =>
      cases registered : t.register id method session with
      | error fault => simpa only [perform, registered] using matched
      | ok result => simpa only [perform, registered] using register_matched matched _ _ _ _ _ registered
  | resolve id response => exact remove_matched matched _ _
  | cancel id => exact remove_matched matched _ _
  | failSession session => exact remove_matched matched _ _
  | failAll =>
      have removed := remove_matched matched (fun _ => true) (.error .connectionClosed)
      exact ⟨removed.tickets, removed.below, removed.entries, removed.ids, fun _ => by simp [perform, failAll, remove]⟩
  | collect call =>
      cases collected : t.collect call with
      | none => simpa only [perform, collected] using matched
      | some result => simpa only [perform, collected] using collect_matched matched _ _ _ collected
  | abandon call => exact abandon_matched matched call

end

end CallTable

end DevTools
