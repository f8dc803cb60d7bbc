import DevTools.Proofs.Call.Fate

set_option autoImplicit false

namespace DevTools

def fateOf (deeds : List CallDeed) (e : Entry) : Option Outcome := deeds.findSome? fun d => d.fate e

theorem fate_of_deed (deeds : List CallDeed) (e : Entry) (outcome : Outcome) (fate : fateOf deeds e = some outcome) :
    ∃ d ∈ deeds, d.fate e = some outcome :=
  List.exists_of_findSome?_eq_some fate

namespace CallTable

def performs (t : CallTable) (deeds : List CallDeed) : CallTable := deeds.foldl perform t

section
variable {t : CallTable}

theorem performs_append (before after : List CallDeed) :
    t.performs (before ++ after) = (t.performs before).performs after :=
  List.foldl_append

theorem performs_matched (matched : t.Matched) (deeds : List CallDeed) : (t.performs deeds).Matched := by
  induction deeds generalizing t with
  | nil => exact matched
  | cons d deeds ih => exact ih (perform_matched matched d)

theorem performs_ticket_le (deeds : List CallDeed) : t.nextTicket ≤ (t.performs deeds).nextTicket := by
  induction deeds generalizing t with
  | nil => exact Nat.le_refl _
  | cons d deeds ih =>
      have one := perform_next_ticket (t := t) d
      have rest := ih (t := t.perform d)
      simp only [performs, List.foldl_cons] at rest ⊢
      omega

theorem performs_closed (deeds : List CallDeed) (closed : t.closed = true) : (t.performs deeds).closed = true := by
  induction deeds generalizing t with
  | nil => exact closed
  | cons d deeds ih => exact ih (by rw [perform_closed, closed, Bool.true_or])

theorem performs_next_id (deeds : List CallDeed) (none_ : .allocate ∉ deeds) :
    (t.performs deeds).nextId = t.nextId := by
  induction deeds generalizing t with
  | nil => rfl
  | cons d deeds ih =>
      rw [List.mem_cons, not_or] at none_
      exact (ih none_.2).trans (perform_next_id d none_.1)

theorem performs_pending_old (matched : t.Matched) (deeds : List CallDeed) (e : Entry)
    (member : e ∈ (t.performs deeds).pending) (old : e.ticket < t.nextTicket) :
    e ∈ t.pending ∧ fateOf deeds e = none := by
  induction deeds generalizing t with
  | nil => exact ⟨member, rfl⟩
  | cons d deeds ih =>
      have bound := perform_next_ticket (t := t) d
      obtain ⟨present, later⟩ := ih (perform_matched matched d) member (by omega)
      rcases (perform_pending_iff matched d e).mp present with ⟨pending, stays⟩ | added
      · exact ⟨pending, by simp only [fateOf, List.findSome?_cons, stays]; exact later⟩
      · have fresh := ((added_iff d e).mp added).2.1
        omega

theorem performs_stays (matched : t.Matched) (deeds : List CallDeed) (e : Entry) (member : e ∈ t.pending)
    (fate : fateOf deeds e = none) : e ∈ (t.performs deeds).pending := by
  induction deeds generalizing t with
  | nil => exact member
  | cons d deeds ih =>
      simp only [fateOf, List.findSome?_cons] at fate
      cases first : d.fate e with
      | some outcome =>
          rw [first] at fate
          cases fate
      | none =>
          rw [first] at fate
          exact ih (perform_matched matched d) ((perform_pending_iff matched d e).mpr (Or.inl ⟨member, first⟩)) fate

theorem performs_pending_new (matched : t.Matched) (deeds : List CallDeed) (e : Entry)
    (member : e ∈ (t.performs deeds).pending) (fresh : t.nextTicket ≤ e.ticket) :
    ∃ method, .register e.id method e.session ∈ deeds := by
  induction deeds generalizing t with
  | nil =>
      obtain ⟨s, held, ticket, _⟩ := matched_entry_slot matched e member
      have old := matched.below s held
      omega
  | cons d deeds ih =>
      have next := perform_matched matched d
      by_cases later : (t.perform d).nextTicket ≤ e.ticket
      · obtain ⟨method, registers⟩ := ih next member later
        exact ⟨method, List.mem_cons_of_mem d registers⟩
      · obtain ⟨present, _⟩ := performs_pending_old next deeds e member (by omega)
        rcases (perform_pending_iff matched d e).mp present with ⟨pending, _⟩ | added
        · obtain ⟨s, held, ticket, _⟩ := matched_entry_slot matched e pending
          have old := matched.below s held
          omega
        · obtain ⟨_, _, method, registers⟩ := (added_iff d e).mp added
          exact ⟨method, by rw [registers]; exact List.mem_cons_self⟩

theorem performs_slot_old (matched : t.Matched) (deeds : List CallDeed) (after : Slot)
    (member : after ∈ (t.performs deeds).slots) (old : after.call.ticket < t.nextTicket) :
    ∃ s ∈ t.slots, s.call = after.call ∧ (∀ o, s.outcome = some o → after.outcome = some o) ∧
      ∀ e ∈ t.pending, e.ticket = s.call.ticket → after.outcome = fateOf deeds e := by
  induction deeds generalizing t with
  | nil =>
      refine ⟨after, member, rfl, fun _ settled => settled, ?_⟩
      intro e pending ticket
      obtain ⟨own, held, ownTicket, _, isOpen⟩ := matched_entry_slot matched e pending
      rw [← matched_slot_unique matched own after held member (ownTicket.trans ticket), isOpen]
      rfl
  | cons d deeds ih =>
      have bound := perform_next_ticket (t := t) d
      obtain ⟨s, held, same, keeps, fates⟩ := ih (perform_matched matched d) member (by omega)
      rcases perform_slot matched d s held with ⟨first, present, call, kept, fate⟩ | ⟨_, _, ticket, _⟩
      · refine ⟨first, present, call.trans same, fun o settled => keeps o (kept o settled), ?_⟩
        intro e pending mine
        have now := fate e pending mine
        simp only [fateOf, List.findSome?_cons]
        cases taken : d.fate e with
        | some outcome => exact keeps outcome (now.trans taken)
        | none => exact fates e ((perform_pending_iff matched d e).mpr (Or.inl ⟨pending, taken⟩)) (by rw [mine, call])
      · rw [same] at ticket
        omega

theorem performs_slot_new (matched : t.Matched) (deeds : List CallDeed) (after : Slot)
    (member : after ∈ (t.performs deeds).slots) (fresh : t.nextTicket ≤ after.call.ticket) :
    (∃ session, .register after.call.id after.call.method session ∈ deeds) ∧
      ∀ outcome, after.outcome = some outcome → ∃ d ∈ deeds, ∃ e, d.fate e = some outcome := by
  induction deeds generalizing t with
  | nil =>
      have old := matched.below after member
      omega
  | cons d deeds ih =>
      have next := perform_matched matched d
      by_cases later : (t.perform d).nextTicket ≤ after.call.ticket
      · obtain ⟨⟨session, registers⟩, fates⟩ := ih next member later
        refine ⟨⟨session, List.mem_cons_of_mem d registers⟩, ?_⟩
        intro outcome settled
        obtain ⟨other, listed, e, fate⟩ := fates outcome settled
        exact ⟨other, List.mem_cons_of_mem d listed, e, fate⟩
      · obtain ⟨s, held, same, _, fates⟩ := performs_slot_old next deeds after member (by omega)
        rcases perform_slot matched d s held with ⟨first, present, call, _⟩ | ⟨isOpen, _, _, session, registers⟩
        · have old := matched.below first present
          rw [call, same] at old
          omega
        · rw [same] at registers
          refine ⟨⟨session, by rw [registers]; exact List.mem_cons_self⟩, ?_⟩
          intro outcome settled
          obtain ⟨e, pending, ticket, _⟩ := matched_slot_entry next s held isOpen
          have fate := fates e pending ticket
          rw [settled] at fate
          obtain ⟨other, listed, gives⟩ := fate_of_deed deeds e outcome fate.symm
          exact ⟨other, List.mem_cons_of_mem d listed, e, gives⟩

end

end CallTable

end DevTools
