import DevTools.Proofs.Call.Settlement

set_option autoImplicit false

namespace DevTools

namespace CallTable

-- Of the calls of one id, only the one that was registered last can be in flight.
def Latest (t : CallTable) : Prop :=
  ∀ s ∈ t.slots, ∀ e ∈ t.pending, e.id = s.call.id → s.call.ticket ≤ e.ticket

theorem perform_latest {t : CallTable} (matched : t.Matched) (latest : t.Latest) (deed : CallDeed) :
    (t.perform deed).Latest := by
  intro after member e pending same
  have slot := perform_slot matched deed after member
  rcases (perform_pending_iff matched deed e).mp pending with ⟨old, stays⟩ | new
  · rcases slot with ⟨s, held, call, _⟩ | ⟨_, _, _, session, registers⟩
    · rw [← call] at same ⊢
      exact latest s held e old same
    · simp [registers, CallDeed.fate, same] at stays
  · have ticket := ((added_iff deed e).mp new).2.1
    rcases slot with ⟨s, held, call, _⟩ | ⟨_, _, own, _⟩
    · have bound := matched.below s held
      rw [call] at bound
      omega
    · omega

end CallTable

namespace CallDesk

def givesUp? (d : CallDesk) : CallAct → Option Call
  | .drop call => if d.isFree call then some call else none
  | .move key =>
      ((d.wait? key).filter fun w => (d.table.outcome? w.call).isNone && (w.fault? d.clock).isSome).map (·.call)
  | .abort key => (d.wait? key).map (·.call)
  | _ => none

-- How a call in flight under this id for this session ends by the act: by what names it, because its id is
-- registered again, or because a handle with its id is given up.
def ending (d : CallDesk) (id : UInt64) (session : Option SessionId) (a : CallAct) : Option Outcome :=
  if a.registers? = some id ∨ (d.givesUp? a).map (·.id) = some id then some (.error .connectionClosed)
  else a.verdict id session

section
variable {d : CallDesk}

theorem gives_up_iff (a : CallAct) (call : Call) : d.givesUp? a = some call ↔ d.deed a = some (.abandon call) := by
  cases a with
  | poll other => by_cases free : d.isFree other <;> simp [givesUp?, deed, free]
  | drop other => by_cases free : d.isFree other <;> simp [givesUp?, deed, free]
  | move key =>
      cases found : d.wait? key with
      | none => simp [givesUp?, deed, ends, found]
      | some w =>
          cases settled : d.table.outcome? w.call with
          | some outcome =>
              simp [givesUp?, deed, ends, found, settled, finish_settled w d.clock d.table outcome settled]
          | none =>
              cases gaveUp : w.fault? d.clock <;>
                simp [givesUp?, deed, ends, found, settled, gaveUp, finish_unsettled w d.clock d.table settled]
  | abort key => cases found : d.wait? key <;> simp [givesUp?, deed, ends, found]
  | _ => simp [givesUp?, deed]

theorem fate_is_ending (a : CallAct) (id : UInt64) (session : Option SessionId) :
    d.fate a id session = d.ending id session a := by
  cases gone : d.givesUp? a with
  | some call =>
      have silent : a.registers? = none ∧ a.verdict id session = none := by
        cases a <;> first | exact ⟨rfl, rfl⟩ | cases gone
      by_cases own : call.id = id <;>
        simp [ending, fate, gone, (gives_up_iff a call).mp gone, silent, CallDeed.fate, own, eq_comm]
  | none =>
      cases made : d.deed a with
      | none =>
          have silent : a.registers? = none ∧ a.verdict id session = none := by
            cases a <;> first | exact ⟨rfl, rfl⟩ | cases made
          simp [ending, fate, gone, made, silent]
      | some deed =>
          rcases deed_asked a deed made with asked | ⟨call, rfl⟩ | ⟨call, rfl⟩
          · cases a <;> cases asked <;>
              simp [ending, fate, gone, made, CallDeed.fate, CallAct.registers?, CallAct.verdict, eq_comm]
          · have silent : a.registers? = none ∧ a.verdict id session = none := by
              cases a <;> first | exact ⟨rfl, rfl⟩ | cases made
            simp [ending, fate, gone, made, silent, CallDeed.fate]
          · rw [(gives_up_iff a call).mpr made] at gone
            cases gone

theorem act_latest (orderly : Orderly d) (latest : d.table.Latest) (a : CallAct) : (d.act a).table.Latest := by
  rw [act_table]
  cases d.deed a with
  | none => exact latest
  | some deed => exact CallTable.perform_latest orderly.matched latest deed

theorem run_orderly (acts : List CallAct) (orderly : Orderly d) (latest : d.table.Latest) :
    Orderly (d.run acts) ∧ (d.run acts).table.Latest := by
  induction acts generalizing d with
  | nil => exact ⟨orderly, latest⟩
  | cons a acts ih => exact ih (act_orderly orderly a) (act_latest orderly latest a)

def firstEnding (d : CallDesk) (acts : List CallAct) (id : UInt64) (session : Option SessionId) : Option Outcome :=
  (trace act d acts).findSome? fun (x, a) => x.ending id session a

theorem first_ending_cons (a : CallAct) (acts : List CallAct) (id : UInt64) (session : Option SessionId) :
    d.firstEnding (a :: acts) id session = (d.ending id session a).or ((d.act a).firstEnding acts id session) := by
  cases ends : d.ending id session a <;> simp [firstEnding, trace, ends]

theorem run_fated (acts : List CallAct) (orderly : Orderly d) (call : Call) (session : Option SessionId)
    (outcome : Option Outcome) (follows : Follows d call session outcome) :
    Follows (d.run acts) call session (outcome.or (d.firstEnding acts call.id session)) := by
  induction acts generalizing d outcome with
  | nil => simpa [firstEnding, trace, run] using follows
  | cons a acts ih =>
      have next := ih (act_orderly orderly a) _ (act_fated orderly a call session outcome follows)
      rw [first_ending_cons, ← fate_is_ending, ← Option.or_assoc]
      exact next

theorem follows_outcome (orderly : Orderly d) (call : Call) (session : Option SessionId) (outcome : Option Outcome)
    (follows : Follows d call session outcome) (held : call ∈ d.table.calls) :
    d.table.outcome? call = outcome ∧
      (outcome = none → ∃ e ∈ d.table.pending, e.ticket = call.ticket ∧ e.id = call.id ∧ e.session = session) := by
  obtain ⟨s, member, rfl⟩ := List.mem_map.mp held
  have known := follows.outcome s member rfl
  refine ⟨(CallTable.outcome_of_slot orderly.matched s member).trans known, ?_⟩
  intro unsettled
  obtain ⟨e, pending, ticket, id⟩ := CallTable.matched_slot_entry orderly.matched s member (known.trans unsettled)
  exact ⟨e, pending, ticket, id, (follows.entry e pending ticket).2⟩

-- What an act takes out of the table when it gives a handle up.
structure GivesUp (d after : CallDesk) (call : Call) : Prop where
  by_id : ∀ e, e ∈ after.table.pending ↔ e ∈ d.table.pending ∧ e.id ≠ call.id
  own : d.table.outcome? call = none → ∀ e ∈ d.table.pending, e.id = call.id → e.ticket = call.ticket
  later : d.table.outcome? call ≠ none → ∀ e ∈ d.table.pending, e.id = call.id → call.ticket < e.ticket

theorem gives_up (orderly : Orderly d) (latest : d.table.Latest) (a : CallAct) (call : Call)
    (gone : d.givesUp? a = some call) : GivesUp d (d.act a) call := by
  have made := (gives_up_iff a call).mp gone
  obtain ⟨s, member, rfl⟩ := List.mem_map.mp (abandoned_live orderly a call made)
  have outcome := CallTable.outcome_of_slot orderly.matched s member
  refine ⟨?_, ?_, ?_⟩
  · intro e
    rw [act_table, made, perform, CallTable.perform_pending_iff orderly.matched]
    simp [CallDeed.fate, CallTable.added]
  · intro awaited e pending same
    obtain ⟨mine, present, ticket, id⟩ := CallTable.matched_slot_entry orderly.matched s member (outcome ▸ awaited)
    rw [CallTable.matched_entry_of_id orderly.matched e mine pending present (same.trans id.symm), ticket]
  · intro settled e pending same
    apply Nat.lt_of_le_of_ne (latest s member e pending same)
    intro ticket
    obtain ⟨mine, present, own, _, isOpen⟩ := CallTable.matched_entry_slot orderly.matched e pending
    have unique := CallTable.matched_slot_unique orderly.matched mine s present member (own.trans ticket.symm)
    rw [unique] at isOpen
    exact settled (outcome.trans isOpen)

theorem wait_gives_up (key : Nat) (w : CallWait) (fault : Error) (found : d.wait? key = some w)
    (awaited : d.table.outcome? w.call = none) (gaveUp : w.fault? d.clock = some fault) :
    d.givesUp? (.move key) = some w.call ∧ (d.act (.move key)).finished = d.finished ++ [(key, .error fault)] := by
  have finish := finish_unsettled w d.clock d.table awaited
  rw [gaveUp, Option.map_some] at finish
  constructor
  · simp [givesUp?, found, awaited, gaveUp]
  · simp [act, Desk.move, found, CallWait.kind, stillOr, finish]

-- Ids may be registered any number of times. Who gives a handle up while its call is in flight, as do all
-- waits that are cancelled or run out of time, takes out that call alone; who gives up a handle that was
-- settled and never asked takes out the call that has the id by then. Whatever handle is left has the first
-- of all the endings that its call has come to, and its call is in flight if there is none.
theorem handles_give_up_ids (acts : List CallAct) :
    let d := opened.run acts
    (∀ a call, d.givesUp? a = some call → GivesUp d (d.act a) call) ∧
    (∀ key w fault, d.wait? key = some w → d.table.outcome? w.call = none → w.fault? d.clock = some fault →
      d.givesUp? (.move key) = some w.call ∧ (d.act (.move key)).finished = d.finished ++ [(key, .error fault)]) ∧
    ∀ before id method session after call table, acts = before ++ .register id method session :: after →
      (opened.run before).table.register id method session = .ok (call, table) →
      let verdict := (opened.run (before ++ [.register id method session])).firstEnding after id session
      (call ∈ d.table.calls →
        (d.table.collect call).map (·.1) = verdict ∧
        (verdict = none → ∃ e ∈ d.table.pending, e.ticket = call.ticket ∧ e.id = id ∧ e.session = session)) ∧
      ∀ key w, d.wait? key = some w → w.call = call →
        (w.finish? d.clock d.table).map (·.1) = verdict.or ((w.fault? d.clock).map .error) := by
  intro d
  have start : opened.table.Latest := by simp [CallTable.Latest, opened]
  obtain ⟨orderly, latest⟩ := run_orderly acts opened_orderly start
  refine ⟨fun a call => gives_up orderly latest a call, wait_gives_up, ?_⟩
  rintro before id method session after call table rfl registered verdict
  have earlier := (run_orderly before opened_orderly start).1
  obtain ⟨rfl, begun⟩ := register_follows earlier id method session call table registered
  have follows : Follows d call session verdict := by
    simp only [d, verdict, run_append]
    exact run_fated after (act_orderly earlier _) call session none begun
  refine ⟨?_, ?_⟩
  · intro held
    obtain ⟨outcome, inFlight⟩ := follows_outcome orderly call session verdict follows held
    refine ⟨?_, inFlight⟩
    rw [← outcome, CallTable.collect, Option.map_map]
    cases d.table.outcome? call <;> rfl
  · rintro key w found rfl
    have held := orderly.live (key, w) (Desk.wait_found key w found)
    obtain ⟨outcome, _⟩ := follows_outcome orderly w.call session verdict follows held
    cases ended : verdict with
    | some o =>
        rw [finish_settled w d.clock d.table o (outcome.trans ended)]
        rfl
    | none =>
        rw [finish_unsettled w d.clock d.table (outcome.trans ended), Option.map_map]
        rfl

def reused : List CallAct := [.register 1 "A.a" none, .resolve 1 firstReply, .register 1 "B.b" none]

theorem handles_give_up_ids_reused :
    (opened.run reused).givesUp? (.drop ⟨0, 1, "A.a"⟩) = some ⟨0, 1, "A.a"⟩ ∧
      (∀ e ∈ (opened.run reused).table.pending, e.id = 1 → 0 < e.ticket) ∧
      ((opened.run (reused ++ [.drop ⟨0, 1, "A.a"⟩])).table.collect ⟨1, 1, "B.b"⟩).map (·.1) =
        some (.error .connectionClosed) := by
  have gone : (opened.run reused).givesUp? (.drop ⟨0, 1, "A.a"⟩) = some ⟨0, 1, "A.a"⟩ := by decide
  refine ⟨gone, ?_, ?_⟩
  · exact ((handles_give_up_ids reused).1 _ _ gone).later (by decide +kernel)
  · have known := ((handles_give_up_ids (reused ++ [.drop ⟨0, 1, "A.a"⟩])).2.2 (reused.take 2) 1 "B.b" none
      [.drop ⟨0, 1, "A.a"⟩] ⟨1, 1, "B.b"⟩ _ rfl rfl).1 (by decide +kernel)
    have ends : (opened.run reused).ending 1 none (.drop ⟨0, 1, "A.a"⟩) = some (.error .connectionClosed) :=
      if_pos (Or.inr (by rw [gone]; rfl))
    exact known.1.trans ((first_ending_cons _ _ _ _).trans (by rw [Option.or_eq_some_iff]; exact Or.inl ends))

theorem dropped_handle_unregisters_other :
    let d := opened.run reused
    let after := d.act (.drop ⟨0, 1, "A.a"⟩)
    d.table.pending = [⟨1, 1, none⟩] ∧ after.table.pending = [] ∧ (after.table.resolve 1 firstReply).1 = false := by
  decide

end

end CallDesk

end DevTools
