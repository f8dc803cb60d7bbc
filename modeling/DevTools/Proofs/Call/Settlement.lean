import DevTools.Proofs.Call.Run

set_option autoImplicit false

namespace DevTools.CallDesk

def registers (acts : List CallAct) : List UInt64 := acts.filterMap CallAct.registers?

theorem registers_cons (a : CallAct) (acts : List CallAct) :
    registers (a :: acts) = a.registers?.toList ++ registers acts := by
  simp only [registers, List.filterMap_cons]
  cases a.registers? <;> rfl

def allocated (d : CallDesk) (acts : List CallAct) : List UInt64 :=
  (trace act d acts).filterMap fun
    | (x, .allocate) => some x.table.allocate.1
    | _ => none

theorem allocated_increasing (d : CallDesk) (acts : List CallAct)
    (bounded : d.table.nextId.toNat + (d.allocated acts).length < UInt64.size) :
    (d.allocated acts).Pairwise (fun one other => one.toNat < other.toNat) ∧
      ∀ id ∈ d.allocated acts, d.table.nextId.toNat ≤ id.toNat := by
  induction acts generalizing d with
  | nil => exact ⟨List.Pairwise.nil, by simp [allocated, trace]⟩
  | cons a acts ih =>
      have rest := ih (d.act a)
      by_cases allocates : a = .allocate
      · subst allocates
        have split : d.allocated (.allocate :: acts) = d.table.nextId :: (d.act .allocate).allocated acts := rfl
        rw [split, List.length_cons] at bounded
        have next : (d.act .allocate).table.nextId.toNat = d.table.nextId.toNat + 1 :=
          CallTable.next_id d.table.nextId (by omega)
        obtain ⟨increasing, later⟩ := rest (by omega)
        rw [split, List.pairwise_cons, List.forall_mem_cons]
        have above : ∀ id ∈ (d.act .allocate).allocated acts, d.table.nextId.toNat < id.toNat := by
          intro id member
          have bound := later id member
          omega
        exact ⟨⟨above, increasing⟩, Nat.le_refl _, fun id member => Nat.le_of_lt (above id member)⟩
      · have split : d.allocated (a :: acts) = (d.act a).allocated acts := by
          cases a with
          | allocate => exact absurd rfl allocates
          | _ => rfl
        have same : (d.act a).table.nextId = d.table.nextId := by
          rw [act_table]
          cases made : d.deed a with
          | none => rfl
          | some deed =>
              apply CallTable.perform_next_id deed
              rintro rfl
              exact allocates (deed_allocate a made)
        rw [split, ← same] at bounded ⊢
        exact rest bounded

theorem registers_distinct (acts : List CallAct) (own : (registers acts).Subperm (opened.allocated acts))
    (bounded : (opened.allocated acts).length < UInt64.size - 1) : (registers acts).Nodup := by
  have first : opened.table.nextId.toNat = 1 := rfl
  obtain ⟨increasing, _⟩ := allocated_increasing opened acts (by omega)
  have distinct : (opened.allocated acts).Nodup := by
    refine increasing.imp ?_
    rintro one other less rfl
    exact Nat.lt_irrefl _ less
  obtain ⟨some_, same, among⟩ := own
  exact same.nodup_iff.mp (distinct.sublist among)

section
variable {d : CallDesk} {used : List UInt64}

theorem fresh_head (a : CallAct) (acts : List CallAct) (distinct : (used ++ registers (a :: acts)).Nodup) :
    (∀ id, a.registers? = some id → id ∉ used) ∧ ((used ++ a.registers?.toList) ++ registers acts).Nodup := by
  rw [registers_cons, ← List.append_assoc] at distinct
  refine ⟨?_, distinct⟩
  intro id registered member
  have parts := (List.nodup_append.mp distinct).1
  rw [registered] at parts
  exact (List.nodup_append.mp parts).2.2 id member id (by simp) rfl

theorem run_sound (acts : List CallAct) (sound : Sound used d) (distinct : (used ++ registers acts).Nodup) :
    Sound (used ++ registers acts) (d.run acts) := by
  induction acts generalizing d used with
  | nil => simpa [registers, run] using sound
  | cons a acts ih =>
      obtain ⟨fresh, rest⟩ := fresh_head a acts distinct
      have after := ih (act_sound sound a fresh) rest
      rw [registers_cons, ← List.append_assoc]
      exact after

theorem run_follows (acts : List CallAct) (sound : Sound used d) (distinct : (used ++ registers acts).Nodup)
    (call : Call) (session : Option SessionId) (outcome : Option Outcome) (follows : Follows d call session outcome) :
    Follows (d.run acts) call session (outcome.or (acts.findSome? (·.verdict call.id session))) := by
  induction acts generalizing d used outcome with
  | nil => simpa [run] using follows
  | cons a acts ih =>
      obtain ⟨fresh, rest⟩ := fresh_head a acts distinct
      have next := ih (act_sound sound a fresh) rest _ (act_follows sound a fresh call session outcome follows)
      have split : outcome.or ((a :: acts).findSome? (·.verdict call.id session)) =
          (outcome.or (a.verdict call.id session)).or (acts.findSome? (·.verdict call.id session)) := by
        rw [Option.or_assoc, List.findSome?_cons]
        cases a.verdict call.id session <;> rfl
      rw [split]
      exact next

theorem act_pending (sound : Sound used d) (a : CallAct) (id : UInt64) (pending : id ∈ (d.act a).table.pendingIds) :
    id ∈ d.table.pendingIds ∨ a.registers? = some id := by
  obtain ⟨e, member, rfl⟩ := List.mem_map.mp pending
  rw [act_table] at member
  cases made : d.deed a with
  | none =>
      rw [made] at member
      exact Or.inl (List.mem_map_of_mem member)
  | some deed =>
      rw [made] at member
      rcases (CallTable.perform_pending_iff sound.matched deed e).mp member with ⟨old, _⟩ | new
      · exact Or.inl (List.mem_map_of_mem old)
      · obtain ⟨_, _, method, same⟩ := (CallTable.added_iff deed e).mp new
        subst same
        rw [deed_register a _ _ _ made]
        exact Or.inr rfl

theorem pending_used (sound : Sound used d) (id : UInt64) (pending : id ∈ d.table.pendingIds) : id ∈ used := by
  obtain ⟨e, member, rfl⟩ := List.mem_map.mp pending
  obtain ⟨call, held, _, same⟩ := entry_call sound.toOrderly e member
  rw [← same]
  exact sound.used call held

theorem departs_iff (a : CallAct) (id : UInt64) :
    id ∈ d.departs a ↔ id ∈ d.table.pendingIds ∧ id ∉ (d.act a).table.pendingIds := by
  simp [departs, CallTable.isPending, CallTable.pendingIds, List.mem_filter]

-- An id that has left cannot come back, as it would have to be registered again.
theorem departures_once (acts : List CallAct) (sound : Sound used d) (distinct : (used ++ registers acts).Nodup) :
    (d.departures acts).Nodup ∧ ∀ id ∈ d.departures acts, id ∈ d.table.pendingIds ∨ id ∈ registers acts := by
  induction acts generalizing d used with
  | nil => exact ⟨List.nodup_nil, by simp [departures, trace]⟩
  | cons a acts ih =>
      obtain ⟨fresh, rest⟩ := fresh_head a acts distinct
      obtain ⟨once, origin⟩ := ih (act_sound sound a fresh) rest
      have split : d.departures (a :: acts) = d.departs a ++ (d.act a).departures acts := by
        simp [departures, trace]
      rw [split, registers_cons]
      refine ⟨List.nodup_append.mpr ⟨sound.matched.ids.sublist List.filter_sublist, once, ?_⟩, ?_⟩
      · rintro id gone other later rfl
        obtain ⟨before, after⟩ := (departs_iff a id).mp gone
        rcases origin id later with still | again
        · exact after still
        · have known := List.mem_append_left a.registers?.toList (pending_used sound id before)
          exact (List.nodup_append.mp rest).2.2 id known id again rfl
      · intro id member
        rcases List.mem_append.mp member with gone | later
        · exact Or.inl ((departs_iff a id).mp gone).1
        · rcases origin id later with still | again
          · rcases act_pending sound a id still with before | new
            · exact Or.inl before
            · exact Or.inr (List.mem_append_left _ (by simp [new]))
          · exact Or.inr (List.mem_append_right _ again)

theorem awaited_pending (sound : Sound used d) (call : Call) (held : call ∈ d.table.calls) :
    d.table.isPending call.id = d.isAwaited call := by
  apply Bool.eq_iff_iff.mpr
  simp only [CallTable.isPending, isAwaited, List.any_eq_true, Bool.and_eq_true, beq_iff_eq, Option.isNone_iff_eq_none]
  constructor
  · rintro ⟨e, pending, same⟩
    obtain ⟨s, member, _, id, isOpen⟩ := CallTable.matched_entry_slot sound.matched e pending
    have own := call_unique sound s.call call (List.mem_map_of_mem member) held (id.trans same)
    exact ⟨s, member, own, isOpen⟩
  · rintro ⟨s, member, rfl, isOpen⟩
    obtain ⟨e, pending, _, id⟩ := CallTable.matched_slot_entry sound.matched s member isOpen
    exact ⟨e, pending, id⟩

theorem settle_balance (sound : Sound used d) (deed : CallDeed) (id : UInt64)
    (fate : ∀ e, (deed.fate e).isSome = (e.id == id))
    (nothing : d.table.added deed = []) :
    (d.table.perform deed).pending.length + (d.table.isPending id).toNat = d.table.pending.length := by
  have counted := CallTable.perform_count sound.matched deed
  simp only [fate, nothing, CallTable.count_of_id sound.matched id] at counted
  simpa using counted

theorem abandon_balance (sound : Sound used d) (call : Call) (held : call ∈ d.table.calls) :
    (d.table.perform (.abandon call)).pending.length + (d.isAwaited call).toNat = d.table.pending.length := by
  rw [← awaited_pending sound call held]
  apply settle_balance sound (.abandon call) call.id _ rfl
  intro e
  by_cases own : e.id = call.id <;> simp [CallDeed.fate, own]

theorem settled_not_awaited (sound : Sound used d) (call : Call) (outcome : Outcome)
    (settled : d.table.outcome? call = some outcome) : d.isAwaited call = false := by
  simp only [isAwaited, List.any_eq_false, Bool.and_eq_true, beq_iff_eq, Option.isNone_iff_eq_none, not_and]
  rintro s member rfl isOpen
  rw [CallTable.outcome_of_slot sound.matched s member, isOpen] at settled
  cases settled

theorem register_balance (sound : Sound used d) (id : UInt64) (method : String) (session : Option SessionId)
    (fresh : id ∉ used) :
    (d.table.perform (.register id method session)).pending.length =
      d.table.pending.length + (d.tally (.register id method session)).registered := by
  have counted := CallTable.perform_count sound.matched (.register id method session)
  have unseen : d.table.pending.countP (fun e => ((CallDeed.register id method session).fate e).isSome) = 0 := by
    apply List.countP_eq_zero.mpr
    intro e pending
    have different : e.id ≠ id := by
      rintro rfl
      exact fresh (pending_used sound e.id (List.mem_map_of_mem pending))
    simp [CallDeed.fate, different]
  rw [unseen, Nat.add_zero] at counted
  rw [counted, tally]
  cases closed : d.table.closed with
  | true => simp [CallTable.added, closed, CallTable.register_closed closed]
  | false => simp [CallTable.added, closed, CallTable.register_open closed]

theorem fail_session_balance (sound : Sound used d) (session : SessionId) :
    (d.table.perform (.failSession session)).pending.length + (d.table.failSession session).1 =
      d.table.pending.length := by
  have counted := CallTable.perform_count sound.matched (.failSession session)
  have same : d.table.pending.countP (fun e => ((CallDeed.failSession session).fate e).isSome) =
      (d.table.failSession session).1 := by
    rw [CallTable.failSession, List.countP_eq_length_filter]
    congr 1
    apply List.filter_congr
    intro e _
    by_cases own : e.session = some session <;> simp [CallDeed.fate, own]
  rw [same] at counted
  simpa [CallTable.added] using counted

theorem collect_balance (sound : Sound used d) (call : Call) :
    (d.table.perform (.collect call)).pending.length = d.table.pending.length := by
  have counted := CallTable.perform_count sound.matched (.collect call)
  simpa [CallTable.added, CallDeed.fate] using counted

theorem act_balance (sound : Sound used d) (a : CallAct) (fresh : ∀ id, a.registers? = some id → id ∉ used) :
    (d.act a).table.pending.length + (d.tally a).settled = d.table.pending.length + (d.tally a).registered := by
  cases a with
  | register id method session => exact register_balance sound id method session (fresh id rfl)
  | resolve id response =>
      simpa [act, tally, Ledger.settled, CallTable.resolve, CallTable.perform] using
        settle_balance sound (.resolve id response) id (fun e =>
          by by_cases own : e.id = id <;> simp [CallDeed.fate, own]) rfl
  | cancel id =>
      simpa [act, tally, Ledger.settled, CallTable.cancel, CallTable.perform] using
        settle_balance sound (.cancel id) id (fun e => by by_cases own : e.id = id <;> simp [CallDeed.fate, own]) rfl
  | failSession session =>
      simpa [act, tally, Ledger.settled, CallTable.perform] using fail_session_balance sound session
  | failAll => simp [act, tally, Ledger.settled, CallTable.failAll, CallTable.remove]
  | poll call =>
      by_cases free : d.isFree call = true
      · simpa [act, free, tally, Ledger.settled] using collect_balance sound call
      · simp [act, free, tally, Ledger.settled]
  | drop call =>
      by_cases free : d.isFree call = true
      · have held := abandoned_live sound.toOrderly (.drop call) call (by simp [deed, free])
        simpa [act, free, tally, Ledger.settled, CallTable.perform] using abandon_balance sound call held
      · simp [act, free, tally, Ledger.settled]
  | move key =>
      cases found : d.wait? key with
      | none => simp [act, Desk.move, found, tally, Ledger.settled]
      | some w =>
          have held := sound.live (key, w) (Desk.wait_found key w found)
          rcases move_wait d key w found with ⟨waiting, _, same⟩ | ⟨outcome, ending, finish, moved⟩
          · simp [act, same, tally, found, waiting, Ledger.settled]
          · simp only [act, moved, tally, found, finish, Ledger.settled]
            cases settled : d.table.outcome? w.call with
            | some o =>
                have notAwaited := settled_not_awaited sound w.call o settled
                simpa [deed, ending, settled, perform, notAwaited] using collect_balance sound w.call
            | none => simpa [deed, ending, settled, perform] using abandon_balance sound w.call held
  | abort key =>
      cases found : d.wait? key with
      | none => simp [act, Desk.abort, found, tally, Ledger.settled]
      | some w =>
          have held := sound.live (key, w) (Desk.wait_found key w found)
          simpa [act, Desk.abort, found, tally, Ledger.settled, CallWait.kind, CallTable.perform] using
            abandon_balance sound w.call held
  | wait w =>
      by_cases free : d.isFree w.call = true <;> simp [act, free, tally, Ledger.settled, Desk.start]
  | allocate => simp [act, tally, Ledger.settled, CallTable.allocate]
  | advance | fire => simp [act, tally, Ledger.settled, Desk.advance, Desk.fire]

theorem run_balance (acts : List CallAct) (sound : Sound used d) (distinct : (used ++ registers acts).Nodup) :
    (d.run acts).table.pending.length + Ledger.total (d.ledger acts) (·.settled) =
      d.table.pending.length + Ledger.total (d.ledger acts) (·.registered) := by
  induction acts generalizing d used with
  | nil => rfl
  | cons a acts ih =>
      obtain ⟨fresh, rest⟩ := fresh_head a acts distinct
      have now := act_balance sound a fresh
      have later := ih (act_sound sound a fresh) rest
      have split : d.ledger (a :: acts) = d.tally a :: (d.act a).ledger acts := by simp [ledger, trace]
      have same : d.run (a :: acts) = (d.act a).run acts := rfl
      rw [split, same]
      simp only [Ledger.total, List.foldr_cons] at later ⊢
      omega

theorem settled_total (books : List Ledger) :
    Ledger.total books (·.settled) = Ledger.total books (·.resolved) + Ledger.total books (·.cancelled) +
      Ledger.total books (·.failed) + Ledger.total books (·.givenUp) := by
  induction books with
  | nil => rfl
  | cons l books ih =>
      simp only [Ledger.total, List.foldr_cons, Ledger.settled] at ih ⊢
      omega

theorem act_closed (a : CallAct) (closed : d.table.closed = true ∨ a = .failAll) : (d.act a).table.closed = true := by
  rw [act_table]
  rcases closed with before | rfl
  · cases d.deed a with
    | none => exact before
    | some deed => simp [perform, CallTable.perform_closed, before]
  · rfl

theorem run_closed (acts : List CallAct) (closed : d.table.closed = true ∨ .failAll ∈ acts) :
    (d.run acts).table.closed = true := by
  induction acts generalizing d with
  | nil => simpa [run] using closed
  | cons a acts ih =>
      apply ih
      rcases closed with before | member
      · exact Or.inl (act_closed a (Or.inl before))
      · rcases List.mem_cons.mp member with here | later
        · exact Or.inl (act_closed a (Or.inr here.symm))
        · exact Or.inr later

theorem register_follows (orderly : Orderly d) (id : UInt64) (method : String)
    (session : Option SessionId) (call : Call)
    (table : CallTable) (registered : d.table.register id method session = .ok (call, table)) :
    call.id = id ∧ Follows (d.act (.register id method session)) call session none := by
  obtain ⟨isOpen, made⟩ := CallTable.register_ok _ _ _ _ registered
  cases made
  have table : (d.act (.register id method session)).table = d.table.perform (.register id method session) := rfl
  have matched := CallTable.perform_matched orderly.matched (.register id method session)
  refine ⟨rfl, ?_, ?_, ?_⟩
  · rw [table, CallTable.perform_next_ticket]
    simp [CallTable.added, isOpen]
  · intro s member own
    rw [table] at member
    rcases CallTable.perform_slot orderly.matched _ s member with ⟨old, held, same, _⟩ | ⟨unsettled, _⟩
    · have bound := orderly.matched.below old held
      rw [same, own] at bound
      exact absurd bound (Nat.lt_irrefl _)
    · exact unsettled
  · intro e member ticket
    rw [table] at member
    rcases (CallTable.perform_pending_iff orderly.matched _ e).mp member with ⟨old, _⟩ | new
    · obtain ⟨other, held, otherTicket, _⟩ := CallTable.matched_entry_slot orderly.matched e old
      have bound := orderly.matched.below other held
      rw [otherTicket, ticket] at bound
      exact absurd bound (Nat.lt_irrefl _)
    · obtain ⟨_, _, _, same⟩ := (CallTable.added_iff _ e).mp new
      cases same
      exact ⟨rfl, rfl⟩

theorem run_append (before after : List CallAct) : d.run (before ++ after) = (d.run before).run after :=
  List.foldl_append

theorem registered_follows (before after : List CallAct) (id : UInt64) (method : String) (session : Option SessionId)
    (call : Call) (table : CallTable) (distinct : (registers (before ++ .register id method session :: after)).Nodup)
    (registered : (opened.run before).table.register id method session = .ok (call, table)) :
    Follows (opened.run (before ++ .register id method session :: after)) call session
      (after.findSome? (·.verdict id session)) := by
  have split : registers (before ++ .register id method session :: after) =
      registers before ++ registers (.register id method session :: after) := List.filterMap_append
  rw [split] at distinct
  have sound : Sound (registers before) (opened.run before) := by
    have initial := run_sound before opened_sound (by simpa using (List.nodup_append.mp distinct).1)
    simpa using initial
  obtain ⟨fresh, rest⟩ := fresh_head _ after distinct
  obtain ⟨rfl, start⟩ := register_follows sound.toOrderly id method session call table registered
  rw [run_append]
  exact run_follows after (act_sound sound _ fresh) rest call session none start

-- Of all that may happen to a call the first that takes its id out of the table counts. Whoever polls the
-- handle gets that, and so does a wait, unless it has to give up before.
theorem calls_settle_once (acts : List CallAct) (distinct : (registers acts).Nodup) :
    let d := opened.run acts
    let books := opened.ledger acts
    d.table.pendingIds = (d.table.slots.filter (·.outcome.isNone)).map (·.call.id) ∧
    d.table.pendingIds.Nodup ∧
    (opened.departures acts).Nodup ∧
    (∀ before id method session after call table, acts = before ++ .register id method session :: after →
      (opened.run before).table.register id method session = .ok (call, table) →
      (call ∈ d.table.calls → (d.table.collect call).map (·.1) = after.findSome? (·.verdict id session)) ∧
      ∀ key w, d.wait? key = some w → w.call = call →
        (w.finish? d.clock d.table).map (·.1) =
          (after.findSome? (·.verdict id session)).or ((w.fault? d.clock).map .error)) ∧
    Ledger.total books (·.registered) = d.table.pending.length + Ledger.total books (·.resolved) +
      Ledger.total books (·.cancelled) + Ledger.total books (·.failed) + Ledger.total books (·.givenUp) ∧
    (.failAll ∈ acts → d.table.pending = [] ∧
      ∀ id method session, d.table.register id method session = .error .connectionClosed) := by
  intro d books
  have sound : Sound (registers acts) d := by
    simpa using run_sound acts opened_sound (by simpa using distinct)
  refine ⟨?_, sound.matched.ids, (departures_once acts opened_sound (by simpa using distinct)).1, ?_, ?_, ?_⟩
  · have ids := congrArg (List.map Prod.snd) sound.matched.entries
    rw [List.map_map, List.map_map] at ids
    exact ids
  · rintro before id method session after call table rfl registered
    have follows := registered_follows before after id method session call table distinct registered
    have known : call ∈ d.table.calls → d.table.outcome? call = after.findSome? (·.verdict id session) := by
      intro held
      obtain ⟨s, member, rfl⟩ := List.mem_map.mp held
      rw [CallTable.outcome_of_slot sound.matched s member]
      exact follows.outcome s member rfl
    constructor
    · intro held
      rw [← known held, CallTable.collect, Option.map_map]
      cases d.table.outcome? call <;> rfl
    · rintro key w found rfl
      have outcome := known (sound.live (key, w) (Desk.wait_found key w found))
      cases verdict : after.findSome? (·.verdict id session) with
      | some o =>
          rw [finish_settled w d.clock d.table o (outcome.trans verdict)]
          rfl
      | none =>
          rw [finish_unsettled w d.clock d.table (outcome.trans verdict), Option.map_map]
          rfl
  · have balance : d.table.pending.length + Ledger.total books (·.settled) = 0 + Ledger.total books (·.registered) :=
      run_balance acts opened_sound (by simpa using distinct)
    rw [settled_total] at balance
    omega
  · intro failed
    have closed : d.table.closed = true := run_closed acts (Or.inr failed)
    exact ⟨sound.matched.closed closed, CallTable.register_closed closed⟩

end

def firstReply : Response := ⟨1, some ⟨"1"⟩, none, none⟩

-- The first call gets its response and nothing after that, the second loses its session, the third is
-- given up by its wait, and the fourth stays.
def mixedActs : List CallAct :=
  [.allocate, .register 1 "A.a" none, .allocate, .register 2 "B.b" (some ⟨"S"⟩), .allocate, .register 3 "C.c" none,
    .allocate, .register 4 "D.d" none, .resolve 1 firstReply, .failSession ⟨"S"⟩, .cancel 1,
    .wait ⟨⟨2, 3, "C.c"⟩, some ⟨"stop"⟩, none⟩, .fire ⟨"stop"⟩, .move 0, .resolve 3 firstReply]

theorem calls_settle_once_mixed :
    (registers mixedActs).Nodup ∧ (opened.run mixedActs).table.pendingIds = [4] ∧
      opened.departures mixedActs = [1, 2, 3] ∧ (opened.departures mixedActs).Nodup ∧
      ((opened.run mixedActs).table.collect ⟨0, 1, "A.a"⟩).map (·.1) = some (.ok firstReply) := by
  have settles := calls_settle_once mixedActs (by decide)
  refine ⟨by decide, by decide, by decide, settles.2.2.1, ?_⟩
  exact (settles.2.2.2.1 [.allocate] 1 "A.a" none (mixedActs.drop 2) ⟨0, 1, "A.a"⟩ _ rfl rfl).1 (by decide)

end DevTools.CallDesk
