import DevTools.Proofs.Connection.Fault
import DevTools.Proofs.Connection.Waits

set_option autoImplicit false

namespace DevTools.Connection

structure Reached (c : Connection) : Prop where
  sound : c.Sound
  keyed : c.Keyed
  filed : c.Filed
  distinct : c.Distinct
  holding : c.Holding
  lined : c.Lined
  blames : c.hub.calls.Blames

-- The caller with this number has the handle of the call as long as it goes on, and has not failed.
def Underway (c : Connection) (key : Nat) (call : Call) : Prop :=
  Follows c key (·.call? = some call) fun result => ∀ fault, result ≠ .error fault

theorem initial_reached (config : Config) (link : Link) : (ofLink config link).Reached :=
  ⟨initial_sound config link, initial_keyed config link, initial_filed config link, initial_distinct config link,
    ⟨fun _ member => (nomatch member), fun _ member => nomatch member⟩, initial_lined config link,
      fun _ member => nomatch member⟩

section
variable {c : Connection} {a : Act}

theorem run_reached (reached : c.Reached) (acts : List Act) : (c.run acts).Reached :=
  ⟨run_sound reached.sound acts, run_keyed reached.keyed acts, run_filed reached.keyed reached.filed acts,
    run_distinct reached.keyed reached.distinct acts, run_holding reached.sound reached.keyed reached.holding acts,
    run_lined reached.sound reached.keyed reached.lined acts, run_blames reached.sound reached.blames acts⟩

theorem act_reached (reached : c.Reached) (a : Act) : (c.act a).Reached := run_reached reached [a]

theorem abandon_lets_go (t : CallTable) (call : Call) : call ∉ (t.performs [.abandon call]).calls := by
  simp [CallTable.performs, CallTable.perform_calls, CallTable.released, CallTable.issued]

theorem failed_lets_go (distinct : c.Distinct) (key : Nat) (caller : Caller)
    (held : (key, caller) ∈ c.callers) (call : Call)
    (has : caller.call? = some call) (fault : Error)
    (fails : (caller.move c.clock c.tasksEnded c.hub).1 = .inr (.error fault)) :
    call ∉ (c.act (.move (.caller key))).hub.calls.calls := by
  have found := caller_found distinct key caller held
  have abandons : caller.callDeeds c.clock c.hub.calls = [.abandon call] →
      call ∉ (c.act (.move (.caller key))).hub.calls.calls := by
    intro deeds
    have table : (c.act (.move (.caller key))).hub.calls.calls = (c.moveCaller key).hub.calls.calls :=
      close_unheld_calls.1
    rw [table, caller_table key, callDeeds, found, Option.elim_some, deeds]
    exact abandon_lets_go c.hub.calls call
  have looks : ∀ w : CallWait, c.looks? (.move (.caller key)) = some w → w.call = call →
      w.finish? c.clock c.hub.calls ≠ none →
      call ∉ (c.act (.move (.caller key))).hub.calls.calls := by
    rintro w looks rfl ends
    exact looks_lets_go w looks (by rw [looks_hands w looks, ne_eq, Option.map_eq_none_iff]; exact ends)
  cases caller with
  | sending own written =>
      cases has
      simp only [Caller.move] at fails
      split at fails <;> cases fails
      exact abandons rfl
  | asking use cancel own written =>
      cases has
      apply abandons
      simp only [Caller.move] at fails
      simp only [Caller.callDeeds]
      split at fails
      · next fired => rw [if_pos fired]
      · next waits =>
          rw [if_neg waits]
          split at fails <;> cases fails
          rfl
  | awaiting _ w | collecting w =>
      refine looks w (by simp only [looks?, found]) (Option.some.inj has) ?_
      intro goesOn
      simp only [Caller.move, goesOn] at fails
      cases fails
  | _ => cases has

theorem aborted_lets_go (distinct : c.Distinct) (key : Nat) (caller : Caller)
    (held : (key, caller) ∈ c.callers) (call : Call)
    (has : caller.call? = some call) : call ∉ (c.act (.abort key)).hub.calls.calls := by
  simp only [act, abort, caller_found distinct key caller held]
  rw [close_unheld_calls.1]
  dsimp only
  rw [drop_table, has]
  exact abandon_lets_go c.hub.calls call

theorem act_underway (reached : c.Reached) (key : Nat) (call : Call) (old : key < c.nextCaller)
    (underway : c.Underway key call) (a : Act) :
    (call ∈ c.hub.calls.calls ∧ call ∉ (c.act a).hub.calls.calls) ∨
      ((c.act a).Underway key call ∧ ∀ caller, (key, caller) ∈ c.callers → a ≠ .abort key) := by
  have there : ∀ caller, (key, caller) ∈ c.callers → call ∈ c.hub.calls.calls :=
    fun caller held => reached.holding.there _ held call (underway.going caller held)
  by_cases leaves : call ∈ c.hub.calls.calls ∧ call ∉ (c.act a).hub.calls.calls
  · exact Or.inl leaves
  · refine Or.inr ⟨⟨?_, ?_⟩, ?_⟩
    · intro caller member
      cases act_comes a key caller member with
      | stays key caller held => exact underway.going caller held
      | begins => exact absurd old (Nat.lt_irrefl _)
      | moves key before caller is held goesOn =>
          exact (move_holds before caller c.clock c.tasksEnded c.hub _ (Prod.ext goesOn rfl)).1.trans
            (underway.going before held)
      | told key before tells is held => exact (learn_call tells before).trans (underway.going before held)
    · rintro result member fault rfl
      cases act_ends a key _ member with
      | stays key result was => exact underway.ended _ was fault rfl
      | begins => exact absurd old (Nat.lt_irrefl _)
      | moves key before result is held ends =>
          subst is
          exact leaves ⟨there before held,
            failed_lets_go reached.distinct key before held call (underway.going before held) fault ends⟩
    · rintro caller held rfl
      exact leaves ⟨there caller held,
        aborted_lets_go reached.distinct key caller held call (underway.going caller held)⟩

theorem run_underway (reached : c.Reached) (key : Nat) (call : Call) (old : key < c.nextCaller)
    (underway : c.Underway key call)
    (acts : List Act) (fails : (∃ fault, (key, .error fault) ∈ (c.run acts).finished) ∨
      GivenUp (trace act c acts) key) :
    ∃ first a rest, acts = first ++ a :: rest ∧ call ∈ (c.run first).hub.calls.calls ∧
      call ∉ ((c.run first).act a).hub.calls.calls := by
  induction acts generalizing c with
  | nil =>
      rcases fails with ⟨fault, done⟩ | ⟨_, _, seen, _⟩
      · exact absurd rfl (underway.ended _ done fault)
      · cases seen
  | cons a acts ih =>
      rcases act_underway reached key call old underway a with ⟨held, left⟩ | ⟨goesOn, kept⟩
      · exact ⟨[], a, acts, rfl, held, left⟩
      · have later : (∃ fault, (key, .error fault) ∈ ((c.act a).run acts).finished) ∨
          GivenUp (trace act (c.act a) acts) key := by
          refine fails.imp_right ?_
          rintro ⟨x, caller, seen, held⟩
          rcases List.mem_cons.mp seen with now | seen
          · cases now
            exact absurd rfl (kept caller held)
          · exact ⟨x, caller, seen, held⟩
        obtain ⟨first, b, rest, rfl, held, left⟩ :=
          ih (act_reached reached a) (Nat.lt_of_lt_of_le old (act_next_le a)) goesOn later
        exact ⟨a :: first, b, rest, rfl, held, left⟩

-- With the handle goes the entry of the call, for good.
theorem left_no_entry (sound : c.Sound) (call : Call) (held : call ∈ c.hub.calls.calls)
    (left : call ∉ (c.act a).hub.calls.calls)
    (later : List Act) : ∀ e ∈ ((c.act a).run later).hub.calls.pending, e.ticket ≠ call.ticket := by
  intro e pending own
  obtain ⟨s, there, rfl⟩ := List.mem_map.mp held
  have bound := sound.matched.below s there
  have later_ := act_ticket_le sound.kept a
  have before := run_pending_old (act_sound sound a) later e pending (by omega)
  obtain ⟨after, stays, ticket, _⟩ := CallTable.matched_entry_slot (act_sound sound a).matched e before
  obtain ⟨first, present, same, _⟩ := run_outcome_old sound [a] after stays (by omega)
  have unique := CallTable.matched_slot_unique sound.matched first s present there (by rw [same, ticket, own])
  exact left (unique ▸ same ▸ List.mem_map_of_mem stays)

theorem uncalled_gone (sound : c.Sound) (keyed : c.Keyed) (counted : c.Counted) (a : Act) (acts : List Act)
    (bounded : c.hub.calls.nextId.toNat + c.allocations (a :: acts) < UInt64.size)
    (advances : (c.act a).hub.calls.nextId ≠ c.hub.calls.nextId) (uncalled : c.issues? a = none) :
    (c.act a).Gone c.hub.calls.nextId := by
  have origin := (act_issues sound keyed a).2
  have up := (act_counts_on sound keyed a acts bounded).up
  constructor
  · exact Nat.lt_of_le_of_ne up fun same => advances (UInt64.toNat_inj.mp same.symm)
  · intro call member same
    rcases origin call member with old | new
    · exact absurd (counted.below call old) (same ▸ Nat.lt_irrefl _)
    · rw [uncalled] at new
      cases new

theorem failed_left (reached : c.Reached) (operation : Operation)
    (begins : c.nextCaller < (c.act (.begin operation)).nextCaller)
    (call : Call) (issues : c.issues? (.begin operation) = some call) (later : List Act)
    (fails : (∃ fault, (c.nextCaller, .error fault) ∈ ((c.act (.begin operation)).run later).finished) ∨
      GivenUp (trace act (c.act (.begin operation)) later) c.nextCaller) :
    ∃ first a rest, later = first ++ a :: rest ∧ call ∈ ((c.act (.begin operation)).run first).hub.calls.calls ∧
      call ∉ (((c.act (.begin operation)).run first).act a).hub.calls.calls := by
  have awaits := begin_awaits reached.keyed reached.filed operation call issues
  apply run_underway (act_reached reached _) c.nextCaller call begins _ later fails
  exact ⟨fun caller held => caller.awaits_call call none _ (awaits.going caller held), fun result done =>
    (awaits.ended result done).elim⟩

theorem failed_gone (reached : c.Reached) (regular : c.Regular) (operation : Operation)
    (begins : c.nextCaller < (c.act (.begin operation)).nextCaller) (later : List Act)
    (bounded : c.hub.calls.nextId.toNat + c.allocations (.begin operation :: later) < UInt64.size)
    (advances : (c.act (.begin operation)).hub.calls.nextId ≠ c.hub.calls.nextId)
    (fails : (∃ fault, (c.nextCaller, .error fault) ∈ ((c.act (.begin operation)).run later).finished) ∨
      GivenUp (trace act (c.act (.begin operation)) later) c.nextCaller) :
    ((c.act (.begin operation)).run later).Gone c.hub.calls.nextId := by
  have next := act_regular regular (.begin operation) later bounded
  have rest := (act_counts_on regular.sound regular.keyed (.begin operation) later bounded).rest
  rw [← rest] at bounded
  cases issues : c.issues? (.begin operation) with
  | none =>
      exact run_gone next.sound next.keyed _ (uncalled_gone regular.sound regular.keyed regular.counted _ later
        (rest ▸ bounded) advances issues)
        later bounded
  | some call =>
      have own : call.id = c.hub.calls.nextId := by
        rcases (act_issues regular.sound regular.keyed (.begin operation)).1 with ⟨same, _⟩ | ⟨_, own⟩
        · exact absurd same advances
        · exact own call issues
      obtain ⟨first, a, more, rfl, held, left⟩ := failed_left reached operation begins call issues later fails
      rw [allocations_append] at bounded
      have there := run_regular next first (by omega)
      have counted := run_counts_on next.sound next.keyed first (by omega)
      have enough : ((c.act (.begin operation)).run first).hub.calls.nextId.toNat +
          ((c.act (.begin operation)).run first).allocations (a :: more) < UInt64.size := by omega
      have gone := let_go there.sound there.keyed there.counted a more enough call held left
      have split := run_append (c.act (.begin operation)) first (a :: more)
      rw [split, ← own]
      exact run_gone (act_sound there.sound a) (act_keyed there.keyed a) call.id gone more
        (by rw [(act_counts_on there.sound there.keyed a more enough).rest]; exact enough)

end

-- An operation that begins, whatever comes after. If it makes a request and fails at once it has changed nothing but
-- the count of ids. Once it has failed, or was given up while it waited, no entry of its call is there any more, and
-- as long as ids do not repeat none with its id. A fault of the request itself is found at once. That a frame could
-- not be written is told to the operation whose frame it is and to no other, unless the token of that has fired.
theorem failures_leave_nothing (config : Config) (link : Link) (before : List Act) (operation : Operation)
    (opens : (((ofLink config link).run before).opening? operation).isSome = true) :
    let c := (ofLink config link).run before
    let d := c.act (.begin operation)
    (operation.asks?.isSome = true → ∀ fault, (c.nextCaller, .error fault) ∈ d.finished → c.Traceless operation fault) ∧
    ∀ later,
      let y := d.run later
      let seen := trace act d later
      ((∃ fault, (c.nextCaller, .error fault) ∈ y.finished) ∨ GivenUp seen c.nextCaller →
        (∀ call, c.issues? (.begin operation) = some call → ∀ e ∈ y.hub.calls.pending, e.ticket ≠ call.ticket) ∧
        ((ofLink config link).allocations (before ++ .begin operation :: later) < UInt64.size - 1 →
          d.hub.calls.nextId ≠ c.hub.calls.nextId → y.Unregistered c.hub.calls.nextId)) ∧
      (∀ fault, (c.nextCaller, .error fault) ∈ y.finished → fault.isRefusal = true →
        (c.nextCaller, .error fault) ∈ d.finished) ∧
      (∀ reason, (c.nextCaller, .error (.transport reason)) ∈ y.finished →
        ∃ call, c.issues? (.begin operation) = some call ∧ Refused seen call (.transport reason)) ∧
      ∀ call fault, c.issues? (.begin operation) = some call → Refused seen call fault →
        (∃ reason, fault = .transport reason) ∧ y.Convicted c.nextCaller operation.token? fault := by
  intro c d
  have reached : c.Reached := run_reached (initial_reached config link) before
  have started : d.Reached := act_reached reached _
  obtain ⟨begun, opening⟩ := Option.isSome_iff_exists.mp opens
  have begins : c.nextCaller < d.nextCaller := by
    have next := (begin_entered operation begun opening).next
    exact next ▸ Nat.lt_succ_self _
  have atOnce : ∀ fault, (c.nextCaller, .error fault) ∈ d.finished → begun.1 = .inr (.error fault) := by
    intro fault failed
    cases act_ends _ _ _ failed with
    | stays key result was => exact absurd (reached.filed _ was) (Nat.lt_irrefl _)
    | begins other result hub is starts =>
        cases is
        cases opening.symm.trans starts
        rfl
    | moves key caller result is => cases is
  refine ⟨?_, ?_⟩
  · intro asks fault failed
    exact asks_traceless reached.sound.kept operation asks fault begun.2
      (opening.trans (congrArg some (Prod.ext (atOnce fault failed) rfl)))
  · intro later y seen
    have faults := faults_follow reached.sound reached.keyed reached.filed reached.blames operation opens later
    refine ⟨fun fails => ⟨?_, ?_⟩, ?_, ?_, ?_⟩
    · intro call issues
      obtain ⟨first, a, rest, same, held, left⟩ := failed_left reached operation begins call issues later fails
      have split : y = ((d.run first).act a).run rest := (congrArg d.run same).trans (run_append d first (a :: rest))
      rw [split]
      exact left_no_entry (run_sound started.sound first) call held left rest
    · intro bounded advances
      obtain ⟨regular, room⟩ := run_room config link before (.begin operation :: later) bounded
      exact gone_unregistered (run_sound started.sound later) _
        (failed_gone reached regular operation begins later room advances fails)
    · intro fault failed refusal
      rcases faults fault failed with first | late | ⟨call, _, refused⟩
      · exact first
      · rw [fault.late_accepted late] at refusal
        cases refusal
      · obtain ⟨reason, rfl⟩ := refused_transport seen call fault refused
        cases refusal
    · intro reason failed
      rcases faults (.transport reason) failed with first | late | told
      · exact absurd rfl (opening_fault operation _ begun.2
          (opening.trans (congrArg some (Prod.ext (atOnce _ first) rfl))) reason)
      · cases late
      · exact told
    · intro call fault issues refused
      have apprised := run_apprised started.sound started.keyed started.lined c.nextCaller call operation.token? begins
        (issued_ticket reached.sound reached.keyed operation call issues).2
          (begin_apprised reached.keyed reached.filed operation call issues) later
      exact ⟨refused_transport seen call fault refused,
        faces_convicted (run_distinct started.keyed started.distinct later) _ call _ fault
          (apprised.refused fault refused).2⟩

-- Two send, and the link takes no frame any more.
def enabling : Operation := .send ⟨"Page.enable", .empty, none⟩

def reloading : Operation := .send ⟨"Page.reload", .empty, none⟩

def cutOff : List Act :=
  [.far (.script false (some "gone") false), .move .writer, .move .writer, .move (.caller 0), .move (.caller 1)]

-- The first is told that its frame could not be written, the second is not, and neither leaves anything behind.
-- Without a method there is nothing to send.
theorem failures_leave_nothing_cut_off :
    let c := ofLink {} inMemory
    let y := (c.act (.begin enabling)).run (.begin reloading :: cutOff)
    (∃ reason, (0, .error (.transport reason)) ∈ y.finished) ∧
      (∀ reason, (1, .error (.transport reason)) ∉ y.finished) ∧
    y.Unregistered 1 ∧ y.Unregistered 2 ∧
    c.Traceless (.send ⟨"", .empty, none⟩) (.invalidArgument "method must not be empty") := by
  have failed : ∀ (y : Connection) key, y.finished.any (fun entry => entry.1 == key && !entry.2.toBool) = true →
      ∃ fault, (key, .error fault) ∈ y.finished := by
    intro y key there
    obtain ⟨⟨own, result⟩, member, same⟩ := List.any_eq_true.mp there
    rw [Bool.and_eq_true, beq_iff_eq] at same
    obtain ⟨rfl, bad⟩ := same
    cases result with
    | ok answer => cases bad
    | error fault => exact ⟨fault, member⟩
  have split : (((ofLink {} inMemory).act (.begin enabling)).run (.begin reloading :: cutOff)) =
      (((ofLink {} inMemory).run [.begin enabling]).act (.begin reloading)).run cutOff :=
    run_append ((ofLink {} inMemory).act (.begin enabling)) [.begin reloading] cutOff
  obtain ⟨clears, _, _, convicts⟩ := (failures_leave_nothing {} inMemory [] enabling rfl).2 (.begin reloading :: cutOff)
  obtain ⟨clearsToo, _, blames, _⟩ := (failures_leave_nothing {} inMemory [.begin enabling] reloading rfl).2 cutOff
  have one := failed (((ofLink {} inMemory).act (.begin enabling)).run (.begin reloading :: cutOff)) 0
    (by decide +kernel)
  have other := failed ((((ofLink {} inMemory).run [.begin enabling]).act (.begin reloading)).run cutOff) 1
    (by decide +kernel)
  refine ⟨?_, ?_, ?_, ?_, ?_⟩
  · have issues : (ofLink {} inMemory).issues? (.begin enabling) = some ⟨0, 1, "Page.enable"⟩ := by decide +kernel
    have stops : (trace act ((ofLink {} inMemory).act (.begin enabling)) (.begin reloading :: cutOff)).any
        (fun seen => (seen.1.refuses? seen.2).any (·.1 == ⟨0, 1, "Page.enable"⟩)) = true := by decide +kernel
    obtain ⟨⟨x, b⟩, member, stops⟩ := List.any_eq_true.mp stops
    obtain ⟨⟨call, fault⟩, refuses, own⟩ := (Option.any_eq_true _ _).mp stops
    obtain rfl := beq_iff_eq.mp own
    obtain ⟨⟨reason, rfl⟩, convicted⟩ := convicts _ fault issues ⟨x, b, member, refuses⟩
    obtain ⟨fault, ends⟩ := one
    rcases convicted.ended _ ends with same | ⟨stoppable, _⟩
    · exact ⟨reason, same ▸ ends⟩
    · cases stoppable
  · intro reason ends
    rw [split] at ends
    obtain ⟨call, issues, x, b, member, refuses⟩ := blames reason ends
    have own : ((ofLink {} inMemory).run [.begin enabling]).issues? (.begin reloading) = some ⟨1, 2, "Page.reload"⟩ :=
      by decide +kernel
    have spared : (trace act (((ofLink {} inMemory).run [.begin enabling]).act (.begin reloading)) cutOff).all
        (fun seen => !(seen.1.refuses? seen.2).any (·.1 == ⟨1, 2, "Page.reload"⟩)) = true := by decide +kernel
    have keeps := List.all_eq_true.mp spared (x, b) member
    rw [refuses, Option.some.inj (issues.symm.trans own)] at keeps
    cases keeps
  · exact (clears (Or.inl one)).2 (by decide +kernel) (by decide +kernel)
  · rw [split]
    exact (clearsToo (Or.inl other)).2 (by decide +kernel) (by decide +kernel)
  · exact (failures_leave_nothing {} inMemory [] (.send ⟨"", .empty, none⟩) rfl).1 rfl _ (List.mem_singleton.mpr rfl)

end DevTools.Connection
