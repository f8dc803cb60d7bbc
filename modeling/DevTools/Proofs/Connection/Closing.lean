import DevTools.Proofs.Connection.Correlation
import DevTools.Proofs.Connection.Course

set_option autoImplicit false

namespace DevTools

namespace Connection

def Act.closes : Act → Bool
  | .begin .close => true
  | _ => false

-- Nobody has come to wait for the end of the reader and the writer, and a reader that has ended does not read on.
structure Rests (c after : Connection) : Prop where
  joined : after.joined = c.joined
  reader : c.readerEnded = true → after.readerEnded = true

section
variable {c : Connection} {a : Act}

theorem rests_trans (middle after : Connection) (first : Rests c middle) (second : Rests middle after) :
    Rests c after :=
  ⟨second.joined.trans first.joined, fun ended => second.reader (first.reader ended)⟩

theorem unheld_rests (before : Connection) : Rests before before.closeUnheld := by
  rw [closeUnheld]
  split <;> exact ⟨rfl, id⟩

theorem enter_rests (begun : Progress × Hub) : Rests c (c.enter begun).2 := by
  obtain ⟨progress, hub⟩ := begun
  cases progress with
  | inl caller => exact ⟨rfl, id⟩
  | inr result => exact rests_trans (c.concluded hub result) _ ⟨rfl, id⟩ (unheld_rests _)

theorem start_rests (operation : Operation) (other : Act.closes (.begin operation) = false) :
    Rests c (c.start operation) := by
  cases operation with
  | waitForCall | waitForNext =>
      simp only [start]
      split
      · exact enter_rests _
      · exact ⟨rfl, id⟩
  | close => cases other
  | _ => exact enter_rests _

theorem tell_rests (queue : List Outbound) (result : Written) :
    Rests c (queue.foldl (fun c o => c.acknowledge o.call result) c) := by
  induction queue generalizing c with
  | nil => exact ⟨rfl, id⟩
  | cons o queue ih => exact rests_trans (c.acknowledge o.call result) _ ⟨rfl, id⟩ ih

theorem end_rests (before : Connection) : Rests before before.endWriter :=
  rests_trans _ _ (tell_rests before.hub.outbound (.error .connectionClosed)) ⟨rfl, id⟩

theorem fail_rests (before : Connection) (call : Call) (fault : Error) : Rests before (before.failWrite call fault) :=
  rests_trans ((before.acknowledge call (.error fault)).shutdown (.writeFailed fault.message)) _ ⟨rfl, id⟩ (end_rests _)

theorem writer_rests : Rests c c.moveWriter := by
  rw [moveWriter]
  split
  · exact ⟨rfl, id⟩
  · split
    · exact end_rests c
    · split <;> exact ⟨rfl, id⟩
  · split
    · exact ⟨rfl, id⟩
    · next link _ => exact rests_trans { c with link } _ ⟨rfl, id⟩ (fail_rests _ _ _)
    · next o _ _ _ left link _ =>
        dsimp only
        split
        · exact rests_trans { c with link, writer := .sending o left } _ ⟨rfl, id⟩ (fail_rests _ _ _)
        · exact ⟨rfl, id⟩

theorem move_rests (activity : Activity) : Rests c (c.move activity) := by
  refine rests_trans _ _ ?_ (unheld_rests _)
  cases activity with
  | reader =>
      simp only [moveReader]
      split
      · exact ⟨rfl, fun _ => rfl⟩
      · split
        · exact ⟨rfl, id⟩
        · exact ⟨rfl, fun _ => rfl⟩
        · exact ⟨rfl, fun _ => rfl⟩
        · exact ⟨rfl, id⟩
        · exact ⟨rfl, fun _ => rfl⟩
  | writer => exact writer_rests
  | caller key =>
      simp only [moveCaller]
      split
      · exact ⟨rfl, id⟩
      · split <;> exact ⟨rfl, id⟩
  | handler stream =>
      simp only [moveHandler]
      split
      · exact ⟨rfl, id⟩
      · split
        · split <;> exact ⟨rfl, id⟩
        · split
          · exact ⟨rfl, id⟩
          · split <;> exact ⟨rfl, id⟩

theorem act_rests (other : a.closes = false) : Rests c (c.act a) := by
  cases a with
  | begin operation => exact start_rests operation other
  | move activity => exact move_rests activity
  | abort key =>
      simp only [act, abort]
      split
      · exact ⟨rfl, id⟩
      · next caller _ =>
          exact rests_trans { c.withoutCaller key with hub := caller.drop c.hub } _ ⟨rfl, id⟩ (unheld_rests _)
  | release => exact rests_trans { c with held := false } _ ⟨rfl, id⟩ (unheld_rests _)
  | poll call =>
      simp only [act]
      split
      · split <;> exact ⟨rfl, id⟩
      · exact ⟨rfl, id⟩
  | recv | drain | dropStream | dropCall =>
      simp only [act]
      split <;> exact ⟨rfl, id⟩
  | purge | subscribe | onEvent | cancelHandler | advance | fire | far => exact ⟨rfl, id⟩

theorem act_joined (a : Act) : (c.act a).joined = (c.joined || a.closes) := by
  cases closes : a.closes with
  | false => rw [(act_rests closes).joined, Bool.or_false]
  | true =>
      cases a with
      | begin operation =>
          cases operation with
          | close => exact (Bool.or_true _).symm
          | _ => cases closes
      | _ => cases closes

theorem run_joined (acts : List Act) : (c.run acts).joined = (c.joined || acts.any Act.closes) := by
  induction acts generalizing c with
  | nil => exact (Bool.or_false _).symm
  | cons a acts ih => exact ih.trans (by rw [act_joined, List.any_cons, Bool.or_assoc])

theorem act_tasks (keyed : c.Keyed) (ended : c.tasksEnded = true) : (c.act a).tasksEnded = true := by
  obtain ⟨reader, writer⟩ := Bool.and_eq_true_iff.mp ended
  apply Bool.and_eq_true_iff.mpr
  constructor
  · cases closes : a.closes with
    | false => exact (act_rests closes).reader reader
    | true =>
        cases a with
        | begin operation =>
            cases operation with
            | close => exact reader
            | _ => cases closes
        | _ => cases closes
  · by_cases writes : a = .move .writer
    · subst writes
      change c.moveWriter.closeUnheld.writerEnded = true
      rw [writerEnded, unheld_writer]
      cases writing : c.writer with
      | ended => simp only [moveWriter, writing]
      | idle | sending => simp [writerEnded, writing] at writer
    · rw [writerEnded, (act_passes keyed a writes).writer]
      exact writer

theorem run_tasks (keyed : c.Keyed) (ended : c.tasksEnded = true) (acts : List Act) :
    (c.run acts).tasksEnded = true := by
  induction acts generalizing c with
  | nil => exact ended
  | cons a acts ih => exact ih (act_keyed keyed a) (act_tasks keyed ended)

structure Stops (c : Connection) : Prop where
  going : c.writerEnded = false
  ended : (c.act (.move .writer)).writerEnded = true
  closes : ∃ left, (left = c.link ∨ ∃ s, left = (c.link.send s).2) ∧ (c.act (.move .writer)).link = left.close.2

theorem writer_closes (going : c.writerEnded = false) (ended : c.moveWriter.writerEnded = true) :
    ∃ left, (left = c.link ∨ ∃ s, left = (c.link.send s).2) ∧ c.moveWriter.link = left.close.2 := by
  cases writing : c.writer with
  | ended => simp [writerEnded, writing] at going
  | idle =>
      simp only [moveWriter, writing] at ended ⊢
      split at ended
      · next closed =>
          rw [if_pos closed]
          exact ⟨c.link, Or.inl rfl, end_closes c⟩
      · split at ended
        · simp [writerEnded, writing] at ended
        · cases ended
  | sending o left =>
      rcases sent : c.link.send left with ⟨result, link⟩
      have same : link = (c.link.send left).2 := by rw [sent]
      simp only [moveWriter, writing, sent] at ended ⊢
      cases result with
      | done => cases ended
      | failed fault => exact ⟨link, Or.inr ⟨left, same⟩, fail_closes _ _ _⟩
      | waiting rest =>
          dsimp only at ended ⊢
          split at ended
          · next closed =>
              rw [if_pos closed]
              exact ⟨link, Or.inr ⟨left, same⟩, fail_closes _ _ _⟩
          · cases ended

theorem run_writer_ended (keyed : c.Keyed) (going : c.writerEnded = false) (acts : List Act)
    (ended : (c.run acts).writerEnded = true) :
    ∃ earlier rest, acts = earlier ++ .move .writer :: rest ∧ (c.run earlier).Stops := by
  induction acts using List.reverseRecOn with
  | nil => exact absurd (going.symm.trans ended) Bool.false_ne_true
  | append_singleton acts a ih =>
      cases was : (c.run acts).writerEnded with
      | true =>
          obtain ⟨earlier, rest, rfl, stops⟩ := ih was
          exact ⟨earlier, rest ++ [a], by simp, stops⟩
      | false =>
          rw [run_concat] at ended
          by_cases writes : a = .move .writer
          · subst writes
            have moved : (c.run acts).moveWriter.writerEnded = true := by
              change (c.run acts).moveWriter.closeUnheld.writerEnded = true at ended
              rwa [writerEnded, unheld_writer] at ended
            obtain ⟨left, from_, closed⟩ := writer_closes was moved
            exact ⟨acts, [], rfl, was, ended, left, from_, (unheld_aside _).link.trans closed⟩
          · rw [writerEnded, (act_passes (run_keyed keyed acts) a writes).writer] at ended
            exact absurd (was.symm.trans ended) Bool.false_ne_true

end

theorem learn_closing (tells : List (Call × Written)) (joins : Bool) :
    (Caller.closing joins).learn tells = .closing joins := by
  apply Caller.learn_induction (P := fun caller => caller = .closing joins) _ tells _ rfl
  rintro _ other result rfl
  rfl

-- With any number of others who close the connection, and whoever is dropped meanwhile.
theorem first_close_waits (config : Config) (link : Link) (before later : List Act) (result : Except Error Answer)
    (first : before.any Act.closes = false) :
    let c := (ofLink config link).run before
    let d := (c.act (.begin .close)).run later
    (c.nextCaller, result) ∈ d.finished →
      result = .ok .closed ∧ d.readerEnded = true ∧ d.writerEnded = true ∧
        ∃ earlier rest, before ++ .begin .close :: later = earlier ++ .move .writer :: rest ∧
          ((ofLink config link).run earlier).Stops := by
  intro c d finished
  have initial : (ofLink config link).Keyed := by simp [Keyed, ofLink]
  have keyed : c.Keyed := run_keyed initial before
  have filed : c.Filed := run_filed initial (initial_filed config link) before
  have untaken : c.joined = false := (run_joined before).trans first
  have opens : c.opening? .close = some (.inl (.closing true), c.hub.shutdown .closedHere) := by
    simp only [opening?, untaken, Bool.not_false]
  -- The result comes about in some act, which finds the reader and the writer ended.
  have follows : Follows d c.nextCaller (fun caller => caller = .closing true)
      (fun result => result = .ok .closed ∧ ∃ (x : Connection) (rest : List Act), x.tasksEnded = true ∧ x.Keyed ∧
        d = x.run rest) := by
    refine course_follows keyed filed .close _ opens (fun caller begins => ?_) (fun result begins => ?_) later ?_
    · cases begins
      rfl
    · cases begins
    · intro x b member
      obtain ⟨made, rest, rfl, same⟩ := mem_trace act _ later x b member
      have after : x.Keyed := same ▸ run_keyed (act_keyed keyed (.begin .close)) made
      have goesOn : d = x.run (b :: rest) := by
        rw [same]
        exact run_append _ made (b :: rest)
      constructor
      · rintro - _ caller - rfl moved
        simp only [Caller.move] at moved
        split at moved
        · cases moved
        · cases moved
          rfl
      · rintro - _ result - rfl moved
        simp only [Caller.move] at moved
        split at moved
        · next ended =>
            cases moved
            exact ⟨rfl, x, b :: rest, by simpa using ended, after, goesOn⟩
        · cases moved
      · rintro - _ tells rfl -
        exact learn_closing tells true
  obtain ⟨answer, x, rest, ended, after, goesOn⟩ := follows.ended result finished
  obtain ⟨reader, writer⟩ := Bool.and_eq_true_iff.mp (goesOn ▸ run_tasks after ended rest)
  have whole : d = (ofLink config link).run (before ++ .begin .close :: later) :=
    (run_append _ before (.begin .close :: later)).symm
  exact ⟨answer, reader, writer, run_writer_ended initial rfl _ (whole ▸ writer)⟩

-- Anybody else who closes the connection has an answer with the first move, whatever the reader and the writer are doing.
theorem other_close_answers (config : Config) (link : Link) (before : List Act) (other : before.any Act.closes = true) :
    let c := (ofLink config link).run before
    ((c.act (.begin .close)).act (.move (.caller c.nextCaller))).finished = c.finished ++
      [(c.nextCaller, .ok .closed)] := by
  intro c
  have initial : (ofLink config link).Keyed := by simp [Keyed, ofLink]
  have keyed : c.Keyed := run_keyed initial before
  have distinct : c.Distinct := run_distinct initial List.nodup_nil before
  have taken : c.joined = true := (run_joined before).trans other
  have opens : c.opening? .close = some (.inl (.closing false), c.hub.shutdown .closedHere) := by
    simp only [opening?, taken, Bool.not_true]
  have entered := begin_entered .close _ opens
  have held : (c.nextCaller, Caller.closing false) ∈ (c.act (.begin .close)).callers := by
    rw [entered.callers]
    exact List.mem_append_right _ List.mem_cons_self
  have found := caller_found (act_distinct keyed distinct (.begin .close)) _ _ held
  have same : c.finished = (c.act (.begin .close)).finished := by
    rw [entered.finished]
    exact (List.append_nil _).symm
  rw [same]
  exact move_finished _ _ _ _ found rfl

-- So it may come and go while the first still waits for the writer.
example : (((ofLink {} inMemory).run [.begin .close, .begin .close, .move (.caller 1)]).tasksEnded,
    ((ofLink {} inMemory).run [.begin .close, .begin .close, .move (.caller 1)]).finished.map (·.1)) = (false, [1]) :=
      rfl

end Connection

end DevTools
