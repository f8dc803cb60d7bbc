import DevTools.Proofs.Connection.Queue

set_option autoImplicit false

namespace DevTools

def Caller.learn (tells : List (Call × Written)) (caller : Caller) : Caller :=
  tells.foldl (fun caller t => caller.acknowledge t.1 t.2) caller

theorem Caller.learn_induction {P : Caller → Prop} (step : ∀ caller call result, P caller →
      P (caller.acknowledge call result))
    (tells : List (Call × Written)) (caller : Caller) (first : P caller) : P (caller.learn tells) := by
  induction tells generalizing caller with
  | nil => exact first
  | cons t tells ih => exact ih (caller.acknowledge t.1 t.2) (step caller t.1 t.2 first)

namespace Connection

def inHand (c : Connection) : List Outbound :=
  match c.writer with
  | .sending o _ => [o]
  | _ => []

def unsent (c : Connection) : List Outbound := c.inHand ++ c.hub.outbound

def completes? (c : Connection) (a : Act) : Option Outbound :=
  match a, c.writer with
  | .move .writer, .sending o left =>
      match (c.link.send left).1 with
      | .done => some o
      | _ => none
  | _, _ => none

def refuses? (c : Connection) (a : Act) : Option (Call × Error) :=
  match a, c.writer with
  | .move .writer, .sending o left =>
      match (c.link.send left).1 with
      | .failed fault => some (o.call, fault)
      | _ => none
  | _, _ => none

section
variable {c : Connection}

theorem unheld_writer (before : Connection) : before.closeUnheld.writer = before.writer := by
  simp only [closeUnheld]
  split <;> rfl

theorem unheld_outbound (before : Connection) : before.closeUnheld.hub.outbound = before.hub.outbound := by
  simp only [closeUnheld]
  split
  · rfl
  · exact shutdown_outbound before.hub .closedHere

theorem unheld_unsent (before : Connection) : before.closeUnheld.unsent = before.unsent := by
  simp only [unsent, inHand, unheld_writer, unheld_outbound]

def Tells (c after : Connection) (tells : List (Call × Written)) : Prop :=
  after.callers = c.callers.map (fun entry => (entry.1, entry.2.learn tells)) ∧ after.finished = c.finished

theorem tells_nothing (after : Connection) (callers : after.callers = c.callers)
    (finished : after.finished = c.finished) :
    Tells c after [] := by
  refine ⟨?_, finished⟩
  rw [callers]
  simp [Caller.learn]

theorem tells_more (middle : Connection) (tells : List (Call × Written)) (call : Call) (result : Written)
    (tells_ : Tells c middle tells) :
    Tells c (middle.acknowledge call result) (tells ++ [(call, result)]) := by
  obtain ⟨callers, finished⟩ := tells_
  refine ⟨?_, finished⟩
  simp [acknowledge, callers, Caller.learn, List.foldl_append]

theorem acknowledge_writing (call : Call) (result : Written) (caller : Caller) :
    (caller.acknowledge call result).writing? =
      caller.writing?.map fun (mine, written) => (mine, if mine = call then some result else written) := by
  cases caller with
  | sending mine written | asking _ _ mine written =>
      by_cases own : mine = call <;> simp [Caller.acknowledge, Caller.writing?, own]
  | _ => rfl

theorem told_writing (tells : List (Call × Written)) (caller : Caller) (call : Call) (written : Option Written)
    (writes : (caller.learn tells).writing? = some (call, written)) :
    (caller.writing? = some (call, written) ∧ call ∉ tells.map (·.1)) ∨ ∃ result, (call, result) ∈ tells ∧
      written = some result := by
  induction tells using List.reverseRecOn with
  | nil => exact Or.inl ⟨writes, by simp⟩
  | append_singleton tells t ih =>
      obtain ⟨told, result⟩ := t
      rw [Caller.learn, List.foldl_append, List.foldl_cons, List.foldl_nil, acknowledge_writing] at writes
      obtain ⟨⟨mine, before⟩, knew, same⟩ := Option.map_eq_some_iff.mp writes
      simp only [Prod.mk.injEq] at same
      obtain ⟨rfl, now⟩ := same
      split at now
      · next own =>
          subst own
          exact Or.inr ⟨result, by simp, now.symm⟩
      · next other =>
          subst now
          rcases ih knew with ⟨old, untold⟩ | ⟨earlier, member, same⟩
          · exact Or.inl ⟨old, by simpa [other] using untold⟩
          · exact Or.inr ⟨earlier, List.mem_append_left _ member, same⟩

theorem end_writer_tells (before : Connection) (tells : List (Call × Written)) (told : Tells c before tells) :
    Tells c before.endWriter (tells ++ before.hub.outbound.map fun o => (o.call, .error .connectionClosed)) := by
  have all : ∀ (queue : List Outbound) (middle : Connection) (tells : List (Call × Written)), Tells c middle tells →
      Tells c (queue.foldl (fun c o => c.acknowledge o.call (.error .connectionClosed)) middle)
        (tells ++ queue.map fun o => (o.call, .error .connectionClosed)) := by
    intro queue
    induction queue with
    | nil =>
        intro middle tells told
        simpa using told
    | cons o queue ih =>
        intro middle tells told
        have rest := ih (middle.acknowledge o.call (.error .connectionClosed)) _ (tells_more middle tells o.call _ told)
        simpa using rest
  exact all before.hub.outbound before tells told

theorem fail_write_tells (before : Connection) (call : Call) (fault : Error) (callers : before.callers = c.callers)
    (finished : before.finished = c.finished) :
    Tells c (before.failWrite call fault)
      ((call, .error fault) :: before.hub.outbound.map fun o => (o.call, .error .connectionClosed)) := by
  have told : Tells c ((before.acknowledge call (.error fault)).shutdown (.writeFailed fault.message))
      [(call, .error fault)] :=
    tells_more before [] call (.error fault) (tells_nothing before callers finished)
  have all := end_writer_tells _ _ told
  have same : ((before.acknowledge call (.error fault)).shutdown (.writeFailed fault.message)).hub.outbound =
      before.hub.outbound :=
    shutdown_outbound before.hub _
  rw [same] at all
  exact all

-- What the writer's move tells: of the frame that it completes that it went through, and of every frame that
-- it drops that it did not, and why. Those that it tells of are the first that are to be sent.
structure Reports (c after : Connection) (tells : List (Call × Written)) : Prop where
  told : Tells c after tells
  completed : ∀ call, (call, .ok ()) ∈ tells → ∃ o, c.completes? (.move .writer) = some o ∧ o.call = call
  refused : ∀ call fault, (call, .error fault) ∈ tells → fault = .connectionClosed ∨
    c.refuses? (.move .writer) = some (call, fault)
  refuses : ∀ call fault, c.refuses? (.move .writer) = some (call, fault) → (call, .error fault) ∈ tells
  parts : c.unsent.map (·.call) = tells.map (·.1) ++ after.unsent.map (·.call)

theorem still_reports (after : Connection) (callers : after.callers = c.callers)
    (finished : after.finished = c.finished)
    (unsent : after.unsent = c.unsent) (refuses : c.refuses? (.move .writer) = none) : Reports c after [] :=
  ⟨tells_nothing after callers finished, by simp, by simp, by simp [refuses], by simp [unsent]⟩

theorem end_writer_unsent (before : Connection) : before.endWriter.unsent = [] := rfl

theorem fail_reports (before : Connection) (o : Outbound) (left : Sending) (writing : c.writer = .sending o left)
    (fault : Error)
    (because : c.refuses? (.move .writer) = some (o.call, fault) ∨
      (fault = .connectionClosed ∧ c.refuses? (.move .writer) = none))
    (hub : before.hub = c.hub) (callers : before.callers = c.callers) (finished : before.finished = c.finished) :
    ∃ tells, Reports c (before.failWrite o.call fault) tells := by
  refine ⟨_, fail_write_tells before o.call fault callers finished, ?_, ?_, ?_, ?_⟩
  · intro call member
    simp at member
  · intro call why member
    rcases List.mem_cons.mp member with first | queued
    · cases first
      exact because.elim Or.inr fun closes => Or.inl closes.1
    · obtain ⟨_, _, same⟩ := List.mem_map.mp queued
      cases same
      exact Or.inl rfl
  · intro call why refuses
    rcases because with own | ⟨_, none_⟩
    · cases own.symm.trans refuses
      exact List.mem_cons_self
    · rw [none_] at refuses
      cases refuses
  · have nothing : (before.failWrite o.call fault).unsent = [] := end_writer_unsent _
    have waiting : c.unsent = o :: c.hub.outbound := by
      simp only [unsent, inHand, writing, List.cons_append, List.nil_append]
    simp [nothing, waiting, hub, Function.comp_def]

theorem writer_reports : ∃ tells, Reports c c.moveWriter tells := by
  cases writing : c.writer with
  | ended =>
      have moved : c.moveWriter = c := by simp only [moveWriter, writing]
      rw [moved]
      exact ⟨[], still_reports c rfl rfl rfl (by simp only [refuses?, writing])⟩
  | idle =>
      have keeps : c.refuses? (.move .writer) = none := by simp only [refuses?, writing]
      cases closed : c.hub.isClosed with
      | true =>
          have moved : c.moveWriter = c.endWriter := by simp [moveWriter, writing, closed]
          rw [moved]
          refine ⟨_, end_writer_tells c [] (tells_nothing c rfl rfl), ?_, ?_, ?_, ?_⟩
          · intro call member
            simp at member
          · intro call why member
            obtain ⟨_, _, same⟩ := List.mem_map.mp member
            cases same
            exact Or.inl rfl
          · simp [keeps]
          · rw [end_writer_unsent]
            simp [unsent, inHand, writing]
      | false =>
          cases queued : c.hub.outbound with
          | nil =>
              have moved : c.moveWriter = c := by simp [moveWriter, writing, closed, queued]
              rw [moved]
              exact ⟨[], still_reports c rfl rfl rfl keeps⟩
          | cons o rest =>
              have moved : c.moveWriter = { c with hub.outbound := rest, writer := .sending o (.ofFrame o.frame) } := by
                simp [moveWriter, writing, closed, queued]
              rw [moved]
              exact ⟨[], still_reports _ rfl rfl (by simp [unsent, inHand, writing, queued]) keeps⟩
  | sending o left =>
      rcases sent : c.link.send left with ⟨result, link⟩
      cases result with
      | done =>
          have moved : c.moveWriter = { c with link, writer := .idle }.acknowledge o.call (.ok ()) := by
            simp [moveWriter, writing, sent]
          rw [moved]
          refine ⟨_, tells_more { c with link, writer := .idle } [] o.call (.ok ()) (tells_nothing _ rfl rfl), ?_,
            by simp, ?_, ?_⟩
          · intro call member
            simp only [List.nil_append, List.mem_singleton, Prod.mk.injEq] at member
            exact ⟨o, by simp [completes?, writing, sent], member.1.symm⟩
          · simp [refuses?, writing, sent]
          · simp [unsent, inHand, writing, acknowledge]
      | failed fault =>
          have moved : c.moveWriter = { c with link }.failWrite o.call fault := by simp [moveWriter, writing, sent]
          rw [moved]
          exact fail_reports _ o left writing fault (Or.inl (by simp only [refuses?, writing, sent])) rfl rfl rfl
      | waiting rest =>
          have keeps : c.refuses? (.move .writer) = none := by simp only [refuses?, writing, sent]
          cases closed : c.hub.isClosed with
          | true =>
              have moved :
                  c.moveWriter = { c with link, writer := .sending o rest }.failWrite o.call .connectionClosed := by
                simp [moveWriter, writing, sent, closed]
              rw [moved]
              exact fail_reports _ o left writing .connectionClosed (Or.inr ⟨rfl, keeps⟩) rfl rfl rfl
          | false =>
              have moved : c.moveWriter = { c with link, writer := .sending o rest } := by
                simp [moveWriter, writing, sent, closed]
              rw [moved]
              exact ⟨[], still_reports _ rfl rfl (by simp [unsent, inHand, writing]) keeps⟩

theorem writer_unsent : c.unsent = (c.completes? (.move .writer)).toList ++ c.moveWriter.unsent ∨
    (c.completes? (.move .writer) = none ∧ c.moveWriter.writerEnded = true) := by
  cases writing : c.writer with
  | ended => exact Or.inl (by simp [moveWriter, completes?, writing])
  | idle =>
      cases closed : c.hub.isClosed with
      | true => exact Or.inr (by simp [moveWriter, completes?, writing, closed, endWriter, writerEnded])
      | false =>
          left
          cases queued : c.hub.outbound with
          | nil => simp [moveWriter, completes?, writing, closed, queued]
          | cons o rest => simp [moveWriter, completes?, unsent, inHand, writing, closed, queued]
  | sending o left =>
      rcases sent : c.link.send left with ⟨result, link⟩
      cases result with
      | done => exact Or.inl (by simp [moveWriter, completes?, unsent, inHand, acknowledge, writing, sent])
      | failed fault =>
          exact Or.inr (by simp [moveWriter, completes?, failWrite, endWriter, writerEnded, writing, sent])
      | waiting rest =>
          cases closed : c.hub.isClosed with
          | true => exact Or.inr
                      (by simp [moveWriter, completes?, failWrite, endWriter, writerEnded, writing, sent, closed])
          | false => exact Or.inl (by simp [moveWriter, completes?, unsent, inHand, writing, sent, closed])

end

end Connection

end DevTools
