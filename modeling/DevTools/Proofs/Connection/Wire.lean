import DevTools.Proofs.Connection.Outbox
import DevTools.Proofs.Transport.Outlet

set_option autoImplicit false

namespace DevTools

def overPipe (inlet : Inlet) (outlet : Outlet) : Link := { transport := .pipe inlet outlet }

def Link.accepted (l : Link) : Bytes :=
  match l.transport with
  | .pipe _ outlet => outlet.accepted
  | _ => []

def Link.IsPipe (l : Link) : Prop := ∃ inlet outlet, l.transport = .pipe inlet outlet

def wire (queue : List Outbound) : Bytes := queue.flatMap fun o => o.frame ++ [Ascii.nul]

theorem wire_append (queue more : List Outbound) : wire (queue ++ more) = wire queue ++ wire more := List.flatMap_append

theorem split_frames_left (s begun : Bytes) : (Link.splitFrames begun s).2.length ≤ begun.length + s.length := by
  induction s generalizing begun with
  | nil => simp [Link.splitFrames]
  | cons b s ih =>
      simp only [Link.splitFrames]
      split
      · have bound := ih []
        simp only [List.length_nil, List.length_cons] at bound ⊢
        omega
      · have bound := ih (b :: begun)
        simp only [List.length_cons] at bound ⊢
        omega

theorem receive_accepted (l : Link) (pipe : l.IsPipe) : l.receive.2.IsPipe ∧ l.receive.2.accepted = l.accepted := by
  obtain ⟨inlet, outlet, transport⟩ := pipe
  simp only [Link.receive, transport, Link.accepted]
  exact ⟨⟨_, _, rfl⟩, rfl⟩

theorem close_accepted (l : Link) (pipe : l.IsPipe) : l.close.2.IsPipe ∧ l.close.2.accepted = l.accepted := by
  obtain ⟨inlet, outlet, transport⟩ := pipe
  simp only [Link.close, transport, Link.accepted, Outlet.close]
  split <;> exact ⟨⟨_, _, rfl⟩, rfl⟩

theorem far_accepted (l : Link) (pipe : l.IsPipe) (deed : Far) : (l.far deed).IsPipe ∧
    (deed ≠ .look → (l.far deed).accepted = l.accepted) ∧ (l.far deed).accepted.length ≤ l.accepted.length := by
  obtain ⟨inlet, outlet, transport⟩ := pipe
  have same : ∀ after : Link, (∃ inlet outlet', after.transport = .pipe inlet outlet' ∧
      outlet'.accepted = outlet.accepted) →
      after.IsPipe ∧ (deed ≠ .look → after.accepted = l.accepted) ∧ after.accepted.length ≤ l.accepted.length := by
    rintro after ⟨inlet', outlet', made, accepted⟩
    have equal : after.accepted = l.accepted := by simp only [Link.accepted, made, transport, accepted]
    exact ⟨⟨inlet', outlet', made⟩, fun _ => equal, Nat.le_of_eq (congrArg List.length equal)⟩
  have still := same l ⟨inlet, outlet, transport, rfl⟩
  cases deed with
  | arrive arrivals =>
      simp only [Link.far, transport]
      split
      · exact still
      · exact same _ ⟨_, _, rfl, rfl⟩
  | message m =>
      have nothing : l.far (.message m) = l := by simp only [Link.far, Link.post, transport]
      rw [nothing]
      exact still
  | hand handed =>
      have nothing : l.far (.hand handed) = l := by simp only [Link.far, Link.hand, transport]
      rw [nothing]
      exact still
  | hangUp =>
      simp only [Link.far, Link.hangUp, transport]
      exact same _ ⟨_, _, rfl, rfl⟩
  | snap =>
      simp only [Link.far, Link.snap, transport]
      exact same _ ⟨_, _, rfl, rfl⟩
  | pace =>
      simp only [Link.far, transport]
      exact same _ ⟨_, _, rfl, rfl⟩
  | script stalled failWrite failClose =>
      have nothing : l.far (.script stalled failWrite failClose) = l := by simp only [Link.far, transport]
      rw [nothing]
      exact still
  | look =>
      simp only [Link.far, Link.collect, transport]
      split
      · exact same _ ⟨inlet, outlet, rfl, rfl⟩
      · have bound := split_frames_left outlet.accepted []
        simp only [List.length_nil, Nat.zero_add] at bound
        refine ⟨⟨_, _, rfl⟩, fun other => absurd rfl other, ?_⟩
        simp only [Link.accepted, transport]
        exact bound

theorem send_accepted (l : Link) (pipe : l.IsPipe) (s : Sending) : ∃ took, (l.send s).2.IsPipe ∧
    (l.send s).2.accepted = l.accepted ++ took ∧ Outlet.Leaves s.remaining took (l.send s).1 := by
  obtain ⟨inlet, outlet, transport⟩ := pipe
  obtain ⟨took, takes, leaves⟩ := outlet.send_takes s
  simp only [Link.send, transport, Link.accepted]
  exact ⟨took, ⟨_, _, rfl⟩, takes, leaves⟩

namespace Connection

def accepts (c : Connection) (a : Act) : Bytes := (c.act a).link.accepted.drop c.link.accepted.length

def carried (c : Connection) (acts : List Act) : Bytes := (trace act c acts).flatMap fun (x, a) => x.accepts a

-- What the pipe has still to take of the frames that are not sent.
def owed (c : Connection) : Bytes :=
  (match c.writer with
    | .sending _ left => left.remaining
    | _ => []) ++ wire c.hub.outbound

-- A pipe has carried so much when so much was queued and so much went through. As long as the writer goes
-- on, the rest is what it owes.
structure Carries (c : Connection) (queued completed : List Outbound) (carried : Bytes) : Prop where
  pipe : c.link.IsPipe
  order : completed <+: queued
  bytes : carried <+: wire queued
  whole : wire completed <+: carried
  unsent : c.writerEnded = false → queued = completed ++ c.unsent
  owed : c.writerEnded = false → carried ++ c.owed = wire queued

section
variable {c : Connection} {a : Act} {sent done : List Outbound} {bytes : Bytes}

theorem reader_link (pipe : c.link.IsPipe) :
    c.moveReader.link.IsPipe ∧ c.moveReader.link.accepted = c.link.accepted := by
  have received := receive_accepted c.link pipe
  simp only [moveReader]
  split
  · exact ⟨pipe, rfl⟩
  · rcases received_ : c.link.receive with ⟨result, link⟩
    rw [received_] at received
    cases result <;> exact received

theorem other_accepted (pipe : c.link.IsPipe) (other : a ≠ .move .writer) : (c.act a).link.IsPipe ∧
    (a ≠ .far .look → (c.act a).link.accepted = c.link.accepted) ∧
      (c.act a).link.accepted.length ≤ c.link.accepted.length := by
  have still : ∀ after : Link, after.IsPipe → after.accepted = c.link.accepted →
      after.IsPipe ∧ (a ≠ .far .look → after.accepted = c.link.accepted) ∧
        after.accepted.length ≤ c.link.accepted.length :=
    fun after made same => ⟨made, fun _ => same, Nat.le_of_eq (congrArg List.length same)⟩
  cases aside : a.isAside with
  | true =>
      rw [(act_aside aside).link]
      exact still _ pipe rfl
  | false =>
      cases a with
      | far deed =>
          obtain ⟨made, same, fewer⟩ := far_accepted c.link pipe deed
          exact ⟨made, fun look => same fun is => look (is ▸ rfl), fewer⟩
      | advance | fire => exact still _ pipe rfl
      | move activity =>
          cases activity with
          | reader =>
              obtain ⟨made, same⟩ := reader_link pipe
              have link : (c.act (.move .reader)).link = c.moveReader.link := (unheld_aside _).link
              rw [link]
              exact still _ made same
          | writer => exact absurd rfl other
          | caller | handler => cases aside
      | _ => cases aside

theorem other_accepts (pipe : c.link.IsPipe) (other : a ≠ .move .writer) : c.accepts a = [] :=
  List.drop_eq_nil_of_le (other_accepted pipe other).2.2

theorem other_carries (keyed : c.Keyed) (carries : c.Carries sent done bytes) (other : a ≠ .move .writer) :
    (c.act a).Carries (sent ++ c.queues a) done bytes := by
  have passes := act_passes keyed a other
  have grows : wire sent <+: wire (sent ++ c.queues a) := wire_append sent (c.queues a) ▸ List.prefix_append _ _
  have ended : (c.act a).writerEnded = c.writerEnded := by simp only [writerEnded, passes.writer]
  refine ⟨(other_accepted carries.pipe other).1, carries.order.trans (List.prefix_append _ _),
    carries.bytes.trans grows,
    carries.whole, ?_, ?_⟩
  · intro going
    rw [carries.unsent (ended ▸ going)]
    simp only [Connection.unsent, inHand, passes.writer, passes.queued.outbound, List.append_assoc]
  · intro going
    have owes := carries.owed (ended ▸ going)
    rw [wire_append, ← owes]
    simp only [Connection.owed, passes.writer, passes.queued.outbound, wire_append, List.append_assoc]

theorem carries_unheld (before : Connection) (carries : before.Carries sent done bytes) :
    before.closeUnheld.Carries sent done bytes := by
  obtain ⟨pipe, order, whole, parts, unsent, owed⟩ := carries
  refine ⟨(unheld_aside before).link ▸ pipe, order, whole, parts, ?_, ?_⟩
  · intro going
    rw [writerEnded, unheld_writer] at going
    rw [unheld_unsent]
    exact unsent going
  · intro going
    rw [writerEnded, unheld_writer] at going
    simp only [Connection.owed, unheld_writer, unheld_outbound]
    exact owed going

theorem carries_stop (carries : c.Carries sent done bytes) (going : c.writerEnded = false) (after : Connection)
    (pipe : after.link.IsPipe)
    (ended : after.writerEnded = true) (took : Bytes) (next : took <+: c.owed) :
    after.Carries sent done (bytes ++ took) := by
  have fits : bytes ++ took <+: wire sent := by
    rw [← carries.owed going]
    exact (List.prefix_append_right_inj bytes).mpr next
  refine ⟨pipe, carries.order, fits, carries.whole.trans (List.prefix_append _ _), ?_, ?_⟩ <;>
    · intro still
      rw [ended] at still
      cases still

theorem carries_on (carries : c.Carries sent done bytes) (going : c.writerEnded = false) (after : Connection)
    (pipe : after.link.IsPipe)
    (unsent : after.unsent = c.unsent) (took : Bytes) (next : c.owed = took ++ after.owed) :
    after.Carries sent done (bytes ++ took) := by
  have owes := carries.owed going
  rw [next, ← List.append_assoc] at owes
  exact ⟨pipe, carries.order, owes ▸ List.prefix_append _ _, carries.whole.trans (List.prefix_append _ _),
    fun _ => by rw [unsent]; exact carries.unsent going, fun _ => owes⟩

theorem carries_done (carries : c.Carries sent done bytes) (o : Outbound) (left : Sending)
    (writing : c.writer = .sending o left)
    (after : Connection) (pipe : after.link.IsPipe) (idle : after.writer = .idle)
    (outbound : after.hub.outbound = c.hub.outbound) :
    after.Carries sent (done ++ [o]) (bytes ++ left.remaining) := by
  have going : c.writerEnded = false := by simp only [writerEnded, writing]
  have split : sent = done ++ [o] ++ c.hub.outbound := by
    rw [carries.unsent going]
    simp [Connection.unsent, inHand, writing]
  have owes : bytes ++ left.remaining ++ wire c.hub.outbound = wire sent := by
    rw [← carries.owed going]
    simp only [Connection.owed, writing, List.append_assoc]
  have whole : bytes ++ left.remaining = wire (done ++ [o]) := by
    rw [split, wire_append] at owes
    exact List.append_cancel_right owes
  refine ⟨pipe, split ▸ List.prefix_append _ _, owes ▸ List.prefix_append _ _, whole ▸ List.prefix_refl _, ?_, ?_⟩
  · intro _
    rw [split]
    simp [Connection.unsent, inHand, idle, outbound]
  · intro _
    rw [← owes]
    simp only [Connection.owed, idle, outbound, List.nil_append]

theorem accepts_of (took : Bytes) (accepted : (c.act a).link.accepted = c.link.accepted ++ took) :
    c.accepts a = took := by
  rw [accepts, accepted, List.drop_left]

theorem end_link (before : Connection) (pipe : before.link.IsPipe) :
    before.endWriter.link.IsPipe ∧ before.endWriter.link.accepted = before.link.accepted := by
  rw [end_closes]
  exact close_accepted before.link pipe

theorem fail_link (before : Connection) (call : Call) (fault : Error) (pipe : before.link.IsPipe) :
    (before.failWrite call fault).link.IsPipe ∧ (before.failWrite call fault).link.accepted = before.link.accepted :=
  end_link ((before.acknowledge call (.error fault)).shutdown (.writeFailed fault.message)) pipe

theorem writer_carries (carries : c.Carries sent done bytes) :
    ∃ took, c.moveWriter.link.accepted = c.link.accepted ++ took ∧
    c.moveWriter.Carries sent (done ++ (c.completes? (.move .writer)).toList) (bytes ++ took) := by
  have still : c.Carries sent (done ++ []) (bytes ++ []) := by rw [List.append_nil, List.append_nil]; exact carries
  cases writing : c.writer with
  | ended =>
      have moved : c.moveWriter = c := by simp only [moveWriter, writing]
      have nothing : c.completes? (.move .writer) = none := by simp only [completes?, writing]
      rw [moved, nothing]
      exact ⟨[], (List.append_nil _).symm, still⟩
  | idle =>
      have going : c.writerEnded = false := by simp only [writerEnded, writing]
      have nothing : c.completes? (.move .writer) = none := by simp only [completes?, writing]
      rw [nothing, Option.toList_none, List.append_nil]
      cases closed : c.hub.isClosed with
      | true =>
          have moved : c.moveWriter = c.endWriter := by simp [moveWriter, writing, closed]
          obtain ⟨pipe, accepted⟩ := end_link c carries.pipe
          rw [moved, accepted]
          exact ⟨[], (List.append_nil _).symm, carries_stop carries going _ pipe rfl [] List.nil_prefix⟩
      | false =>
          cases queued : c.hub.outbound with
          | nil =>
              have moved : c.moveWriter = c := by simp [moveWriter, writing, closed, queued]
              rw [moved]
              exact ⟨[], (List.append_nil _).symm, by rw [List.append_nil]; exact carries⟩
          | cons o rest =>
              have moved : c.moveWriter = { c with hub.outbound := rest, writer := .sending o (.ofFrame o.frame) } := by
                simp [moveWriter, writing, closed, queued]
              have waits : c.moveWriter.unsent = c.unsent := by simp [moved, Connection.unsent, inHand, writing, queued]
              have owes : c.owed = [] ++ c.moveWriter.owed := by
                simp [moved, Connection.owed, writing, queued, Sending.remaining, Sending.ofFrame, wire]
              have pipe : c.moveWriter.link.IsPipe := by rw [moved]; exact carries.pipe
              exact ⟨[], by simp [moved], carries_on carries going _ pipe waits [] owes⟩
  | sending o left =>
      have going : c.writerEnded = false := by simp only [writerEnded, writing]
      have owes : c.owed = left.remaining ++ wire c.hub.outbound := by simp only [Connection.owed, writing]
      obtain ⟨took, pipe, accepted, leaves⟩ := send_accepted c.link carries.pipe left
      rcases sends : c.link.send left with ⟨result, link⟩
      rw [sends] at pipe accepted leaves
      dsimp only at pipe accepted leaves
      refine ⟨took, ?_⟩
      cases result with
      | done =>
          have moved : c.moveWriter = { c with link, writer := .idle }.acknowledge o.call (.ok ()) := by
            simp [moveWriter, writing, sends]
          have goes : c.completes? (.move .writer) = some o := by simp only [completes?, writing, sends]
          rw [moved, goes]
          cases leaves
          exact ⟨accepted, carries_done carries o left writing _ pipe rfl rfl⟩
      | failed fault =>
          have moved : c.moveWriter = { c with link }.failWrite o.call fault := by simp [moveWriter, writing, sends]
          have nothing : c.completes? (.move .writer) = none := by simp only [completes?, writing, sends]
          obtain ⟨pipeAfter, same⟩ := fail_link { c with link } o.call fault pipe
          rw [moved, nothing, Option.toList_none, List.append_nil, same]
          refine ⟨accepted, carries_stop carries going _ pipeAfter rfl took ?_⟩
          rw [owes]
          exact leaves.trans (List.prefix_append _ _)
      | waiting rest =>
          have nothing : c.completes? (.move .writer) = none := by simp only [completes?, writing, sends]
          have next : c.owed = took ++ (rest.remaining ++ wire c.hub.outbound) := by
            rw [owes, ← List.append_assoc, ← leaves]
          rw [nothing, Option.toList_none, List.append_nil]
          cases closed : c.hub.isClosed with
          | true =>
              have moved :
                  c.moveWriter = { c with link, writer := .sending o rest }.failWrite o.call .connectionClosed := by
                simp [moveWriter, writing, sends, closed]
              obtain ⟨pipeAfter, same⟩ :=
                fail_link { c with link, writer := .sending o rest } o.call .connectionClosed pipe
              rw [moved, same]
              exact ⟨accepted, carries_stop carries going _ pipeAfter rfl took (next ▸ List.prefix_append _ _)⟩
          | false =>
              have moved : c.moveWriter = { c with link, writer := .sending o rest } := by
                simp [moveWriter, writing, sends, closed]
              rw [moved]
              refine ⟨accepted, carries_on carries going _ pipe ?_ took next⟩
              simp only [Connection.unsent, inHand, writing]

theorem act_carries (keyed : c.Keyed) (carries : c.Carries sent done bytes) (a : Act) :
    (c.act a).Carries (sent ++ c.queues a) (done ++ (c.completes? a).toList) (bytes ++ c.accepts a) := by
  by_cases writes : a = .move .writer
  · subst writes
    obtain ⟨took, accepted, next⟩ := writer_carries carries
    have link : (c.act (.move .writer)).link = c.moveWriter.link := (unheld_aside _).link
    have silent : c.queues (.move .writer) = [] := rfl
    rw [accepts_of took (link ▸ accepted), silent, List.append_nil]
    exact carries_unheld _ next
  · rw [other_accepts carries.pipe writes, other_completes writes, Option.toList_none, List.append_nil, List.append_nil]
    exact other_carries keyed carries writes

theorem carried_concat (acts : List Act) (a : Act) :
    c.carried (acts ++ [a]) = c.carried acts ++ (c.run acts).accepts a := by
  rw [carried, trace_concat, List.flatMap_append, List.flatMap_singleton]
  rfl

theorem run_carries (keyed : c.Keyed) (carries : c.Carries [] [] []) (acts : List Act) :
    (c.run acts).Carries (c.queued acts) (c.completed acts) (c.carried acts) := by
  apply run_induction act (P := fun acts x => x.Carries (c.queued acts) (c.completed acts) (c.carried acts)) c carries
  intro acts a ih
  rw [queued_concat, completed_concat, carried_concat]
  exact act_carries (run_keyed keyed acts) ih a

theorem run_queues (keyed : c.Keyed) (acts : List Act) : (c.queued acts).map (·.call) = c.issued acts ∧
    ∀ o ∈ c.queued acts, ∃ r : Request, r.id = o.call.id ∧ o.frame = (Message.request r).encode := by
  induction acts generalizing c with
  | nil => exact ⟨rfl, fun o member => nomatch member⟩
  | cons a acts ih =>
      obtain ⟨first, framed⟩ := act_queues keyed a
      obtain ⟨others, later⟩ := ih (act_keyed keyed a)
      have grows : c.queued (a :: acts) = c.queues a ++ (c.act a).queued acts := rfl
      rw [grows, issued_cons, List.map_append, first, others]
      refine ⟨rfl, ?_⟩
      intro o member
      rcases List.mem_append.mp member with now | then_
      · exact framed o now
      · exact later o then_

theorem issued_numbers (sound : c.Sound) (keyed : c.Keyed) (acts : List Act) (start : Nat)
    (next : c.hub.calls.nextId = UInt64.ofNat start) :
    ∃ numbers : List Nat, numbers.Pairwise (· < ·) ∧ (c.issued acts).map (·.id) = numbers.map UInt64.ofNat ∧
      ∀ n ∈ numbers, start ≤ n ∧ n < start + c.allocations acts := by
  induction acts generalizing c start with
  | nil => exact ⟨[], List.Pairwise.nil, rfl, fun n member => nomatch member⟩
  | cons a acts ih =>
      rw [issued_cons, List.map_append]
      rcases (act_issues sound keyed a).1 with ⟨same, nothing⟩ | ⟨counted, own⟩
      · have as_before : c.allocations (a :: acts) = (c.act a).allocations acts := by simp [allocations, trace, same]
        rw [nothing, as_before]
        exact ih (act_sound sound a) (act_keyed keyed a) start (same.trans next)
      · have moved : c.hub.calls.nextId + 1 ≠ c.hub.calls.nextId := by
          intro stuck
          have gap := congrArg UInt64.toNat stuck
          rw [UInt64.toNat_add] at gap
          have small := c.hub.calls.nextId.toNat_lt
          change (c.hub.calls.nextId.toNat + 1) % 2 ^ 64 = _ at gap
          omega
        have one_more : c.allocations (a :: acts) = (c.act a).allocations acts + 1 := by
          simp [allocations, trace, counted, moved]
        have value : (c.act a).hub.calls.nextId = UInt64.ofNat (start + 1) := by
          rw [counted, next, UInt64.ofNat_add]; rfl
        obtain ⟨numbers, increasing, same, bounds⟩ := ih (act_sound sound a) (act_keyed keyed a) (start + 1) value
        rw [same, one_more]
        cases issues : c.issues? a with
        | none => exact ⟨numbers, increasing, rfl, fun n member => by have := bounds n member; omega⟩
        | some call =>
            refine ⟨start :: numbers, ?_, ?_, ?_⟩
            · exact List.pairwise_cons.mpr ⟨fun n member => (bounds n member).1, increasing⟩
            · have id := own call issues
              simp [id, next]
            · intro n member
              rcases List.mem_cons.mp member with rfl | later
              · omega
              · have := bounds n later
                omega

theorem completes_flushed (pipe : c.link.IsPipe) (o : Outbound) (goes : c.completes? a = some o) :
    ∃ inlet outlet, (c.act a).link.transport = .pipe inlet outlet ∧ outlet.flush = .done := by
  by_cases writes : a = .move .writer
  · subst writes
    obtain ⟨inlet, outlet, transport⟩ := pipe
    simp only [completes?] at goes
    split at goes
    · next _ _ own left _ writing =>
        have sends : c.link.send left = ((outlet.send left).1,
            c.link.withTransport (.pipe inlet (outlet.send left).2)) := by
          simp only [Link.send, transport]
        rw [sends] at goes
        dsimp only at goes
        split at goes
        · next sent =>
            have moved : (c.act (.move .writer)).link = c.link.withTransport (.pipe inlet (outlet.send left).2) := by
              refine ((unheld_aside _).link).trans ?_
              simp only [moveWriter, writing, sends, sent]
              rfl
            exact ⟨inlet, (outlet.send left).2, by rw [moved]; rfl, outlet.send_flushed left sent⟩
        · cases goes
    · cases goes
  · rw [other_completes writes] at goes
    cases goes

theorem run_accepted (keyed : c.Keyed) (carries : c.Carries [] [] []) (acts : List Act)
    (unseen : ∀ a ∈ acts, a ≠ .far .look) :
    (c.run acts).link.accepted = c.link.accepted ++ c.carried acts := by
  induction acts using List.reverseRecOn with
  | nil => exact (List.append_nil _).symm
  | append_singleton acts a ih =>
      have before := ih fun b member => unseen b (List.mem_append_left _ member)
      have now : (c.run (acts ++ [a])).link.accepted = (c.run acts).link.accepted ++ (c.run acts).accepts a := by
        rw [run_append]
        change ((c.run acts).act a).link.accepted = _
        have pipe := (run_carries keyed carries acts).pipe
        by_cases writes : a = .move .writer
        · subst writes
          obtain ⟨took, accepted, _⟩ := writer_carries (run_carries keyed carries acts)
          have link : ((c.run acts).act (.move .writer)).link = (c.run acts).moveWriter.link := (unheld_aside _).link
          rw [accepts_of took (link ▸ accepted), link, accepted]
        · rw [other_accepts pipe writes, List.append_nil]
          exact (other_accepted pipe writes).2.1 (unseen a (by simp))
      rw [now, before, carried_concat, List.append_assoc]

end

-- How the frames of a run get out. `carried` are the bytes that the pipe has accepted, `queued` the frames in
-- the order in which they were queued, `completed` those that were written and flushed as a whole.
structure InOrder (c : Connection) (acts : List Act) : Prop where
  accepted : (∀ a ∈ acts, a ≠ .far .look) → (c.run acts).link.accepted = c.link.accepted ++ c.carried acts
  carried : c.carried acts <+: wire (c.queued acts)
  frames : ∀ o ∈ c.queued acts, ∃ r : Request, r.id = o.call.id ∧ o.frame = (Message.request r).encode
  numbered : ∃ numbers : List Nat, numbers.Pairwise (· < ·) ∧
    (c.queued acts).map (·.call.id) = numbers.map UInt64.ofNat ∧
    ∀ n ∈ numbers, 0 < n ∧ n ≤ c.allocations acts
  increasing : c.allocations acts < UInt64.size - 1 → (c.queued acts).Pairwise fun one other =>
    one.call.id < other.call.id
  completed : c.completed acts <+: c.queued acts ∧ wire (c.completed acts) <+: c.carried acts
  flushed : ∀ x a o, (x, a) ∈ trace act c acts → x.completes? a = some o →
    ∃ inlet outlet, (x.act a).link.transport = .pipe inlet outlet ∧ outlet.flush = .done
  sent : ∀ key call, (key, .ok (.call call)) ∈ (c.run acts).finished → ∃ o ∈ c.completed acts, o.call = call
  -- Neither who gives up nor anyone else has to do with the frames on their way.
  untouched : ∀ a, a ≠ .move .writer → (∀ operation, a ≠ .begin operation) →
    ((c.run acts).act a).hub.outbound = (c.run acts).hub.outbound ∧ ((c.run acts).act a).writer = (c.run acts).writer ∧
      (c.run acts).accepts a = []

theorem frames_written_in_order (config : Config) (inlet : Inlet) (outlet : Outlet) (acts : List Act) :
    (ofLink config (overPipe inlet outlet)).InOrder acts := by
  have keyed := initial_keyed config (overPipe inlet outlet)
  have initial : (ofLink config (overPipe inlet outlet)).Carries [] [] [] :=
    ⟨⟨inlet, outlet, rfl⟩, List.prefix_refl _, List.prefix_refl _, List.prefix_refl _, fun _ => rfl, fun _ => rfl⟩
  have sound := initial_sound config (overPipe inlet outlet)
  have untold := initial_truthful config (overPipe inlet outlet)
  have carries := run_carries keyed initial acts
  obtain ⟨calls, frames⟩ := run_queues keyed acts
  have ids : ((ofLink config (overPipe inlet outlet)).queued acts).map (·.call.id) =
      ((ofLink config (overPipe inlet outlet)).issued acts).map (·.id) := by
    rw [← calls, List.map_map]
    rfl
  refine ⟨run_accepted keyed initial acts, carries.bytes, frames, ?_, ?_, ⟨carries.order, carries.whole⟩, ?_, ?_, ?_⟩
  · obtain ⟨numbers, increasing, same, bounds⟩ := issued_numbers sound keyed acts 1 rfl
    refine ⟨numbers, increasing, ids.trans same, ?_⟩
    intro n member
    have bound := bounds n member
    omega
  · intro bounded
    have one : (ofLink config (overPipe inlet outlet)).hub.calls.nextId.toNat = 1 := rfl
    have increasing := (issued_ids sound keyed acts (by omega)).1
    rw [← calls, List.pairwise_map] at increasing
    exact increasing.imp UInt64.lt_iff_toNat_lt.mpr
  · intro x a o member goes
    obtain ⟨before, after, rfl, rfl⟩ := mem_trace act _ acts x a member
    exact completes_flushed (run_carries keyed initial before).pipe o goes
  · exact fun key call member => (run_truthful acts untold).finished _ member call rfl
  · intro a other quiet
    have passes := act_passes (run_keyed keyed acts) a other
    have silent : ((ofLink config (overPipe inlet outlet)).run acts).queues a = [] := by
      cases a with
      | begin operation => exact absurd rfl (quiet operation)
      | _ => rfl
    have outbound := passes.queued.outbound
    rw [silent, List.append_nil] at outbound
    exact ⟨outbound, passes.writer, other_accepts carries.pipe other⟩

-- The pipe takes three bytes of a frame and no more, its sender gives up, and another frame is queued behind it.
def stuck : List Act :=
  [.far (.pace (some 3) none none none), .begin (.send ⟨"Page.reload", .empty, none⟩), .move .writer,
    .move .writer, .abort 0,
    .begin (.send ⟨"Page.close", .empty, none⟩)]

def unstuck : List Act :=
  [.far (.pace none none none none), .move .writer, .move .writer, .move .writer, .move (.caller 1)]

example : (ofLink {} (overPipe { maxFrameBytes := 100 } {})).carried stuck = Utf8.encode "\x7b\"i" := by decide +kernel

example : (ofLink {} (overPipe { maxFrameBytes := 100 } {})).carried (stuck ++ unstuck) =
    wire ((ofLink {} (overPipe { maxFrameBytes := 100 } {})).queued (stuck ++ unstuck)) := by decide +kernel

end Connection

end DevTools
