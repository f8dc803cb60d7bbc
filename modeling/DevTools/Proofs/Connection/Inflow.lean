import DevTools.Proofs.Connection.Follow
import DevTools.Proofs.Connection.Ledger
import DevTools.Proofs.Transport.Framing
/- What comes in over a link of any kind. If it is known what a receiver is to find, it is known as well which frames a
   connection takes in, as long as it is open, and what the reader closes it with. -/

set_option autoImplicit false

namespace DevTools

def Far.speaks : Far → Bool
  | .arrive _ | .message _ | .hand _ | .hangUp => true
  | .snap | .pace .. | .script .. | .look => false

def arrives (chunk : Bytes) : Far := .arrive (chunk.map .byte)

-- Calls for one frame after another, up to the first that gives none, while the far end does one thing after the other.
-- It may do so before a call, between two calls or while one waits.
inductive Finds : Link → List Far → List Received → Prop
  | comes {l : Link} {deed : Far} {coming : List Far} {found : List Received} (rest : Finds (l.far deed) coming found) :
      Finds l (deed :: coming) found
  | waits {l after : Link} {coming : List Far} {found : List Received} (call : l.receive = (.waiting, after))
      (rest : Finds after coming found) : Finds l coming found
  | frame {l after : Link} {coming : List Far} {found : List Received} {bytes : Bytes}
      (call : l.receive = (.frame bytes, after))
      (rest : Finds after coming found) : Finds l coming (.frame bytes :: found)
  | stops {l after : Link} {coming : List Far} {result : Received} (call : l.receive = (result, after))
      (last : result.stops) : Finds l coming [result]

-- Frames are foretold of a link while these deeds are still to come. They are what is found, whatever is sent meanwhile, up to
-- a result that may be the last with so many frames left.
structure Foretells (last : List Bytes → Received → Prop) (told : Link → List Far → List Bytes → Prop) : Prop where
  comes : ∀ l deed coming frames, told l (deed :: coming) frames → told (l.far deed) coming frames
  aside : ∀ l deed coming frames, deed.speaks = false → told l coming frames → told (l.far deed) coming frames
  sends : ∀ l s coming frames, told l coming frames → told (l.send s).2 coming frames
  waits : ∀ l after coming frames, told l coming frames → l.receive = (.waiting, after) → coming ≠ [] ∧
    told after coming frames
  frame : ∀ l after coming frames bytes, told l coming frames → l.receive = (.frame bytes, after) →
    ∃ rest, frames = bytes :: rest ∧ told after coming rest
  begins : ∀ l coming frames, told l coming frames → l.receive.1 ≠ .panicked
  stops : ∀ l after coming frames result, told l coming frames → l.receive = (result, after) → result.stops →
    last frames result

section
variable {last : List Bytes → Received → Prop} {told : Link → List Far → List Bytes → Prop}

theorem finds_foretold (foretells : Foretells last told) {l : Link} {coming : List Far} {found : List Received}
    {frames : List Bytes}
    (expected : told l coming frames) (finds : Finds l coming found) :
    ∃ got rest result, frames = got ++ rest ∧ found = got.map .frame ++ [result] ∧ last rest result := by
  induction finds generalizing frames with
  | comes _ ih => exact ih (foretells.comes _ _ _ _ expected)
  | waits call _ ih => exact ih (foretells.waits _ _ _ _ expected call).2
  | @frame _ _ _ _ bytes call _ ih =>
      obtain ⟨others, rfl, goesOn⟩ := foretells.frame _ _ _ _ _ expected call
      obtain ⟨got, rest, result, rfl, rfl, ends⟩ := ih goesOn
      exact ⟨bytes :: got, rest, result, rfl, rfl, ends⟩
  | stops call stopped => exact ⟨[], frames, _, rfl, rfl, foretells.stops _ _ _ _ _ expected call stopped⟩

-- Whoever hears all of it comes to an end: by induction on what is still to come, and then on what is still to be found.
theorem foretold_finds (foretells : Foretells last told) {l : Link} {coming : List Far} {frames : List Bytes}
    (expected : told l coming frames) : ∃ found, Finds l coming found := by
  induction coming generalizing l with
  | cons deed coming ih =>
      obtain ⟨found, finds⟩ := ih (foretells.comes _ _ _ _ expected)
      exact ⟨found, .comes finds⟩
  | nil =>
      induction frames generalizing l with
      | nil =>
          rcases call : l.receive with ⟨result, after⟩
          cases result with
          | waiting => exact absurd rfl (foretells.waits _ _ _ _ expected call).1
          | frame bytes =>
              obtain ⟨_, none_, _⟩ := foretells.frame _ _ _ _ _ expected call
              cases none_
          | ended | failed => exact ⟨_, .stops call rfl⟩
          | panicked => exact absurd (congrArg Prod.fst call) (foretells.begins _ _ _ expected)
      | cons first frames ih =>
          rcases call : l.receive with ⟨result, after⟩
          cases result with
          | waiting => exact absurd rfl (foretells.waits _ _ _ _ expected call).1
          | frame bytes =>
              obtain ⟨rest, same, goesOn⟩ := foretells.frame _ _ _ _ _ expected call
              obtain ⟨rfl, rfl⟩ := List.cons.inj same
              obtain ⟨found, finds⟩ := ih goesOn
              exact ⟨_, .frame call finds⟩
          | ended | failed => exact ⟨_, .stops call rfl⟩
          | panicked => exact absurd (congrArg Prod.fst call) (foretells.begins _ _ _ expected)

end

namespace Connection

def spoken (acts : List Act) : List Far :=
  acts.filterMap fun
    | .far deed => if deed.speaks then some deed else none
    | _ => none

def linkAfter (c : Connection) (a : Act) : Link :=
  match a with
  | .move .reader =>
      match c.link.receive with
      | (.panicked, link) => link.deafen
      | (_, link) => link
  | .move .writer =>
      match c.writer with
      | .sending _ left => (c.link.send left).2
      | _ => c.link
  | .far deed => c.link.far deed
  | _ => c.link

section
variable {c : Connection} {a : Act}

theorem open_before (kept : c.Kept) (isOpen : (c.act a).hub.isClosed = false) : c.hub.isClosed = false := by
  cases closed : c.hub.isClosed with
  | false => rfl
  | true => exact (does_closed (act_deeds kept a) closed).symm.trans isOpen

theorem unheld_opened (before : Connection) (isOpen : before.closeUnheld.hub.isClosed = false) :
    before.hub.isClosed = false :=
  unheld_open before isOpen ▸ isOpen

theorem shutdown_shuts (before : Connection) (reason : CloseReason) : (before.shutdown reason).hub.isClosed = true :=
  Hub.performs_shutdown before.hub [.shutdown reason] reason List.mem_cons_self

theorem fail_shuts (before : Connection) (call : Call) (fault : Error) :
    (before.failWrite call fault).hub.isClosed = true := by
  rw [(fail_write_hub call fault).1]
  exact Hub.performs_shutdown before.hub [.shutdown (.writeFailed fault.message)] _ List.mem_cons_self

theorem open_link (kept : c.Kept) (isOpen : (c.act a).hub.isClosed = false) : (c.act a).link = c.linkAfter a := by
  have wasOpen := open_before kept isOpen
  cases aside : a.isAside with
  | true =>
      rw [(act_aside aside).link]
      cases a with
      | move activity => cases activity <;> first | rfl | cases aside
      | far => cases aside
      | _ => rfl
  | false =>
      cases a with
      | far | advance | fire => rfl
      | move activity =>
          have moved := unheld_opened _ isOpen
          refine (unheld_aside _).link.trans ?_
          cases activity with
          | reader =>
              simp only [moveReader, wasOpen, Bool.false_eq_true, if_false] at moved ⊢
              rcases received : c.link.receive with ⟨result, link⟩
              simp only [received] at moved
              cases result with
              | frame | waiting | panicked => simp only [linkAfter, received, endReader]
              | ended | failed => exact absurd ((shutdown_shuts _ _).symm.trans moved) Bool.true_eq_false.mp
          | writer =>
              simp only [moveWriter, linkAfter] at moved ⊢
              cases writing : c.writer with
              | ended => rfl
              | idle =>
                  simp only [wasOpen, Bool.false_eq_true, if_false]
                  split <;> rfl
              | sending o left =>
                  rcases sent : c.link.send left with ⟨result, link⟩
                  simp only [writing, sent] at moved
                  cases result with
                  | done =>
                      simp only [sent]
                      rfl
                  | failed fault => exact absurd ((fail_shuts _ _ _).symm.trans moved) Bool.true_eq_false.mp
                  | waiting left => simp only [sent, wasOpen, Bool.false_eq_true, if_false]
          | caller | handler => cases aside
      | _ => cases aside

theorem open_reason (sound : c.Sound) (isOpen : c.hub.isClosed = false) : (c.act a).hub.reason = c.trigger? a := by
  have unreasoned : c.hub.reason = none := by simpa [Hub.isClosed] using isOpen
  rw [act_reason sound a, unreasoned, Option.none_or]

theorem stopped_closes (isOpen : c.hub.isClosed = false) (last : c.link.receive.1.stops = true) :
    (c.act (.move .reader)).hub.isClosed = true := by
  cases still : (c.act (.move .reader)).hub.isClosed with
  | true => rfl
  | false =>
      have moved := unheld_opened _ still
      simp only [moveReader, isOpen, Bool.false_eq_true, if_false] at moved
      rcases received : c.link.receive with ⟨result, link⟩
      simp only [received] at moved last
      cases result with
      | frame | waiting | panicked => cases last
      | ended | failed => exact moved.symm.trans (shutdown_shuts _ _)

theorem spoken_concat (acts : List Act) (a : Act) : spoken (acts ++ [a]) = spoken acts ++ spoken [a] :=
  List.filterMap_append

theorem frames_after (acts : List Act) (a : Act) :
    c.frames (acts ++ [a]) = c.frames acts ++ ((c.run acts).takes? a).toList := by
  have seen : trace act c (acts ++ [a]) = trace act c acts ++ [(c.run acts, a)] := trace_concat act c acts a
  rw [frames, seen, List.filterMap_append]
  cases taken : (c.run acts).takes? a <;> simp [frames, taken]

end

-- What holds of a link lasts, as long as the connection is open, whatever is read, written or done by the far end.
structure Lasting (P : Link → Prop) : Prop where
  reads : ∀ l, P l → l.receive.1.stops = false → P l.receive.2
  panics : ∀ l, P l → l.receive.1 = .panicked → P l.receive.2.deafen
  sends : ∀ l s, P l → P (l.send s).2
  far : ∀ l deed, P l → P (l.far deed)

theorem open_lasting {P : Link → Prop} (lasting : Lasting P) {c : Connection} (sound : c.Sound) (initial : P c.link)
    (acts : List Act)
    (isOpen : (c.run acts).hub.isClosed = false) : P (c.run acts).link := by
  induction acts using List.reverseRecOn with
  | nil => exact initial
  | append_singleton acts a ih =>
      have kept := (run_sound sound acts).kept
      rw [run_concat] at isOpen ⊢
      have wasOpen := open_before kept isOpen
      have earlier := ih wasOpen
      rw [open_link kept isOpen]
      cases a with
      | move activity =>
          cases activity with
          | reader =>
              have goesOn : (c.run acts).link.receive.1.stops = false := by
                refine eq_false_of_ne_true fun stopped => ?_
                exact absurd (isOpen.symm.trans (stopped_closes wasOpen stopped)) Bool.false_ne_true
              have read := lasting.reads _ earlier goesOn
              have panics := lasting.panics _ earlier
              simp only [linkAfter]
              split
              · next received =>
                  rw [received] at panics
                  exact panics rfl
              · next received =>
                  rw [received] at read
                  exact read
          | writer =>
              simp only [linkAfter]
              split
              · exact lasting.sends _ _ earlier
              · exact earlier
          | caller | handler => exact earlier
      | far deed => exact lasting.far _ deed earlier
      | _ => exact earlier

section
variable {last : List Bytes → Received → Prop} {told : Link → List Far → List Bytes → Prop} {c : Connection}
  {script : List Far}
  {frames : List Bytes}

-- What is left of what was to come, and of what was to be found, after these acts.
structure Foretold (told : Link → List Far → List Bytes → Prop) (c : Connection) (script : List Far)
    (frames : List Bytes)
    (acts : List Act) (coming : List Far) (rest : List Bytes) : Prop where
  script : script = spoken acts ++ coming
  frames : frames = c.frames acts ++ rest
  told : told (c.run acts).link coming rest

theorem act_foretold (foretells : Foretells last told) (acts : List Act) (a : Act) (coming : List Far)
    (rest : List Bytes)
    (isOpen : (c.run acts).hub.isClosed = false) (stays : ((c.run acts).act a).hub.isClosed = false)
    (kept : (c.run acts).Kept)
    (foretold : Foretold told c script frames acts coming rest) (follows : spoken (acts ++ [a]) <+: script) :
    ∃ coming rest, Foretold told c script frames (acts ++ [a]) coming rest := by
  obtain ⟨wrote, expects, expected⟩ := foretold
  have link := open_link kept stays
  -- An act by which nothing comes in and no frame is taken.
  have quiet : spoken [a] = [] → (c.run acts).takes? a = none → told ((c.run acts).linkAfter a) coming rest →
      Foretold told c script frames (acts ++ [a]) coming rest := by
    intro silent untaken goesOn
    refine ⟨?_, ?_, ?_⟩
    · rw [spoken_concat, silent, List.append_nil, wrote]
    · rw [frames_after, untaken]
      simpa using expects
    · rw [run_concat, link]
      exact goesOn
  cases a with
  | move activity =>
      cases activity with
      | reader =>
          have silent : spoken [Act.move .reader] = [] := rfl
          rcases received : (c.run acts).link.receive with ⟨result, after⟩
          cases result with
          | waiting =>
              have becomes : (c.run acts).linkAfter (.move .reader) = after := by simp only [linkAfter, received]
              refine ⟨coming, rest, quiet silent ?_ ?_⟩
              · simp [takes?, isOpen, received]
              · rw [becomes]
                exact (foretells.waits _ _ _ _ expected received).2
          | frame bytes =>
              have becomes : (c.run acts).linkAfter (.move .reader) = after := by simp only [linkAfter, received]
              obtain ⟨rest, rfl, goesOn⟩ := foretells.frame _ _ _ _ _ expected received
              have taken : (c.run acts).takes? (.move .reader) = some bytes :=
                (takes_reader bytes).mpr ⟨rfl, isOpen, congrArg Prod.fst received⟩
              refine ⟨coming, rest, ?_, ?_, ?_⟩
              · rw [spoken_concat, silent, List.append_nil, wrote]
              · rw [frames_after, taken]
                simpa using expects
              · rw [run_concat, link, becomes]
                exact goesOn
          | ended | failed =>
              have closes := stopped_closes isOpen (by rw [received]; rfl)
              exact absurd (stays.symm.trans closes) Bool.false_ne_true
          | panicked => exact absurd (congrArg Prod.fst received) (foretells.begins _ _ _ expected)
      | writer =>
          refine ⟨coming, rest, quiet rfl rfl ?_⟩
          simp only [linkAfter]
          split
          · exact foretells.sends _ _ _ _ expected
          · exact expected
      | caller | handler => exact ⟨coming, rest, quiet rfl rfl expected⟩
  | far deed =>
      cases speaks : deed.speaks with
      | false =>
          have silent : spoken [Act.far deed] = [] := by simp [spoken, speaks]
          exact ⟨coming, rest, quiet silent rfl (foretells.aside _ _ _ _ speaks expected)⟩
      | true =>
          have said : spoken [Act.far deed] = [deed] := by simp [spoken, speaks]
          rw [spoken_concat, said, wrote, List.prefix_append_right_inj] at follows
          obtain ⟨coming, rfl⟩ := follows
          refine ⟨coming, rest, ?_, ?_, ?_⟩
          · rw [spoken_concat, said, List.append_assoc, wrote]
          · rw [frames_after]
            simpa [takes?] using expects
          · rw [run_concat, link]
            exact foretells.comes _ _ _ _ expected
  | _ => exact ⟨coming, rest, quiet rfl rfl expected⟩

theorem run_foretold (foretells : Foretells last told) (sound : c.Sound) (expected : told c.link script frames)
    (acts : List Act)
    (isOpen : (c.run acts).hub.isClosed = false) (follows : spoken acts <+: script) :
    ∃ coming rest, Foretold told c script frames acts coming rest := by
  induction acts using List.reverseRecOn with
  | nil => exact ⟨script, frames, rfl, rfl, expected⟩
  | append_singleton acts a ih =>
      have kept := (run_sound sound acts).kept
      rw [run_concat] at isOpen
      have wasOpen := open_before kept isOpen
      have earlier : spoken acts <+: script :=
        (spoken_concat acts a ▸ List.prefix_append (spoken acts) (spoken [a])).trans follows
      obtain ⟨coming, rest, foretold⟩ := ih wasOpen earlier
      exact act_foretold foretells acts a coming rest wasOpen isOpen kept foretold follows

theorem run_frames (foretells : Foretells last told) (sound : c.Sound) (expected : told c.link script frames)
    (acts : List Act)
    (follows : spoken acts <+: script) : c.frames acts <+: frames := by
  induction acts using List.reverseRecOn with
  | nil => exact List.nil_prefix
  | append_singleton acts a ih =>
      have earlier : spoken acts <+: script :=
        (spoken_concat acts a ▸ List.prefix_append (spoken acts) (spoken [a])).trans follows
      rw [frames_after]
      cases taken : (c.run acts).takes? a with
      | none => simpa using ih earlier
      | some bytes =>
          obtain ⟨rfl, isOpen, received⟩ := (takes_reader bytes).mp taken
          obtain ⟨coming, rest, foretold⟩ := run_foretold foretells sound expected acts isOpen earlier
          rcases call : (c.run acts).link.receive with ⟨result, after⟩
          rw [call] at received
          cases received
          obtain ⟨rest, rfl, _⟩ := foretells.frame _ _ _ _ _ foretold.told call
          exact ⟨rest, by rw [foretold.frames]; simp⟩

theorem run_stops (foretells : Foretells last told) (sound : c.Sound) (expected : told c.link script frames)
    (acts : List Act)
    (isOpen : (c.run acts).hub.isClosed = false) (follows : spoken acts <+: script)
    (stopped : (c.run acts).link.receive.1.stops = true) :
    ∃ rest, frames = c.frames acts ++ rest ∧ last rest (c.run acts).link.receive.1 := by
  obtain ⟨coming, rest, foretold⟩ := run_foretold foretells sound expected acts isOpen follows
  exact ⟨rest, foretold.frames, foretells.stops _ (c.run acts).link.receive.2 _ _ _ foretold.told rfl stopped⟩

theorem run_heard_out (foretells : Foretells last told) (sound : c.Sound) (expected : told c.link script frames)
    (acts : List Act)
    (isOpen : (c.run acts).hub.isClosed = false) (all : spoken acts = script) :
    (c.run acts).link.receive.1 ≠ .waiting := by
  obtain ⟨coming, rest, foretold⟩ := run_foretold foretells sound expected acts isOpen (all ▸ List.prefix_refl _)
  have silent : coming = [] := by
    have wrote := foretold.script
    rw [all] at wrote
    exact List.self_eq_append_right.mp wrote
  intro waits
  rcases call : (c.run acts).link.receive with ⟨result, after⟩
  rw [call] at waits
  subst waits
  exact (foretells.waits _ _ _ _ foretold.told call).1 silent

-- From then on the reader alone ends the connection. By induction on how many frames it has not taken in.
theorem run_ends (foretells : Foretells last told) (sound : c.Sound) (expected : told c.link script frames) (left : Nat)
    (acts : List Act)
    (count : frames.length ≤ (c.frames acts).length + left) (isOpen : (c.run acts).hub.isClosed = false)
    (all : spoken acts = script) :
    ∃ moves, (c.run (acts ++ List.replicate moves (.move .reader))).hub.isClosed = false ∧
      (c.run (acts ++ List.replicate moves (.move .reader))).link.receive.1.stops = true := by
  have awake := run_heard_out foretells sound expected acts isOpen all
  cases received : (c.run acts).link.receive.1 with
  | waiting => exact absurd received awake
  | panicked =>
      obtain ⟨coming, rest, foretold⟩ := run_foretold foretells sound expected acts isOpen (all ▸ List.prefix_refl _)
      exact absurd received (foretells.begins _ _ _ foretold.told)
  | ended | failed => exact ⟨0, by simpa using isOpen, by simp [received, Received.stops]⟩
  | frame bytes =>
      have taken : (c.run acts).takes? (.move .reader) = some bytes := (takes_reader bytes).mpr ⟨rfl, isOpen, received⟩
      have after := frames_after (c := c) acts (.move .reader)
      rw [taken] at after
      have silent : spoken (acts ++ [.move .reader]) = script := by
        rw [spoken_concat, all]
        exact List.append_nil script
      have bound :=
        (run_frames foretells sound expected (acts ++ [.move .reader]) (silent ▸ List.prefix_refl _)).length_le
      rw [after, List.length_append, Option.toList_some, List.length_singleton] at bound
      have stays : (c.run (acts ++ [.move .reader])).hub.isClosed = false := by
        rw [run_concat, Hub.isClosed, open_reason (run_sound sound acts) isOpen]
        simp [trigger?, received]
      cases left with
      | zero => exact absurd bound (by omega)
      | succ left =>
          have count : frames.length ≤ (c.frames (acts ++ [.move .reader])).length + left := by
            rw [after, List.length_append, Option.toList_some, List.length_singleton]
            omega
          obtain ⟨moves, still, stopped⟩ :=
            run_ends foretells sound expected left (acts ++ [.move .reader]) count stays silent
          refine ⟨moves + 1, ?_⟩
          rw [List.append_assoc] at still stopped
          exact ⟨still, stopped⟩

end

end Connection

end DevTools
