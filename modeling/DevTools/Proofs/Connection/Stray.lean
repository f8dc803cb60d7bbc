import DevTools.Proofs.Connection.Inflow
import DevTools.Proofs.Connection.Withholding

set_option autoImplicit false

namespace DevTools

theorem Hub.stray_frame {h : Hub} (bytes : Bytes) (stray : Message.isStray bytes = true) :
    h.takeFrame bytes = h.plus (Message.isMalformed bytes).toNat (Message.isRequest bytes).toNat := by
  simp only [Message.isStray, Message.isMalformed, Message.isRequest] at stray ⊢
  rw [takeFrame]
  cases decoded : Message.decode bytes with
  | error fault => rfl
  | ok message =>
      cases message with
      | request r => rfl
      | response | event =>
          rw [decoded] at stray
          cases stray

namespace Connection

-- The act, but that a stray frame is let go by.
def spare (c : Connection) (a : Act) : Connection :=
  if (c.takes? a).any Message.isStray then { c with link := c.link.receive.2 } else c.act a

-- What is done instead, if stray frames are held back and nobody has to take them in.
def instead (c : Connection) (a : Act) : List Act :=
  if (c.takes? a).any Message.isStray then []
  else match a with
    | .far deed => (c.link.heeded deed).map .far
    | _ => [a]

def without (c : Connection) (acts : List Act) : List Act := (trace act c acts).flatMap fun (c, a) => c.instead a

def malformed (c : Connection) (acts : List Act) : Nat := ((c.frames acts).filter Message.isMalformed).length

def requests (c : Connection) (acts : List Act) : Nat := ((c.frames acts).filter Message.isRequest).length

-- Going along with a connection that acts, one stays alike but for the stray frames that it takes in.
def Escorts (apt : Act → Prop) (hears : Link → Prop) (alike : Link → Link → Prop) (follow : Connection → Connection →
      Act → Connection) :
    Prop :=
  ∀ c d a m u, apt a → c.Kept → (c.hub.isClosed = false → hears c.link) → Resembles alike m u c d →
    Resembles alike (m + ((c.takes? a).any Message.isMalformed).toNat) (u + ((c.takes? a).any Message.isRequest).toNat)
      (c.act a) (follow c d a)

section
variable {c d : Connection} {m u : Nat} {apt : Act → Prop} {hears : Link → Prop} {alike : Link → Link → Prop}

theorem stray_act (kept : c.Kept) (a : Act) (bytes : Bytes) (taken : c.takes? a = some bytes)
    (stray : Message.isStray bytes = true) :
    c.act a = c.plus (Message.isMalformed bytes).toNat (Message.isRequest bytes).toNat c.link.receive.2 := by
  obtain ⟨rfl, isOpen, received⟩ := (takes_reader bytes).mp taken
  rcases first : c.link.receive with ⟨result, next⟩
  rw [first] at received
  cases received
  have moved : c.moveReader = c.plus (Message.isMalformed bytes).toNat (Message.isRequest bytes).toNat next := by
    simp only [moveReader, isOpen, Bool.false_eq_true, if_false, first, Hub.stray_frame bytes stray]
    rfl
  simp only [act, move, moved, close_unheld_plus, close_unheld_of_held (held_of_open kept isOpen)]

-- A stray frame is only counted, and whoever goes along need do no more about it than its link does.
theorem follow_resembles (tracks : Tracks hears alike) (kept : c.Kept) (awake : c.hub.isClosed = false → hears c.link)
    (resembles : Resembles alike m u c d) (a : Act) (link : Link)
    (far : ∀ deed, a = .far deed → alike (c.link.far deed) (d.link.far deed))
    (stray : ∀ bytes, c.takes? a = some bytes → Message.isStray bytes = true → alike c.link.receive.2 link) :
    Resembles alike (m + ((c.takes? a).any Message.isMalformed).toNat)
      (u + ((c.takes? a).any Message.isRequest).toNat) (c.act a)
      (if (c.takes? a).any Message.isStray then { d with link } else d.act a) := by
  cases taken : c.takes? a with
  | none => exact act_resembles tracks resembles a awake far (by simp [taken])
  | some bytes =>
      simp only [Option.any_some]
      by_cases isStray : Message.isStray bytes = true
      · rw [if_pos isStray, stray_act kept a bytes taken isStray]
        refine ⟨?_, stray bytes taken isStray⟩
        rw [resembles.same]
        simp only [plus, Hub.plus, Stats.plus, Nat.add_assoc]
      · obtain ⟨decodes, asks⟩ := Bool.or_eq_false_iff.mp (eq_false_of_ne_true isStray)
        rw [if_neg isStray, decodes, asks]
        refine act_resembles tracks resembles a awake far fun other same => ?_
        rw [taken] at same
        cases same
        exact eq_false_of_ne_true isStray

-- By induction on the acts: what one act adds to the counts, the frames of the run add up.
theorem run_resembles (follow : Connection → Connection → Act → Connection) (escorts : Escorts apt hears alike follow)
    (sound : c.Sound) (resembles : Resembles alike m u c d) (acts : List Act) (fits : ∀ a ∈ acts, apt a)
    (awake : ∀ acts, (c.run acts).hub.isClosed = false → hears (c.run acts).link) :
    Resembles alike (m + c.malformed acts) (u + c.requests acts) (c.run acts)
      ((trace act c acts).foldl (fun d x => follow x.1 d x.2) d) := by
  induction acts generalizing c d m u with
  | nil => exact resembles
  | cons a acts ih =>
      have counts : ∀ p : Bytes → Bool, ((c.frames (a :: acts)).filter p).length =
          ((c.takes? a).any p).toNat + (((c.act a).frames acts).filter p).length := by
        intro p
        rw [frames_cons, List.filter_append, List.length_append]
        cases c.takes? a with
        | none => rfl
        | some bytes => cases picked : p bytes <;> simp [picked]
      have first := escorts c d a m u (fits a List.mem_cons_self) sound.kept (awake []) resembles
      have later := ih (act_sound sound a) first (fun b member => fits b (List.mem_cons_of_mem a member))
        fun acts => awake (a :: acts)
      rw [Nat.add_assoc, Nat.add_assoc, malformed, requests, ← counts, ← counts] at later
      exact later

theorem same_tracks : Tracks (fun _ => True) Eq where
  send := by
    rintro l _ s rfl
    exact ⟨rfl, rfl⟩
  close := by
    rintro l _ rfl
    rfl
  deafen := by
    rintro l _ rfl
    rfl
  receive := by
    rintro l _ - rfl -
    exact ⟨rfl, rfl⟩

theorem spare_escorts : Escorts (fun _ => True) (fun _ => True) Eq fun _ d a => d.spare a := by
  intro c d a m u _ kept awake resembles
  have takes : d.takes? a = c.takes? a := by
    rw [resembles.same, resembles.link]
    rfl
  simp only [spare, takes]
  refine follow_resembles same_tracks kept awake resembles a d.link.receive.2 ?_ ?_ <;> intros <;> rw [resembles.link]

theorem run_far (deeds : List Far) : d.run (deeds.map .far) = { d with link := deeds.foldl Link.far d.link } := by
  induction deeds generalizing d with
  | nil => rfl
  | cons deed deeds ih => exact ih (d := { d with link := d.link.far deed })

def Act.does (apt : Far → Prop) (a : Act) : Prop := ∀ deed, a = .far deed → apt deed

theorem instead_other (a : Act) (other : ∀ deed, a ≠ .far deed) :
    d.run (c.instead a) = if (c.takes? a).any Message.isStray then d else d.act a := by
  cases a with
  | far deed => exact absurd rfl (other deed)
  | _ =>
      simp only [instead]
      split <;> rfl

theorem instead_escorts {apt : Far → Prop} (withholds : Withholds apt hears alike) :
    Escorts (Act.does apt) hears alike fun c d a => d.run (c.instead a) := by
  intro c d a m u fits kept awake resembles
  by_cases speaks : ∃ deed, a = .far deed
  · obtain ⟨deed, rfl⟩ := speaks
    have untaken : c.takes? (.far deed) = none := rfl
    simp only [instead, untaken, Option.any_none, Bool.false_eq_true, if_false, run_far]
    refine ⟨?_, withholds.far c.link d.link deed (fits deed rfl) resembles.link⟩
    rw [resembles.same]
    rfl
  · have other : ∀ deed, a ≠ .far deed := fun deed same => speaks ⟨deed, same⟩
    dsimp only
    rw [instead_other a other]
    refine follow_resembles withholds.toTracks kept awake resembles a d.link (fun deed same =>
      absurd same (other deed)) ?_
    intro bytes taken stray
    obtain ⟨_, isOpen, received⟩ := (takes_reader bytes).mp taken
    exact withholds.stray _ _ bytes (awake isOpen) resembles.link received stray

theorem run_spared (sound : c.Sound) (acts : List Act) :
    Resembles Eq (c.malformed acts) (c.requests acts) (c.run acts) (acts.foldl spare c) := by
  have made := run_resembles (fun _ d a => d.spare a) spare_escorts sound (m := 0) (u := 0) ⟨rfl, rfl⟩ acts
    (fun _ _ => trivial) fun _ _ => trivial
  have same : ∀ acts c d, (trace act c acts).foldl (fun d x => spare d x.2) d = acts.foldl spare d := by
    intro acts
    induction acts with
    | nil => exact fun _ _ => rfl
    | cons a acts ih => exact fun c d => ih (c.act a) (d.spare a)
  rw [same, Nat.zero_add, Nat.zero_add] at made
  exact made

theorem run_without {apt : Far → Prop} (withholds : Withholds apt hears alike) (sound : c.Sound) (link : Link)
    (near : alike c.link link)
    (acts : List Act) (fits : ∀ deed, .far deed ∈ acts → apt deed)
    (awake : ∀ acts, (c.run acts).hub.isClosed = false → hears (c.run acts).link) :
    Resembles alike (c.malformed acts) (c.requests acts) (c.run acts)
      (({ c with link } : Connection).run (c.without acts)) := by
  have made := run_resembles _ (instead_escorts withholds) sound (m := 0) (u := 0) (d := { c with link })
    ⟨rfl, near⟩ acts (fun a member deed same => fits deed (same ▸ member)) awake
  have same : ∀ acts (c d : Connection), (trace act c acts).foldl (fun d x => d.run (x.1.instead x.2)) d =
      d.run (c.without acts) := by
    intro acts
    induction acts with
    | nil => exact fun _ _ => rfl
    | cons a acts ih =>
        intro c d
        rw [without, trace, List.flatMap_cons, run, List.foldl_append]
        exact ih (c.act a) (d.run (c.instead a))
  rw [same, Nat.zero_add, Nat.zero_add] at made
  exact made

end

-- Every frame that comes in is entered in one account, and that account alone grows by it. One that does not decode or
-- is a request does nothing else, so that a run goes as if the reader let all such frames go by, and as if the far end
-- had never sent them. Over a WebSocket that asks for a far end that stays, or that sends no pings: the read that takes in
-- such a frame answers the pings before it as well, and without the frame it may be too late for that.
theorem frames_accounted_once (config : Config) (link : Link) (acts : List Act) :
    let initial := ofLink config link
    let c := initial.run acts
    let malformed := initial.malformed acts
    let requests := initial.requests acts
    let other := (ofLink config link.sift).run (initial.without acts)
    (initial.frames acts).length = (Account.all.map (initial.tally acts)).sum ∧
    (∀ a, c.takes? a = none → ∀ account, initial.tally (acts ++ [a]) account = initial.tally acts account) ∧
    (∀ a bytes, c.takes? a = some bytes → ∃ entry, ∀ account,
      initial.tally (acts ++ [a]) account = initial.tally acts account + if account = entry then 1 else 0) ∧
    (∀ a bytes, c.takes? a = some bytes → Message.isStray bytes = true →
      c.act a = c.plus (Message.isMalformed bytes).toNat (Message.isRequest bytes).toNat c.link.receive.2) ∧
    c = (acts.foldl spare initial).plus malformed requests (acts.foldl spare initial).link ∧
    (∀ m, link.transport = .memory m → c = other.plus malformed requests c.link ∧ other.link = c.link.sift) ∧
    (∀ inlet outlet, link.transport = .pipe inlet outlet → inlet.begun = [] → link.deaf = false →
      c = other.plus malformed requests c.link ∧ Link.SiftedPipe c.link other.link) ∧
    (∀ s stays, link.transport = .socket s → s.replyOwed = false → s.conforms stays = true →
      (∀ deed, .far deed ∈ acts → deed.conforms stays = true) →
      c = other.plus malformed requests c.link ∧ Link.SiftedSocket stays c.link other.link) := by
  intro initial c malformed requests other
  have sound := initial_sound config link
  have staffed := initial_staffed config link
  have entered : ∀ a account, initial.tally (acts ++ [a]) account =
      initial.tally acts account + (c.enters? a == some account).toNat := tally_concat sound staffed acts
  refine ⟨run_accounts sound staffed rfl acts, ?_, ?_, ?_, ?_, ?_, ?_, ?_⟩
  · intro a untaken account
    rw [entered, enters?, untaken]
    rfl
  · intro a bytes taken
    refine ⟨c.account bytes, fun account => ?_⟩
    rw [entered, enters?, taken, Option.map_some]
    by_cases same : account = c.account bytes
    · simp [same]
    · simp [same, Ne.symm same]
  · intro a bytes taken stray
    exact stray_act (run_sound sound acts).kept a bytes taken stray
  · have spared := run_spared sound acts
    exact spared.link ▸ spared.same
  · intro m memory
    have apart := run_without memory_withholds sound link.sift ⟨⟨m, memory⟩, rfl⟩ acts (fun _ _ => trivial)
      fun _ _ => trivial
    exact ⟨apart.same, apart.link.2⟩
  · intro inlet outlet pipe between hears
    have apart := run_without pipe_withholds sound link.sift (Link.sifted_pipe pipe between) acts (fun _ _ => trivial)
      fun acts => open_lasting pipe_lasting sound ⟨inlet, outlet, pipe,
        fun ends => absurd (hears.symm.trans ends) Bool.false_ne_true⟩ acts
    exact ⟨apart.same, apart.link⟩
  · intro s stays socket unowed conforms fits
    have apart := run_without (socket_withholds stays) sound link.sift (Link.sifted_socket socket conforms) acts fits
      fun acts => open_lasting socket_lasting sound ⟨s, socket, unowed⟩ acts
    exact ⟨apart.same, apart.link⟩

-- The answer to a call comes amid noise: a text that is no message, and a request of the same id.
def noisy (bring : Bytes → Far) : List Act :=
  let brings := fun text => Act.far (bring (Utf8.encode text))
  [.begin (.send ⟨"Page.reload", .empty, none⟩), brings "noise", brings "\x7b\"id\":1,\"method\":\"Page.reload\"\x7d",
    brings "\x7b\"id\":1,\"result\":\x7b\x7d\x7d", .move .reader, .move .reader, .move .reader]

theorem frames_accounted_once_noisy :
    let handed := noisy fun bytes => .hand (.frame bytes)
    let piped := noisy fun bytes => arrives (bytes ++ [Ascii.nul])
    let posted := noisy fun bytes => .message (.text bytes)
    let pipe : Link := { transport := .pipe { maxFrameBytes := 100 } {} }
    let socket : Link := { transport := .socket { inbox := [.ping 0] } }
    let initial := ofLink {} inMemory
    let before := initial.run (handed.take 4)
    let c := initial.run handed
    let d := (ofLink {} pipe).run piped
    let e := (ofLink {} socket).run posted
    (initial.frames handed).length = 3 ∧
      Account.all.map (initial.tally handed) = [1, 0, 1, 1, 0, 0, 0] ∧
      before.act (.move .reader) = before.plus 1 0 before.link.receive.2 ∧
      (initial.without handed).length = 3 ∧
      c = ((ofLink {} inMemory.sift).run (initial.without handed)).plus 1 1 c.link ∧
      d = ((ofLink {} pipe.sift).run ((ofLink {} pipe).without piped)).plus 1 1 d.link ∧
      e = ((ofLink {} socket.sift).run ((ofLink {} socket).without posted)).plus 1 1 e.link := by
  intro handed piped posted pipe socket initial before c d e
  obtain ⟨sum, -, -, -, -, apart, -, -⟩ := frames_accounted_once {} inMemory handed
  obtain ⟨-, -, -, counted, -⟩ := frames_accounted_once {} inMemory (handed.take 4)
  obtain ⟨-, -, -, -, -, -, onPipe, -⟩ := frames_accounted_once {} pipe piped
  obtain ⟨-, -, -, -, -, -, -, onSocket⟩ := frames_accounted_once {} socket posted
  have tallies : Account.all.map (initial.tally handed) = [1, 0, 1, 1, 0, 0, 0] := by decide +kernel
  have handedOver : initial.malformed handed = 1 ∧ initial.requests handed = 1 := by decide +kernel
  have arrived : (ofLink {} pipe).malformed piped = 1 ∧ (ofLink {} pipe).requests piped = 1 := by decide +kernel
  have read : (ofLink {} socket).malformed posted = 1 ∧ (ofLink {} socket).requests posted = 1 := by decide +kernel
  have noise : Message.isMalformed (Utf8.encode "noise") = true ∧ Message.isRequest (Utf8.encode "noise") = false := by
    decide +kernel
  have taken : before.takes? (.move .reader) = some (Utf8.encode "noise") := by decide +kernel
  have step := counted (.move .reader) (Utf8.encode "noise") taken (by rw [Message.isStray, noise.1, Bool.true_or])
  have fits : ∀ deed, Act.far deed ∈ posted → deed.conforms true = true := by
    intro deed member
    simp only [posted, noisy, List.mem_cons, Act.far.injEq, reduceCtorEq, false_or, or_false,
      List.not_mem_nil] at member
    rcases member with rfl | rfl | rfl <;> rfl
  obtain ⟨same, -⟩ := apart {} rfl
  obtain ⟨alike, -⟩ := onPipe { maxFrameBytes := 100 } {} rfl rfl rfl
  obtain ⟨near, -⟩ := onSocket { inbox := [.ping 0] } true rfl rfl rfl fits
  rw [handedOver.1, handedOver.2] at same
  rw [arrived.1, arrived.2] at alike
  rw [read.1, read.2] at near
  rw [tallies] at sum
  rw [noise.1, noise.2] at step
  exact ⟨sum, tallies, step, by decide +kernel, same, alike, near⟩

end Connection

end DevTools
