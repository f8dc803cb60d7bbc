import DevTools.Proofs.Connection.Beside
import DevTools.Proofs.Connection.Inflow
import DevTools.Proofs.Transport.Sieve
import DevTools.Proofs.Transport.Sift

set_option autoImplicit false

namespace DevTools

def Handed.isStray : Handed → Bool
  | frame bytes => Message.isStray bytes
  | _ => false

namespace Memory

def sift (m : Memory) : Memory := { m with inbox := m.inbox.filter fun handed => !handed.isStray }

section
variable {m : Memory}

theorem send_sift (s : Sending) : m.sift.send s = ((m.send s).1, (m.send s).2.sift) := by
  have failWrite : m.sift.failWrite = m.failWrite := rfl
  have stalled : m.sift.stalled = m.stalled := rfl
  simp only [send, failWrite, stalled]
  split
  · rfl
  · split <;> rfl

theorem receive_sift (heeded : ∀ bytes, m.receive.1 = .frame bytes → Message.isStray bytes = false) :
    m.sift.receive = (m.receive.1, m.receive.2.sift) := by
  rcases m with ⟨inbox, outbox, stalled, failWrite, failClose, closed⟩
  cases inbox with
  | nil => rfl
  | cons handed inbox =>
      have first : handed.isStray = false := by
        cases handed with
        | frame bytes => exact heeded bytes rfl
        | fault | hangup => rfl
      simp only [receive, sift, List.filter_cons, first, Bool.not_false, if_true]

theorem receive_stray (bytes : Bytes) (received : m.receive.1 = .frame bytes) (stray : Message.isStray bytes = true) :
    m.receive.2.sift = m.sift := by
  rcases m with ⟨inbox, outbox, stalled, failWrite, failClose, closed⟩
  cases inbox with
  | nil => cases received
  | cons handed inbox =>
      have first : handed.isStray = true := by
        cases handed with
        | frame other =>
            cases received
            exact stray
        | fault | hangup => cases received
      simp only [receive, sift, List.filter_cons, first, Bool.not_true, Bool.false_eq_true, if_false]

end

end Memory

namespace Link

def sift (l : Link) : Link :=
  match l.transport with
  | .memory m => l.withTransport (.memory m.sift)
  | .pipe inlet outlet => l.withTransport (.pipe (inlet.sift Message.isStray) outlet)
  | .socket s => l.withTransport (.socket (s.sift Message.isStray))

-- The second link is the first one, in memory, less the stray frames that are still on their way.
def Sifted (l k : Link) : Prop := (∃ m, l.transport = .memory m) ∧ k = l.sift

section
variable {l k : Link}

theorem sifted_memory (sifted : Sifted l k) :
    ∃ m deaf endSeen, l = ⟨.memory m, deaf, endSeen⟩ ∧ k = ⟨.memory m.sift, deaf, endSeen⟩ := by
  rcases l with ⟨transport, deaf, endSeen⟩
  obtain ⟨⟨m, rfl⟩, rfl⟩ := sifted
  exact ⟨m, deaf, endSeen, rfl, rfl⟩

theorem sifted_of (m : Memory) (deaf endSeen : Bool) :
    Sifted ⟨.memory m, deaf, endSeen⟩ ⟨.memory m.sift, deaf, endSeen⟩ :=
  ⟨⟨m, rfl⟩, rfl⟩

theorem sifted_send (sifted : Sifted l k) (s : Sending) :
    (l.send s).1 = (k.send s).1 ∧ Sifted (l.send s).2 (k.send s).2 := by
  obtain ⟨m, deaf, endSeen, rfl, rfl⟩ := sifted_memory sifted
  simp only [send, Memory.send_sift, true_and]
  exact sifted_of _ deaf endSeen

theorem sifted_receive (sifted : Sifted l k) (heeded : ∀ bytes, l.receive.1 = .frame bytes →
      Message.isStray bytes = false) :
    l.receive.1 = k.receive.1 ∧ Sifted l.receive.2 k.receive.2 := by
  obtain ⟨m, deaf, endSeen, rfl, rfl⟩ := sifted_memory sifted
  simp only [receive, Memory.receive_sift heeded, true_and]
  exact sifted_of _ deaf endSeen

theorem sifted_stray (sifted : Sifted l k) (bytes : Bytes) (received : l.receive.1 = .frame bytes)
    (stray : Message.isStray bytes = true) : Sifted l.receive.2 k := by
  obtain ⟨m, deaf, endSeen, rfl, rfl⟩ := sifted_memory sifted
  rw [← Memory.receive_stray bytes received stray]
  exact sifted_of _ deaf endSeen

theorem sifted_hand (sifted : Sifted l k) (handed : Handed) :
    Sifted (l.hand handed).2 (if handed.isStray then k else (k.hand handed).2) := by
  obtain ⟨m, deaf, endSeen, rfl, rfl⟩ := sifted_memory sifted
  cases deaf with
  | true =>
      simp only [hand, if_true, ite_self]
      exact sifted_of m true endSeen
  | false =>
      refine ⟨⟨_, rfl⟩, ?_⟩
      cases stray : handed.isStray with
      | true => simp [hand, sift, withTransport, Memory.sift, List.filter_append, stray]
      | false => simp [hand, sift, withTransport, Memory.sift, List.filter_append, stray]

end

-- As long as somebody reads, the second pipe brings what the first one does less the stray frames. It takes the same.
inductive SiftedPipe : Link → Link → Prop where
  | intro (i j : Inlet) (outlet : Outlet) (deaf endSeen : Bool) (limit : j.maxFrameBytes = i.maxFrameBytes)
      (sifts : deaf = false → Inlet.Sifts Message.isStray i j) :
      SiftedPipe ⟨.pipe i outlet, deaf, endSeen⟩ ⟨.pipe j outlet, deaf, endSeen⟩

inductive SiftedSocket (stays : Bool) : Link → Link → Prop where
  | intro (s t : Socket) (deaf endSeen : Bool) (sifts : Socket.Sifts Message.isStray stays s t) :
      SiftedSocket stays ⟨.socket s, deaf, endSeen⟩ ⟨.socket t, deaf, endSeen⟩

theorem sifted_pipe {l : Link} {inlet : Inlet} {outlet : Outlet} (pipe : l.transport = .pipe inlet outlet)
    (between : inlet.begun = []) :
    SiftedPipe l l.sift := by
  rcases l with ⟨_, deaf, endSeen⟩
  cases pipe
  exact .intro inlet _ outlet deaf endSeen rfl fun _ => Inlet.sifts_sift between

theorem sifted_socket {l : Link} {s : Socket} {stays : Bool} (socket : l.transport = .socket s)
    (conforms : s.conforms stays = true) :
    SiftedSocket stays l l.sift := by
  rcases l with ⟨_, deaf, endSeen⟩
  cases socket
  exact .intro s _ deaf endSeen (Socket.sifts_sift conforms)

-- What the far end does instead, if it holds back the stray frames.
def heeded (l : Link) (deed : Far) : List Far :=
  match l.transport, deed with
  | .memory _, .hand handed => if handed.isStray then [] else [deed]
  | .pipe inlet _, .arrive arrivals => [.arrive (inlet.passes Message.isStray arrivals)]
  | .pipe inlet _, .hangUp => [.arrive (Inlet.released (inlet.held Message.isStray)), .hangUp]
  | .socket _, .message m => if m.isDropped Message.isStray then [] else [deed]
  | _, _ => [deed]

-- Somebody reads, unless reading only panics.
def HearsPipe (l : Link) : Prop := ∃ inlet outlet, l.transport = .pipe inlet outlet ∧
    (l.deaf = true → inlet.overflows = true)

-- A read need not write anything first.
def HearsSocket (l : Link) : Prop := ∃ s, l.transport = .socket s ∧ s.replyOwed = false

end Link

def Far.conforms (stays : Bool) : Far → Bool
  | .hangUp => !stays
  | .message m => stays || !m.isPing
  | _ => true

namespace Connection

-- The second link goes along with the first one, whose far end does what is `apt`, and is spared the stray frames.
structure Withholds (apt : Far → Prop) (hears : Link → Prop) (alike : Link → Link → Prop) :
    Prop extends Tracks hears alike where
  stray : ∀ l k bytes, hears l → alike l k → l.receive.1 = .frame bytes → Message.isStray bytes = true →
    alike l.receive.2 k
  far : ∀ l k deed, apt deed → alike l k → alike (l.far deed) ((l.heeded deed).foldl Link.far k)

theorem memory_withholds : Withholds (fun _ => True) (fun _ => True) Link.Sifted where
  send _ _ s sifted := Link.sifted_send sifted s
  close _ _ sifted := by
    obtain ⟨m, deaf, endSeen, rfl, rfl⟩ := Link.sifted_memory sifted
    exact Link.sifted_of _ deaf endSeen
  deafen _ _ sifted := by
    obtain ⟨m, deaf, endSeen, rfl, rfl⟩ := Link.sifted_memory sifted
    exact Link.sifted_of m true endSeen
  receive _ _ _ sifted := Link.sifted_receive sifted
  stray _ _ bytes _ sifted := Link.sifted_stray sifted bytes
  far := by
    intro l k deed _ sifted
    cases deed with
    | hand handed =>
        have given := Link.sifted_hand sifted handed
        obtain ⟨m, deaf, endSeen, rfl, rfl⟩ := Link.sifted_memory sifted
        cases stray : handed.isStray <;> simpa [Link.heeded, Link.far, stray] using given
    | hangUp =>
        have hung := Link.sifted_hand sifted .hangup
        obtain ⟨m, deaf, endSeen, rfl, rfl⟩ := Link.sifted_memory sifted
        exact hung
    | arrive | message | snap | pace | script | look =>
        obtain ⟨m, deaf, endSeen, rfl, rfl⟩ := Link.sifted_memory sifted
        exact Link.sifted_of _ _ _

theorem pipe_withholds : Withholds (fun _ => True) Link.HearsPipe Link.SiftedPipe where
  send := by
    rintro _ _ s ⟨i, j, outlet, deaf, endSeen, limit, sifts⟩
    exact ⟨rfl, .intro i j (outlet.send s).2 deaf endSeen limit sifts⟩
  close := by
    rintro _ _ ⟨i, j, outlet, deaf, endSeen, limit, sifts⟩
    exact .intro i j outlet.close.2 deaf endSeen limit sifts
  deafen := by
    rintro _ _ ⟨i, j, outlet, deaf, endSeen, limit, sifts⟩
    exact .intro i j outlet true endSeen limit fun hears => by cases hears
  receive := by
    rintro _ _ ⟨i, outlet, transport, hears⟩ ⟨_, j, _, deaf, endSeen, limit, sifts⟩ heeded
    cases transport
    have limits : j.receive.2.maxFrameBytes = i.receive.2.maxFrameBytes := by
      rw [Inlet.receive_limit, Inlet.receive_limit, limit]
    cases deaf with
    | false =>
        obtain ⟨same, later⟩ := Inlet.sifts_receive (sifts rfl) heeded
        exact ⟨same, .intro _ _ outlet false endSeen limits fun _ => later⟩
    | true =>
        have excess : i.overflows = true := hears rfl
        have alike : j.overflows = true := by
          rw [Inlet.overflows, Inlet.limit, limit]
          exact excess
        refine ⟨?_, .intro _ _ outlet true endSeen limits fun hears => by cases hears⟩
        change i.receive.1 = j.receive.1
        rw [Inlet.overflow_receive excess, Inlet.overflow_receive alike]
  stray := by
    rintro _ _ bytes - ⟨i, j, outlet, deaf, endSeen, limit, sifts⟩ received stray
    exact .intro _ j outlet deaf endSeen (limit.trans (Inlet.receive_limit i).symm) fun hears =>
      Inlet.sifts_drops (sifts hears) bytes received stray
  far := by
    rintro _ _ deed - ⟨i, j, outlet, deaf, endSeen, limit, sifts⟩
    cases deed with
    | arrive arrivals =>
        cases deaf with
        | true => exact .intro i j outlet true endSeen limit sifts
        | false =>
            have alike := Inlet.sifts_ended (sifts rfl)
            cases ended : i.ended with
            | true => simpa [Link.far, Link.heeded, alike, ended] using .intro i j outlet false endSeen limit sifts
            | false =>
                simp only [Link.far, Link.heeded, List.foldl_cons, List.foldl_nil, alike, ended, Bool.or_false,
                  Bool.false_eq_true, if_false]
                have later := Inlet.sifts_arrive (sifts rfl) ended arrivals
                simp only [alike, ended] at later
                exact .intro _ _ outlet false endSeen limit fun _ => later
    | hangUp =>
        cases deaf with
        | true => exact .intro _ _ outlet true endSeen limit fun hears => by cases hears
        | false =>
            have alike := Inlet.sifts_ended (sifts rfl)
            cases ended : i.ended with
            | true =>
                simp only [Link.far, Link.heeded, List.foldl_cons, List.foldl_nil, alike, ended, Bool.or_true, if_true]
                have still : ∀ inlet : Inlet, inlet.ended = true → { inlet with ended := true } = inlet := by
                  rintro ⟨_, _, _, _⟩ rfl
                  rfl
                refine .intro _ _ outlet false endSeen limit fun _ => ?_
                rw [still i ended, still j (alike.trans ended)]
                exact sifts rfl
            | false =>
                simp only [Link.far, Link.heeded, List.foldl_cons, List.foldl_nil, alike, ended, Bool.or_false,
                  Bool.false_eq_true, if_false]
                exact .intro _ _ outlet false endSeen limit fun _ => Inlet.sifts_hangUp (sifts rfl) ended
    | look =>
        simp only [Link.far, Link.heeded, List.foldl_cons, List.foldl_nil, Link.collect]
        split
        · exact .intro i j outlet deaf _ limit sifts
        · exact .intro i j _ deaf _ limit sifts
    | message | hand | snap | pace | script => exact .intro i j _ deaf endSeen limit sifts

theorem socket_withholds (stays : Bool) :
    Withholds (fun deed => deed.conforms stays = true) Link.HearsSocket (Link.SiftedSocket stays) where
  send := by
    rintro _ _ sending ⟨s, t, deaf, endSeen, sifts⟩
    obtain ⟨same, later⟩ := Socket.sifts_send sifts sending.rest
    exact ⟨same, .intro _ _ deaf endSeen later⟩
  close := by
    rintro _ _ ⟨s, t, deaf, endSeen, sifts⟩
    exact .intro _ _ deaf endSeen (Socket.sifts_close sifts)
  deafen := by
    rintro _ _ ⟨s, t, deaf, endSeen, sifts⟩
    exact .intro s t true endSeen sifts
  receive := by
    rintro _ _ - ⟨s, t, deaf, endSeen, sifts⟩ heeded
    obtain ⟨same, later⟩ := Socket.sifts_receive sifts heeded
    exact ⟨same, .intro _ _ deaf endSeen later⟩
  stray := by
    rintro _ _ bytes ⟨socket, transport, unowed⟩ ⟨s, t, deaf, endSeen, sifts⟩ received stray
    cases transport
    exact .intro _ t deaf endSeen (Socket.sifts_drops sifts bytes received stray unowed)
  far := by
    rintro _ _ deed conforms ⟨s, t, deaf, endSeen, sifts⟩
    cases deed with
    | message m =>
        have fed := Socket.sifts_feed sifts m conforms
        cases deaf with
        | true =>
            have still := Link.SiftedSocket.intro s t true endSeen sifts
            cases dropped : m.isDropped Message.isStray <;>
              simpa [Link.far, Link.heeded, Link.post, dropped] using still
        | false =>
            have later := Link.SiftedSocket.intro _ _ false endSeen fed
            cases dropped : m.isDropped Message.isStray <;>
              simpa [Link.far, Link.heeded, Link.post, Link.withTransport, dropped] using later
    | hangUp =>
        have leaves : stays = false := by simpa [Far.conforms] using conforms
        exact .intro _ _ deaf endSeen (Socket.sifts_vanish sifts leaves)
    | look =>
        obtain ⟨holds, late, idle, rfl⟩ := sifts
        simp only [Link.far, Link.heeded, List.foldl_cons, List.foldl_nil, Link.collect]
        split
        · exact .intro _ _ deaf _ ⟨holds, late, idle, rfl⟩
        · exact .intro _ _ deaf _ (Socket.sifts_collect ⟨holds, late, idle, rfl⟩)
    | arrive | hand | snap | pace | script => exact .intro s t deaf endSeen sifts

theorem pipe_lasting : Lasting Link.HearsPipe where
  reads := by
    rintro ⟨_, deaf, endSeen⟩ ⟨inlet, outlet, rfl, hears⟩ -
    refine ⟨inlet.receive.2, outlet, rfl, fun ends => ?_⟩
    rw [Inlet.overflows, Inlet.limit, Inlet.receive_limit]
    exact hears ends
  panics := by
    rintro ⟨_, deaf, endSeen⟩ ⟨inlet, outlet, rfl, hears⟩ panics
    refine ⟨inlet.receive.2, outlet, rfl, fun _ => ?_⟩
    rw [Inlet.overflows, Inlet.limit, Inlet.receive_limit]
    exact Inlet.panicked_overflow panics
  sends := by
    rintro ⟨_, deaf, endSeen⟩ s ⟨inlet, outlet, rfl, hears⟩
    exact ⟨inlet, (outlet.send s).2, rfl, hears⟩
  far := by
    rintro ⟨_, deaf, endSeen⟩ deed ⟨inlet, outlet, rfl, hears⟩
    cases deed with
    | arrive arrivals =>
        simp only [Link.far]
        split
        · exact ⟨inlet, outlet, rfl, hears⟩
        · exact ⟨_, outlet, rfl, hears⟩
    | look =>
        simp only [Link.far, Link.collect]
        split
        · exact ⟨inlet, outlet, rfl, hears⟩
        · exact ⟨inlet, _, rfl, hears⟩
    | message | hand | hangUp | snap | pace | script => exact ⟨_, _, rfl, hears⟩

theorem socket_lasting : Lasting Link.HearsSocket where
  reads := by
    rintro ⟨_, deaf, endSeen⟩ ⟨s, rfl, unowed⟩ goesOn
    exact ⟨s.receive.2, rfl, Socket.receive_unowed unowed goesOn⟩
  panics := by
    rintro ⟨_, deaf, endSeen⟩ ⟨s, rfl, unowed⟩ panics
    exact ⟨s.receive.2, rfl, Socket.receive_unowed unowed (congrArg Received.stops panics)⟩
  sends := by
    rintro ⟨_, deaf, endSeen⟩ sending ⟨s, rfl, unowed⟩
    exact ⟨(s.send sending.rest).2, rfl, (Socket.send_unowed sending.rest).trans unowed⟩
  far := by
    rintro ⟨_, deaf, endSeen⟩ deed ⟨s, rfl, unowed⟩
    cases deed with
    | message m =>
        simp only [Link.far, Link.post]
        split
        · exact ⟨s, rfl, unowed⟩
        · refine ⟨(s.feed m).2, rfl, ?_⟩
          rw [Socket.feed]
          split <;> exact unowed
    | look =>
        simp only [Link.far, Link.collect]
        split
        · exact ⟨s, rfl, unowed⟩
        · exact ⟨s.collect.2, rfl, unowed⟩
    | arrive | hand | hangUp | snap | pace | script => exact ⟨_, rfl, unowed⟩

end Connection

end DevTools
