import DevTools.Proofs.Connection.Request
import DevTools.Proofs.Transport.Passage
import DevTools.Transport.Socket

set_option autoImplicit false

namespace DevTools

-- How requests come through: as frames that are text, written in whatever portions the pipe takes, read in
-- whatever chunks it gives, and decoded one by one.
structure Survive (requests : List Request) : Prop where
  frames : ∀ r ∈ requests, r.frame ≠ [] ∧ Ascii.nul ∉ r.frame ∧ ∃ text, Utf8.decode r.frame = .ok text
  socket : ∀ r ∈ requests, ∀ (s : Socket) (reason : String),
    (s.send r.frame).1 ≠ .failed (.transport s!"Frame is not valid UTF-8: {reason}")
  written : ∀ o : Outlet, o.Healthy → ∃ after, Writes o (requests.map Request.frame) after
  read : ∀ (o after : Outlet) (chunks : List Bytes) (m : UInt64), o.accepted = [] →
    Writes o (requests.map Request.frame) after →
    chunks.flatten = after.accepted → m.toNat + 1 < UInt64.size → (∀ r ∈ requests, r.frame.length ≤ m.toNat) →
    ∀ found, Reads { maxFrameBytes := m } chunks found ↔ found = requests.map (fun r => .frame r.frame) ++ [.ended]
  decoded : requests.map (fun r => Message.decode r.frame) = requests.map fun r => .ok (.request r)
  absent : ∀ r ∈ requests, ∀ asked : Asked, asked.request? r.id = some r →
    (r.params = none ↔ asked.params.render = .ok "null")

theorem frame_text (r : Request) : Utf8.decode r.frame = .ok r.render := by
  have decoded := Utf8.decode_encode r.render
  change (Utf8.decode r.frame).toOption = _ at decoded
  cases text : Utf8.decode r.frame with
  | error fault =>
      rw [text] at decoded
      cases decoded
  | ok text_ =>
      rw [text] at decoded
      exact congrArg _ (Option.some.inj decoded)

-- What else may stop a socket is told apart from its check of the text by the first words.
theorem socket_sends (s : Socket) (frame : Bytes) (text reason : String) (valid : Utf8.decode frame = .ok text) :
    (s.send frame).1 ≠ .failed (.transport s!"Frame is not valid UTF-8: {reason}") := by
  have differs (other : String) : Socket.sendFault other ≠ .transport s!"Frame is not valid UTF-8: {reason}" := by
    intro same
    have words := congrArg (fun text => text.toList.take 2) (Error.transport.inj same)
    simp only [String.toList_append] at words
    rw [List.take_append_of_le_length (by decide), List.take_append_of_le_length (by decide)] at words
    exact absurd words (by decide)
  rw [Socket.send, valid]
  dsimp only
  split
  · exact fun same => differs _ (Sent.failed.inj same)
  · split
    · exact fun same => differs _ (Sent.failed.inj same)
    · exact Sent.noConfusion
  · exact fun same => differs _ (Sent.failed.inj same)

theorem requests_survive (requests : List Request) (built : ∀ r ∈ requests, r.Built) : Survive requests := by
  have whole : ∀ f ∈ requests.map Request.frame, f ≠ [] ∧ Ascii.nul ∉ f := by
    intro f member
    obtain ⟨r, inside, rfl⟩ := List.mem_map.mp member
    exact built_whole (built r inside)
  refine ⟨?_, ?_, ?_, ?_, ?_, ?_⟩
  · intro r member
    obtain ⟨some_, undelimited⟩ := built_whole (built r member)
    exact ⟨some_, undelimited, r.render, frame_text r⟩
  · intro r _ s reason
    exact socket_sends s r.frame r.render reason (frame_text r)
  · intro o healthy
    obtain ⟨after, writes, _⟩ := healthy_writes healthy (requests.map Request.frame)
    exact ⟨after, writes⟩
  · intro o after chunks m fresh writes brings bounded fits found
    have short : ∀ f ∈ requests.map Request.frame, f.length ≤ m.toNat := by
      intro f member
      obtain ⟨r, inside, rfl⟩ := List.mem_map.mp member
      exact fits r inside
    have reads := passage_reads fresh whole writes brings bounded short found
    rw [List.map_map] at reads
    exact reads
  · exact List.map_congr_left fun r member => built_decodes (built r member)
  · exact fun r _ asked made => Asked.params_absent made

-- Names of every kind, and parameters that make no payload because they are no number.
def oddRequests : List Request :=
  [⟨18446744073709551615, "Page.\"x\"\n\\\x00", some ⟨"\x7b\x7d"⟩, some ⟨""⟩⟩, ⟨1, "A", none, none⟩]

theorem requests_survive_odd :
    (∀ r ∈ oddRequests, r.Built) ∧ Survive oddRequests ∧
      ∃ after, Writes { room := some 5 } (oddRequests.map Request.frame) after := by
  have built : ∀ r ∈ oddRequests, r.Built := by
    intro r member
    rcases List.mem_cons.mp member with rfl | member
    · exact ⟨by decide, ⟨"Page.\"x\"\n\\\x00", .empty, some ⟨""⟩⟩, by decide, trivial, by decide +kernel⟩
    · cases List.mem_singleton.mp member
      exact ⟨by decide, ⟨"A", .float .nan, none⟩, by decide, trivial, by decide +kernel⟩
  have survive := requests_survive oddRequests built
  exact ⟨built, survive, survive.written _ ⟨rfl, rfl, rfl, rfl⟩⟩

end DevTools
