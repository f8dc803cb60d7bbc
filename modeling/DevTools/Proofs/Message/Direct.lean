import DevTools.Proofs.Message.Fields

set_option autoImplicit false

namespace DevTools

open Json

namespace Message

-- What the parser of the message's own kind makes of a frame. A result that the frame does not give is absent there.
def Direct (f : Bytes) : Message → Prop
  | request r => Request.record.parse f = .ok r
  | event e => Event.record.parse f = .ok e
  | response r => ∃ result, Response.record.parse f = .ok { r with result } ∧
      r.result = if result.isNone ∧ r.error.isNone then some .emptyObject else result

end Message

-- Without any of the members that a record has no field for, a frame parses as it does with them.
def Json.Record.Overlooks {α : Type} (r : Record α) (f : Bytes) : Prop :=
  ∀ (ms : List Member) (keep : Member → Bool) (g : Bytes),
  Laid ms f → (∀ m ∈ ms, keep m = false → r.Foreign m) → Laid (ms.filter keep) g → r.parse g = r.parse f

def Message.Overlooks (f : Bytes) : Message → Prop
  | request _ => Request.record.Overlooks f
  | event _ => Event.record.Overlooks f
  | response _ => Response.record.Overlooks f

theorem parse_overlooks {α : Type} (r : Record α) (fielded : r.Fielded 126) (f : Bytes) (a : α)
    (parsed : r.parse f = .ok a) :
    r.Overlooks f := by
  intro ms keep g laid foreign rest
  rw [parsed, r.laid_parses fielded _ g rest]
  exact Record.gives_filter keep ms a ((r.laid_parses fielded ms f laid a).mp parsed) foreign

section
variable (ms : List Member) (frame : Frame) (made : frame.Made ms)
include made

theorem request_given (id : UInt64) (method : String) (said : frame.id = some id) (named : frame.method = some method) :
    Request.record.Gives 126 ms ⟨id, method, frame.params, frame.session⟩ := by
  obtain ⟨there, hasId⟩ := has_some ms "id" 0 id (id_regular 126) (said ▸ made.id)
  obtain ⟨present, hasMethod⟩ := has_some ms "method" "" method (text_regular 126) (named ▸ made.method)
  have sound : Request.record.Sound 126 ms := by
    refine Record.sound_narrows _ ms made.sound ?_ ?_ ?_
    · simp [Request.record, Frame.record, Record.field?]
    · simp only [Request.record, List.forall_mem_cons]
      exact ⟨of_heard _ _ _ _ 126 ms 0 id hasId, of_heard _ _ _ _ 126 ms "" method hasMethod,
        of_heard _ _ _ _ 126 ms none _ made.params,
        of_heard _ _ _ _ 126 ms none _ made.session, fun _ none => absurd none List.not_mem_nil⟩
    · simp [Request.record, Field.of, there, present]
  obtain ⟨r, gives⟩ := Record.sound_gives ms sound
  obtain ⟨slotId, slotMethod, slotParams, slotSession⟩ := Request.slots
  have sameId := has_unique ms _ _ _ _ _ (Record.gives_has slotId ms r gives) hasId
  have sameMethod := has_unique ms _ _ _ _ _ (Record.gives_has slotMethod ms r gives) hasMethod
  have sameParams := has_unique ms _ _ _ _ _ (Record.gives_has slotParams ms r gives) made.params
  have sameSession := has_unique ms _ _ _ _ _ (Record.gives_has slotSession ms r gives) made.session
  rw [← sameId, ← sameMethod, ← sameParams, ← sameSession]
  exact gives

theorem event_given (method : String) (named : frame.method = some method) :
    Event.record.Gives 126 ms ⟨method, frame.params, frame.session⟩ := by
  obtain ⟨present, hasMethod⟩ := has_some ms "method" "" method (text_regular 126) (named ▸ made.method)
  have sound : Event.record.Sound 126 ms := by
    refine Record.sound_narrows _ ms made.sound ?_ ?_ ?_
    · simp [Event.record, Frame.record, Record.field?]
    · simp only [Event.record, List.forall_mem_cons]
      exact ⟨of_heard _ _ _ _ 126 ms "" method hasMethod, of_heard _ _ _ _ 126 ms none _ made.params,
        of_heard _ _ _ _ 126 ms none _ made.session, fun _ none => absurd none List.not_mem_nil⟩
    · simp [Event.record, Field.of, present]
  obtain ⟨e, gives⟩ := Record.sound_gives ms sound
  obtain ⟨slotMethod, slotParams, slotSession⟩ := Event.slots
  have sameMethod := has_unique ms _ _ _ _ _ (Record.gives_has slotMethod ms e gives) hasMethod
  have sameParams := has_unique ms _ _ _ _ _ (Record.gives_has slotParams ms e gives) made.params
  have sameSession := has_unique ms _ _ _ _ _ (Record.gives_has slotSession ms e gives) made.session
  rw [← sameMethod, ← sameParams, ← sameSession]
  exact gives

theorem response_given (id : UInt64) (said : frame.id = some id) :
    Response.record.Gives 126 ms ⟨id, frame.result, frame.error, frame.session⟩ := by
  obtain ⟨there, hasId⟩ := has_some ms "id" 0 id (id_regular 126) (said ▸ made.id)
  have sound : Response.record.Sound 126 ms := by
    refine Record.sound_narrows _ ms made.sound ?_ ?_ ?_
    · simp [Response.record, Frame.record, Record.field?]
    · simp only [Response.record, List.forall_mem_cons]
      exact ⟨of_heard _ _ _ _ 126 ms 0 id hasId, of_heard _ _ _ _ 126 ms none _ made.result,
        of_heard _ _ _ _ 126 ms none _ made.error,
        of_heard _ _ _ _ 126 ms none _ made.session, fun _ none => absurd none List.not_mem_nil⟩
    · simp [Response.record, Field.of, there]
  obtain ⟨r, gives⟩ := Record.sound_gives ms sound
  obtain ⟨slotId, slotResult, slotError, slotSession⟩ := Response.slots
  have sameId := has_unique ms _ _ _ _ _ (Record.gives_has slotId ms r gives) hasId
  have sameResult := has_unique ms _ _ _ _ _ (Record.gives_has slotResult ms r gives) made.result
  have sameError := has_unique ms _ _ _ _ _ (Record.gives_has slotError ms r gives) made.error
  have sameSession := has_unique ms _ _ _ _ _ (Record.gives_has slotSession ms r gives) made.session
  rw [← sameId, ← sameResult, ← sameError, ← sameSession]
  exact gives

end

theorem decode_direct (f : Bytes) (m : Message) (object : IsObject f) (decoded : Message.decode f = .ok m) :
    m.Direct f ∧ m.Overlooks f := by
  obtain ⟨frame, parsed, classified⟩ := Message.decode_parses f m decoded
  obtain ⟨ms, laid, gives⟩ := Frame.record.object_parses (Frame.fielded 126) f frame object parsed
  have made := frame_made ms frame gives
  rcases frame.classify_cases m classified with ⟨id, method, said, _, named, rfl⟩ | ⟨id, said, _, _, _, rfl⟩
    | ⟨method, _, named, rfl⟩
  · have direct := (Request.record.laid_parses (Request.fielded 126) ms f laid _).mpr
      (request_given ms frame made id method said named)
    exact ⟨direct, parse_overlooks _ (Request.fielded 126) f _ direct⟩
  · have direct :=
      (Response.record.laid_parses (Response.fielded 126) ms f laid _).mpr (response_given ms frame made id said)
    exact ⟨⟨frame.result, direct, rfl⟩, parse_overlooks _ (Response.fielded 126) f _ direct⟩
  · have direct :=
      (Event.record.laid_parses (Event.fielded 126) ms f laid _).mpr (event_given ms frame made method named)
    exact ⟨direct, parse_overlooks _ (Event.fielded 126) f _ direct⟩

theorem decode_direct_request :
    let f := Utf8.encode " \x7b\"result\":[1e999],\"id\":1,\"error\":null,\"method\":\"A\",\"x\":\"\\ud800\"\x7d"
    ∃ m, IsObject f ∧ Message.decode f = .ok m ∧ m.method? = some "A" ∧ m.Direct f ∧ m.Overlooks f := by
  intro f
  have object : IsObject f := ⟨[Ascii.space], f.drop 2, List.forall_mem_singleton.mpr rfl, by decide +kernel⟩
  have named : (Message.decode f).toOption.bind Message.method? = some "A" := by decide +kernel
  cases decoded : Message.decode f with
  | error fault =>
      rw [decoded] at named
      cases named
  | ok m =>
      rw [decoded] at named
      obtain ⟨direct, overlooks⟩ := decode_direct f m object decoded
      exact ⟨m, object, rfl, named, direct, overlooks⟩

end DevTools
