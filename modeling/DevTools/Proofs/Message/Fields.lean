import DevTools.Proofs.Json.Slots
import DevTools.Message.Frame

set_option autoImplicit false

namespace DevTools

open Json

@[simp]
theorem id_regular (depth : Nat) : Regular (readId depth) :=
  map_regular _ (map_regular _ (integer_regular unsigned depth))

@[simp]
theorem id_blind (depth : Nat) : Blind (readId depth) :=
  map_blind _ (map_regular _ (integer_regular unsigned depth))
    (map_blind _ (integer_regular unsigned depth) (integer_blind unsigned depth))

@[simp]
theorem code_regular (depth : Nat) : Regular (readCode depth) :=
  map_regular _ (integer_regular Json.signed depth)

@[simp]
theorem code_blind (depth : Nat) : Blind (readCode depth) :=
  map_blind _ (integer_regular Json.signed depth) (integer_blind Json.signed depth)

@[simp]
theorem session_regular (depth : Nat) : Regular (readSessionId depth) :=
  map_regular _ (text_regular depth)

@[simp]
theorem session_blind (depth : Nat) : Blind (readSessionId depth) :=
  map_blind _ (text_regular depth) (text_blind depth)

@[simp]
theorem opaque_regular (depth : Nat) : Regular (readOpaque depth) := payload_regular

namespace ErrorPayload

theorem fielded (depth : Nat) : record.Fielded depth := by
  simp [Record.Fielded, record]

theorem blind (depth : Nat) : ∀ field ∈ record.fields, field.Blind depth := by
  simp [record]

theorem slot_data : record.Slot "data" (readOptional readValue) data := by
  refine ⟨⟨_, _, rfl, fun _ _ => rfl⟩, ?_, ?_⟩ <;> simp [record]

end ErrorPayload

@[simp]
theorem error_regular (depth : Nat) : Regular (ErrorPayload.record.read depth) :=
  ErrorPayload.record.record_regular depth ErrorPayload.fielded

@[simp]
theorem error_blind (depth : Nat) : Blind (ErrorPayload.record.read depth) :=
  ErrorPayload.record.record_blind depth ErrorPayload.fielded ErrorPayload.blind

namespace Request

theorem fielded (depth : Nat) : record.Fielded depth := by
  simp [Record.Fielded, record]

theorem slots : record.Slot "id" readId id ∧ record.Slot "method" readText method ∧
    record.Slot "params" (readOptional readOpaque) params ∧
      record.Slot "sessionId" (readOptional readSessionId) session := by
  refine ⟨⟨⟨_, _, rfl, fun _ _ => rfl⟩, ?_, ?_⟩, ⟨⟨_, _, rfl, fun _ _ => rfl⟩, ?_, ?_⟩,
    ⟨⟨_, _, rfl, fun _ _ => rfl⟩, ?_, ?_⟩,
    ⟨⟨_, _, rfl, fun _ _ => rfl⟩, ?_, ?_⟩⟩ <;> simp [record]

end Request

namespace Response

theorem fielded (depth : Nat) : record.Fielded depth := by
  simp [Record.Fielded, record]

theorem slots : record.Slot "id" readId id ∧ record.Slot "result" (readOptional readOpaque) result ∧
    record.Slot "error" (readOptional ErrorPayload.record.read) error ∧
      record.Slot "sessionId" (readOptional readSessionId) session := by
  refine ⟨⟨⟨_, _, rfl, fun _ _ => rfl⟩, ?_, ?_⟩, ⟨⟨_, _, rfl, fun _ _ => rfl⟩, ?_, ?_⟩,
    ⟨⟨_, _, rfl, fun _ _ => rfl⟩, ?_, ?_⟩,
    ⟨⟨_, _, rfl, fun _ _ => rfl⟩, ?_, ?_⟩⟩ <;> simp [record]

end Response

namespace Event

theorem fielded (depth : Nat) : record.Fielded depth := by
  simp [Record.Fielded, record]

theorem slots : record.Slot "method" readText method ∧ record.Slot "params" (readOptional readOpaque) params ∧
    record.Slot "sessionId" (readOptional readSessionId) session := by
  refine ⟨⟨⟨_, _, rfl, fun _ _ => rfl⟩, ?_, ?_⟩, ⟨⟨_, _, rfl, fun _ _ => rfl⟩, ?_, ?_⟩,
    ⟨⟨_, _, rfl, fun _ _ => rfl⟩, ?_, ?_⟩⟩ <;>
    simp [record]

end Event

namespace Frame

theorem fielded (depth : Nat) : record.Fielded depth := by
  simp [Record.Fielded, record]

theorem slots : record.Slot "id" (readOptional readId) id ∧ record.Slot "method" (readOptional readText) method ∧
    record.Slot "params" (readOptional readOpaque) params ∧ record.Slot "result" (readOptional readOpaque) result ∧
    record.Slot "error" (readOptional ErrorPayload.record.read) error ∧
    record.Slot "sessionId" (readOptional readSessionId) session := by
  refine ⟨⟨⟨_, _, rfl, fun _ _ => rfl⟩, ?_, ?_⟩, ⟨⟨_, _, rfl, fun _ _ => rfl⟩, ?_, ?_⟩,
    ⟨⟨_, _, rfl, fun _ _ => rfl⟩, ?_, ?_⟩,
    ⟨⟨_, _, rfl, fun _ _ => rfl⟩, ?_, ?_⟩, ⟨⟨_, _, rfl, fun _ _ => rfl⟩, ?_, ?_⟩,
      ⟨⟨_, _, rfl, fun _ _ => rfl⟩, ?_, ?_⟩⟩ <;>
    simp [record]

theorem classify_cases (f : Frame) (m : Message) (classified : f.classify = .ok m) :
    (∃ id method, f.id = some id ∧ id ≠ 0 ∧ f.method = some method ∧ m = .request ⟨id, method, f.params, f.session⟩) ∨
    (∃ id, f.id = some id ∧ id ≠ 0 ∧ f.method = none ∧ (f.result = none ∨ f.error = none) ∧
      m = .response ⟨id, if f.result.isNone ∧ f.error.isNone then some .emptyObject else f.result,
        f.error, f.session⟩) ∨
    ∃ method, f.id.filter (· ≠ 0) = none ∧ f.method = some method ∧ m = .event ⟨method, f.params, f.session⟩ := by
  have ours : ∀ id, f.id.filter (· ≠ 0) = some id → f.id = some id ∧ id ≠ 0 := by
    intro id filtered
    obtain ⟨said, nonzero⟩ := Option.filter_eq_some_iff.mp filtered
    exact ⟨said, by simpa using nonzero⟩
  rw [classify] at classified
  split at classified
  · next id method filtered said =>
    cases classified
    obtain ⟨there, nonzero⟩ := ours id filtered
    exact Or.inl ⟨id, method, there, nonzero, said, rfl⟩
  · next id filtered silent =>
    obtain ⟨there, nonzero⟩ := ours id filtered
    refine Or.inr (Or.inl ⟨id, there, nonzero, silent, ?_⟩)
    rw [response] at classified
    split at classified
    · cases classified
    · next result error =>
      cases classified
      exact ⟨Or.inl result, by simp [result, error]⟩
    · next single neither =>
      cases classified
      cases result : f.result with
      | none =>
          cases error : f.error with
          | none => exact absurd error (neither result)
          | some e => exact ⟨Or.inl rfl, by simp⟩
      | some p =>
          cases error : f.error with
          | none => exact ⟨Or.inr rfl, by simp⟩
          | some e => exact absurd error (single p e result)
  · next method filtered said =>
    cases classified
    exact Or.inr (Or.inr ⟨method, filtered, said, rfl⟩)
  · cases classified

end Frame

-- The members of a frame, and what each of its six parts is read from.
structure Frame.Made (frame : Frame) (ms : List Member) : Prop where
  sound : Frame.record.Sound 126 ms
  id : Has ms "id" (readOptional readId 126) none frame.id
  method : Has ms "method" (readOptional readText 126) none frame.method
  params : Has ms "params" (readOptional readOpaque 126) none frame.params
  result : Has ms "result" (readOptional readOpaque 126) none frame.result
  error : Has ms "error" (readOptional ErrorPayload.record.read 126) none frame.error
  session : Has ms "sessionId" (readOptional readSessionId 126) none frame.session

theorem frame_made (ms : List Member) (frame : Frame) (gives : Frame.record.Gives 126 ms frame) : frame.Made ms := by
  obtain ⟨id, method, params, result, error, session⟩ := Frame.slots
  exact ⟨Record.gives_sound ms frame gives, Record.gives_has id ms frame gives, Record.gives_has method ms frame gives,
    Record.gives_has params ms frame gives, Record.gives_has result ms frame gives,
      Record.gives_has error ms frame gives,
    Record.gives_has session ms frame gives⟩

theorem made_gives (ms : List Member) (frame : Frame) (made : frame.Made ms) : Frame.record.Gives 126 ms frame := by
  obtain ⟨other, gives⟩ := Record.sound_gives ms made.sound
  have also := frame_made ms other gives
  have id := has_unique ms _ _ _ _ _ made.id also.id
  have method := has_unique ms _ _ _ _ _ made.method also.method
  have params := has_unique ms _ _ _ _ _ made.params also.params
  have result := has_unique ms _ _ _ _ _ made.result also.result
  have error := has_unique ms _ _ _ _ _ made.error also.error
  have session := has_unique ms _ _ _ _ _ made.session also.session
  obtain ⟨_, _, _, _, _, _⟩ := frame
  subst id method params result error session
  exact gives

theorem Message.decode_parses (f : Bytes) (m : Message) (decoded : Message.decode f = .ok m) :
    ∃ frame, Frame.record.parse f = .ok frame ∧ frame.classify = .ok m := by
  rw [decode] at decoded
  split at decoded
  · next frame parsed => exact ⟨frame, parsed, decoded⟩
  · cases decoded

theorem decode_classifies (f : Bytes) (frame : Frame) (parsed : Frame.record.parse f = .ok frame) :
    Message.decode f = frame.classify := by
  rw [Message.decode, parsed]

theorem decode_parsed (f : Bytes) (accepted : ∀ fault, Message.decode f ≠ .error (.json fault)) :
    ∃ frame, Frame.record.parse f = .ok frame := by
  cases parsed : Frame.record.parse f with
  | ok frame => exact ⟨frame, rfl⟩
  | error fault =>
      have refused : Message.decode f = .error (.json fault) := by rw [Message.decode, parsed]
      exact absurd refused (accepted fault)

theorem decode_faults (f : Bytes) (fault : FrameFault)
    (faults : (match Message.decode f with | .ok _ => none | .error other => some other) = some fault) :
    Message.decode f = .error fault := by
  cases decoded : Message.decode f with
  | ok m =>
      rw [decoded] at faults
      cases faults
  | error other =>
      rw [decoded] at faults
      rw [Option.some.inj faults]

end DevTools
