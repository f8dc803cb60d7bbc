import DevTools.Proofs.Message.Fields
import DevTools.Proofs.Message.RoundTrip
import DevTools.Proofs.Json.Reread

set_option autoImplicit false

namespace DevTools

open Json

namespace Message

def payload? : Message → Option Payload
  | request r => r.params
  | response r => r.result
  | event e => e.params

def data? : Message → Option Json
  | request _ => none
  | response r => r.error.bind ErrorPayload.data
  | event _ => none

-- A response of which its frame says neither a result nor an error.
def Silent (f : Bytes) (m : Message) : Prop := m.method? = none ∧ ∃ frame, Frame.record.parse f = .ok frame ∧
  frame.result = none ∧ frame.error = none

-- One of result and error is there.
def Single : Message → Prop
  | request _ => True
  | response r => r.result.isSome = true ↔ r.error = none
  | event _ => True

-- Data that no writing loses.
def Restorable (m : Message) : Prop := ∀ v ∈ m.data?, v ≠ .null ∧ Exact v ∧ Bare 125 v

structure Canonical (f : Bytes) (m : Message) : Prop where
  nonzero : m.id? ≠ some 0
  single : m.Single
  payload : ∀ p ∈ m.payload?, p.text ≠ "null" ∧ p.Valid ∧ (Utf8.encode p.text <:+: f ∨ p = .emptyObject ∧ m.Silent f)
  data : ∀ v ∈ m.data?, ∃ text, text <:+: f ∧ Json.Reads (readValue 125) text v ∧
    (v = .null → ∃ only, Laid [only] text ∧ Named only.key embeddingName)
  restored : m.Restorable → decode m.encode = .ok m
  unmentioned : ¬ Mentions f embeddingName → (∀ v ∈ m.data?, v ≠ .null) ∧
    ((∀ v ∈ m.data?, Exact v) → decode m.encode = .ok m)

end Message

theorem payload_said (payload : Option Payload) (present : ∀ p ∈ payload, p.text ≠ "null") :
    payload.bind Payload.said = payload := by
  cases payload with
  | none => rfl
  | some p => exact if_neg (present p rfl)

theorem data_said (data : Option Json) (present : ∀ v ∈ data, v ≠ .null) : data.bind Json.said = data := by
  cases data with
  | none => rfl
  | some v =>
      cases v with
      | null => exact absurd rfl (present .null rfl)
      | _ => rfl

theorem error_said (e : ErrorPayload) (present : ∀ v ∈ e.data, v ≠ .null) : e.said = e := by
  rw [ErrorPayload.said, data_said e.data present]

theorem encode_restores (m : Message) (nonzero : m.id? ≠ some 0) (single : m.Single)
    (payload : ∀ p ∈ m.payload?, p.text ≠ "null" ∧ p.Valid) (data : ∀ v ∈ m.data?, v ≠ .null ∧ Plain 125 v) :
    Message.decode m.encode = .ok m := by
  have present := fun p there => (payload p there).1
  have valid := fun p there => (payload p there).2
  cases m with
  | request r =>
      rw [decode_request r (fun zero => nonzero (congrArg some zero)) valid, Message.said,
        payload_said r.params present]
  | event e =>
      rw [decode_event e valid, Message.said, payload_said e.params present]
  | response r =>
      have plain : ∀ e ∈ r.error, ∀ v ∈ e.data, v ≠ .null ∧ Plain 125 v :=
        fun e failed v there => data v (Option.mem_bind_iff.mpr ⟨e, failed, there⟩)
      have errors : r.error.map ErrorPayload.said = r.error := by
        cases failed : r.error with
        | none => rfl
        | some e => exact congrArg some (error_said e fun v there => (plain e failed v there).1)
      have spoken : ¬ (r.result.isNone = true ∧ r.error.isNone = true) := by
        rintro ⟨empty, unfailed⟩
        have given := single.mpr (Option.isNone_iff_eq_none.mp unfailed)
        rw [Option.isNone_iff_eq_none.mp empty] at given
        cases given
      have said : r.said = r := by
        simp only [Response.said, payload_said r.result present, errors, if_neg spoken]
      rw [decode_response r (fun zero => nonzero (congrArg some zero)) valid fun e failed v there =>
        (plain e failed v there).2,
        payload_said r.result present, if_neg, said]
      rintro ⟨given, failed⟩
      rw [single.mp given] at failed
      cases failed

section
variable (ms : List Member) (f : Bytes) (stand : Stand ms f)
include stand

theorem payload_stands (name : String) (p : Payload) (has : Has ms name (readOptional readOpaque 126) none (some p)) :
    p.text ≠ "null" ∧ p.Valid ∧ Utf8.encode p.text <:+: f := by
  obtain ⟨text, within, spelled, present, rfl⟩ := has_stands ms name Payload.Is payload_takes p f stand has
  refine ⟨?_, spelled, within⟩
  intro null
  rw [null] at present
  exact present rfl

theorem data_stands (e : ErrorPayload) (v : Json)
    (has : Has ms "error" (readOptional ErrorPayload.record.read 126) none (some e))
    (held : e.data = some v) : ∃ text, text <:+: f ∧ text ≠ nullText ∧ Means 125 text v := by
  have takes := ErrorPayload.record.record_takes 125 (ErrorPayload.fielded 125)
  obtain ⟨outer, within, _, _, speaks⟩ := has_stands ms "error" _ takes e f stand has
  obtain ⟨inner, gives, stands⟩ := ErrorPayload.record.speaks_gives 125 (by simp [ErrorPayload.record]) outer e speaks
  have hasData := Record.gives_has ErrorPayload.slot_data inner e gives
  rw [held] at hasData
  obtain ⟨text, inside, _, present, means⟩ :=
    has_stands inner "data" (Means 125) (value_takes 125) v outer stands hasData
  exact ⟨text, inside.trans within, present, means⟩

end

theorem frame_stands (f : Bytes) (frame : Frame) (parsed : Frame.record.parse f = .ok frame) :
    ∃ ms, frame.Made ms ∧ Stand ms f := by
  obtain ⟨before, text, after, _, _, speaks, rfl⟩ := Frame.record.parse_says (Frame.fielded 126) f frame parsed
  obtain ⟨ms, gives, stand⟩ := Frame.record.speaks_gives 126 (by simp [Frame.record]) text frame speaks
  refine ⟨ms, frame_made ms frame gives, fun m member => ⟨(stand m member).1, (stand m member).2.trans ?_⟩⟩
  exact ⟨before, after, List.append_assoc _ _ _⟩

theorem filled_single (id : UInt64) (result : Option Payload) (error : Option ErrorPayload) (session : Option SessionId)
    (single : result = none ∨ error = none) : (Message.response
      ⟨id, if result.isNone = true ∧ error.isNone = true then some .emptyObject else result, error,
        session⟩).Single := by
  cases result <;> cases error <;> simp [Message.Single] at single ⊢

theorem stands_canonical (f : Bytes) (m : Message) (nonzero : m.id? ≠ some 0) (single : m.Single)
    (payload : ∀ p ∈ m.payload?, p.text ≠ "null" ∧ p.Valid ∧
      (Utf8.encode p.text <:+: f ∨ p = .emptyObject ∧ m.Silent f))
    (data : ∀ v ∈ m.data?, ∃ text, text <:+: f ∧ text ≠ nullText ∧ Means 125 text v) : m.Canonical f := by
  have restored : m.Restorable → Message.decode m.encode = .ok m := by
    intro restorable
    refine encode_restores m nonzero single (fun p there => ⟨(payload p there).1, (payload p there).2.1⟩) ?_
    intro v there
    obtain ⟨text, _, _, means⟩ := data v there
    obtain ⟨present, whole, bare⟩ := restorable v there
    exact ⟨present, means_plain 125 125 text v means whole bare⟩
  refine ⟨nonzero, single, payload, ?_, restored, ?_⟩
  · intro v there
    obtain ⟨text, within, present, means⟩ := data v there
    refine ⟨text, within, means_reads 125 text v means, ?_⟩
    rintro rfl
    exact means_null 125 text means present
  · intro unmentioned
    have free := fun text (within : text <:+: f) (mentions : Mentions text embeddingName) =>
      unmentioned (mentions_within text f embeddingName mentions within)
    have present : ∀ v ∈ m.data?, v ≠ .null := by
      rintro _ there rfl
      obtain ⟨text, within, present, means⟩ := data .null there
      obtain ⟨only, laid, named⟩ := means_null 125 text means present
      exact free text within (laid_mentions [only] text laid only List.mem_cons_self embeddingName named)
    refine ⟨present, fun whole => restored fun v there => ⟨present v there, whole v there, ?_⟩⟩
    obtain ⟨text, within, _, means⟩ := data v there
    exact means_bare 125 text v means (free text within)

theorem decode_canonical (f : Bytes) (m : Message) (decoded : Message.decode f = .ok m) : m.Canonical f := by
  obtain ⟨frame, parsed, classified⟩ := Message.decode_parses f m decoded
  obtain ⟨ms, made, stand⟩ := frame_stands f frame parsed
  have params : ∀ p ∈ frame.params, p.text ≠ "null" ∧ p.Valid ∧ Utf8.encode p.text <:+: f :=
    fun p there => payload_stands ms f stand "params" p (Option.mem_def.mp there ▸ made.params)
  have result : ∀ p ∈ frame.result, p.text ≠ "null" ∧ p.Valid ∧ Utf8.encode p.text <:+: f :=
    fun p there => payload_stands ms f stand "result" p (Option.mem_def.mp there ▸ made.result)
  have placed : ∀ m : Message, ∀ p : Payload, p.text ≠ "null" ∧ p.Valid ∧ Utf8.encode p.text <:+: f →
      p.text ≠ "null" ∧ p.Valid ∧ (Utf8.encode p.text <:+: f ∨ p = .emptyObject ∧ m.Silent f) :=
    fun m p kept => ⟨kept.1, kept.2.1, Or.inl kept.2.2⟩
  rcases frame.classify_cases m classified with
    ⟨id, method, _, nonzero, _, rfl⟩ | ⟨id, _, nonzero, _, single, rfl⟩ | ⟨method, _, _, rfl⟩
  · exact stands_canonical f _ (fun zero => nonzero (Option.some.inj zero)) trivial (fun p there =>
      placed _ p (params p there))
      fun v there => absurd there (Option.not_mem_none v)
  · refine stands_canonical f _ (fun zero => nonzero (Option.some.inj zero)) ?_ ?_ ?_
    · exact filled_single id frame.result frame.error frame.session single
    · intro p there
      by_cases silent : frame.result.isNone = true ∧ frame.error.isNone = true
      · rw [Message.payload?, if_pos silent] at there
        cases there
        have said : frame.result = none ∧ frame.error = none :=
          ⟨Option.isNone_iff_eq_none.mp silent.1, Option.isNone_iff_eq_none.mp silent.2⟩
        exact ⟨by decide, .empty .object [] blanks_nil, Or.inr ⟨rfl, rfl, frame, parsed, said⟩⟩
      · rw [Message.payload?, if_neg silent] at there
        exact placed _ p (result p there)
    · intro v there
      obtain ⟨e, failed, held⟩ := Option.mem_bind_iff.mp there
      exact data_stands ms f stand e v (Option.mem_def.mp failed ▸ made.error) held
  · exact stands_canonical f _ (Option.some_ne_none 0).symm trivial (fun p there => placed _ p (params p there))
      fun v there => absurd there (Option.not_mem_none v)

def Message.normalized? (f : Bytes) : Option Bytes := (decode f).toOption.map encode

-- An error that is a list, with data whose members stand twice and out of order.
theorem decode_canonical_list :
    let f := Utf8.encode
      " \x7b\"error\":[-1,\"m\",\x7b\"b\" : [0 ,-1],\"a\":\"\\u0041\",\"b\":null\x7d],\"result\":null,\"id\":7,\"x\":[1e999]\x7d"
    ∃ m, Message.decode f = .ok m ∧ m.Canonical f ∧ m.data?.map Json.render = some "\x7b\"a\":\"A\",\"b\":null\x7d" ∧
      Message.normalized? m.encode = some m.encode := by
  intro f
  have data : ((Message.decode f).toOption.bind Message.data?).map Json.render =
      some "\x7b\"a\":\"A\",\"b\":null\x7d" := by
    decide +kernel
  have fixed : (Message.normalized? f).bind Message.normalized? = Message.normalized? f := by decide +kernel
  cases decoded : Message.decode f with
  | error fault =>
      rw [decoded] at data
      cases data
  | ok m =>
      rw [decoded] at data
      have normal : Message.normalized? f = some m.encode := by rw [Message.normalized?, decoded]; rfl
      rw [normal] at fixed
      exact ⟨m, rfl, decode_canonical f m decoded, data, fixed⟩

-- Data is `null` by an embedding of that text, or looks like an embedding once its members are in order. An integer that
-- does not fit comes back as another one.
theorem embedding_not_canonical :
    let named := "\x7b\"$serde_json::private::RawValue\":\""
    let holds : String → Bytes := fun data =>
      Utf8.encode ("\x7b\"id\":1,\"error\":\x7b\"code\":1,\"message\":\"m\",\"data\":" ++ data ++ "\x7d\x7d")
    (Message.decode (holds (named ++ "null\"\x7d"))).toOption.bind Message.data? = some .null ∧
      ∀ data ∈ [named ++ "null\"\x7d", "\x7b\"a\":1,\"$serde_json::private::RawValue\":2\x7d", "147573952589676412928"],
        (Message.normalized? (holds data)).isSome = true ∧
          (Message.normalized? (holds data)).bind Message.normalized? ≠ Message.normalized? (holds data) := by
  intro named holds
  constructor
  · generalize read : (Message.decode (holds (named ++ "null\"\x7d"))).toOption.bind Message.data? = data
    have there : data.isSome = true ∧ (data.bind Json.said).isNone = true := by
      subst read
      decide +kernel
    cases data with
    | none => cases there.1
    | some v =>
        cases v with
        | null => rfl
        | _ => cases there.2
  · decide +kernel

end DevTools
