import DevTools.Proofs.Json.Record
import DevTools.Message.Frame

set_option autoImplicit false

namespace DevTools

open Json Ascii

def Payload.said (p : Payload) : Option Payload := if p.text = "null" then none else some p

def Json.said : Json → Option Json
  | .null => none
  | v => some v

def ErrorPayload.said (e : ErrorPayload) : ErrorPayload := { e with data := e.data.bind Json.said }

def Response.said (r : Response) : Response :=
  let result := r.result.bind Payload.said
  { r with
    result := if result.isNone ∧ r.error.isNone then some .emptyObject else result
    error := r.error.map ErrorPayload.said }

namespace Message

def said : Message → Message
  | request r => request { r with params := r.params.bind Payload.said }
  | response r => response r.said
  | event e => event { e with params := e.params.bind Payload.said }

-- A response that says both a result and an error.
def Ambiguous (id : UInt64) : Message → Prop
  | response r => r.id = id ∧ (r.result.bind Payload.said).isSome = true ∧ r.error.isSome = true
  | _ => False

-- Of the brackets a text may open, two are the frame's and the error's own.
def Framed : Message → Prop
  | request r => r.id ≠ 0 ∧ ∀ p ∈ r.params, p.Valid
  | response r =>
      r.id ≠ 0 ∧ (∀ p ∈ r.result, p.Valid) ∧ ∀ e ∈ r.error, ∀ data ∈ e.data, Plain 125 data
  | event e => ∀ p ∈ e.params, p.Valid

end Message

section
variable (depth : Nat) (rest : Bytes) (stops : Stops rest)
include stops

theorem read_id (id : UInt64) :
    readId depth (Utf8.encode (renderId id) ++ rest) = .ok (id, rest) := by
  have below : id.toNat < 18446744073709551616 := id.toNat_lt
  have fits : FitsInteger id.toNat := by
    have lowest : leastInteger = -9223372036854775808 := rfl
    have highest : greatestInteger = 18446744073709551615 := rfl
    constructor <;> omega
  have within : unsigned.least ≤ id.toNat ∧ id.toNat ≤ unsigned.greatest := by
    have lowest : unsigned.least = 0 := rfl
    have highest : unsigned.greatest = 18446744073709551615 := rfl
    constructor <;> omega
  have read : readInteger unsigned depth (Utf8.encode (renderId id) ++ rest) =
      .ok ((id.toNat : Int), rest) :=
    read_kind unsigned depth id.toNat rest fits within stops
  simp only [readId, readNatural, read, Except.map, Int.toNat_natCast, UInt64.ofNat_toNat]

theorem read_said_id (id : UInt64) :
    readOptional readId depth (Utf8.encode (renderId id) ++ rest) = .ok (some id, rest) := by
  obtain ⟨b, others, written, first, solid⟩ := integer_head id.toNat
  exact read_some readId depth _ rest id b others written solid
    (head_other b letterN first (by decide)) (read_id depth rest stops id)

theorem read_code (code : Int64) :
    readCode depth (Utf8.encode (toString code.toInt) ++ rest) = .ok (code, rest) := by
  have least := code.le_toInt
  have most := code.toInt_lt
  have fits : FitsInteger code.toInt := by
    have lowest : leastInteger = -9223372036854775808 := rfl
    have highest : greatestInteger = 18446744073709551615 := rfl
    constructor <;> omega
  have within : Json.signed.least ≤ code.toInt ∧ code.toInt ≤ Json.signed.greatest := by
    have lowest : Json.signed.least = -9223372036854775808 := rfl
    have highest : Json.signed.greatest = 9223372036854775807 := rfl
    constructor <;> omega
  simp only [readCode, read_kind Json.signed depth code.toInt rest fits within stops, Except.map,
    Int64.ofInt_toInt]

theorem read_said_payload (p : Payload) (valid : p.Valid) :
    readOptional readOpaque depth (Utf8.encode p.text ++ rest) = .ok (p.said, rest) := by
  by_cases nothing : p.text = "null"
  · rw [nothing, Payload.said, if_pos nothing]
    rfl
  · obtain ⟨b, others, written, solid, _⟩ := spelled_opens .value _ valid
    have present : b ≠ letterN := by
      rintro rfl
      rw [Payload.Valid, written] at valid
      rw [spelled_null others valid] at written
      exact nothing (Utf8.encode_injective p.text "null" written)
    rw [Payload.said, if_neg nothing]
    exact read_some readOpaque depth _ rest p b others written solid present
      (read_payload p rest valid stops)

theorem read_said_data (data : Json) (plain : Plain depth data) :
    readOptional readValue depth (Utf8.encode data.render ++ rest) = .ok (data.said, rest) := by
  obtain ⟨b, others, written, solid, _, _, null⟩ := render_head depth data plain
  by_cases nothing : data = .null
  · subst nothing
    rfl
  · have read : readValue depth (Utf8.encode data.render ++ rest) = .ok (data, rest) :=
      read_plain (parseLayers (Utf8.encode data.render ++ rest).length) depth data rest plain stops
    have said : data.said = some data := by
      cases data with
      | null => exact absurd rfl nothing
      | _ => rfl
    rw [said]
    exact read_some readValue depth _ rest data b others written solid (fun same =>
      nothing (null same)) read

omit stops in
theorem read_said_text (content : String) :
    readOptional readText depth (Utf8.encode (quoted content) ++ rest) =
      .ok (some content, rest) := by
  obtain ⟨inside, written, _⟩ := encode_quoted content
  exact read_some readText depth _ rest content quote (inside ++ [quote]) written rfl (by decide)
    (read_text content depth rest)

omit stops in
theorem read_said_session (session : SessionId) :
    readOptional readSessionId depth (Utf8.encode (quoted session.text) ++ rest) =
      .ok (some session, rest) := by
  obtain ⟨inside, written, _⟩ := encode_quoted session.text
  apply read_some readSessionId depth _ rest session quote
    (inside ++ [quote]) written rfl (by decide)
  simp only [readSessionId, read_text, Except.map]

end

section
variable {α : Type} (r : Record α) (depth : Nat)

theorem fills_optional {β : Type} (name : String)
    (read : Nat → Bytes → Except Json.Error (Option β × Bytes)) (render : β → String)
    (put : α → Option β → α) (keep : β → Option β) (value : Option β) (record : α)
    (known : r.field? name = some (.of name false read put))
    (blank : put record none = record)
    (reads : ∀ v ∈ value, ∀ rest, Stops rest → read depth (Utf8.encode (render v) ++ rest) =
      .ok (keep v, rest)) :
    r.Fills depth record (optionalMember name render value) (put record (value.bind keep)) := by
  cases value with
  | none =>
      rw [Option.bind_none, blank]
      exact .done record
  | some v =>
      apply Record.fills_one r depth (.of name false read put) name (render v) record _ known
      intro rest stops
      simp only [Field.of, reads v rfl rest stops, Except.map, Option.bind_some]

theorem fills_field {β : Type} (name text : String) (required : Bool)
    (read : Nat → Bytes → Except Json.Error (β × Bytes)) (put : α → β → α)
    (value : β) (record : α) (known : r.field? name = some (.of name required read put))
    (reads : ∀ rest, Stops rest → read depth (Utf8.encode text ++ rest) = .ok (value, rest)) :
    r.Fills depth record [(name, text)] (put record value) := by
  apply Record.fills_one r depth (.of name required read put) name text record _ known
  intro rest stops
  simp only [Field.of, reads rest stops, Except.map]

end

theorem error_fills (depth : Nat) (e : ErrorPayload) (plain : ∀ data ∈ e.data, Plain depth data) :
    ErrorPayload.record.Fills depth ErrorPayload.record.blank ([("code", toString e.code.toInt),
      ("message", quoted e.message)] ++
      optionalMember "data" Json.render e.data) e.said := by
  have code := fills_field ErrorPayload.record depth "code" (toString e.code.toInt) true readCode
    (fun p code => { p with code }) e.code
    ErrorPayload.record.blank rfl fun rest stops => read_code depth rest stops e.code
  have message := fills_field ErrorPayload.record depth "message" (quoted e.message) true readText
    (fun p message => { p with message })
    e.message ⟨e.code, "", none⟩ rfl fun rest _ => read_text e.message depth rest
  have data := fills_optional ErrorPayload.record depth "data" (readOptional readValue) Json.render
    (fun p data => { p with data })
    Json.said e.data ⟨e.code, e.message, none⟩ rfl rfl fun data present rest stops =>
      read_said_data depth rest stops data (plain data present)
  exact Record.fills_append _ _ _ _ _ _ _ (Record.fills_append _ _ _ _ _ _ _ code message) data

theorem read_said_error (depth : Nat) (rest : Bytes) (e : ErrorPayload)
    (plain : ∀ data ∈ e.data, Plain depth data) :
    readOptional ErrorPayload.record.read (depth + 1) (Utf8.encode e.render ++ rest) =
      .ok (some e.said, rest) := by
  have fills := error_fills depth e plain
  have read := Record.read_filled ErrorPayload.record depth e.said _ rest fills
    (by cases e.data <;> simp [optionalMember])
    (by cases e.data <;> rfl)
  exact read_some ErrorPayload.record.read (depth + 1) _ rest e.said openBrace _
    (encode_members _) rfl (by decide) read

theorem parse_frame (members : List (String × String)) (session : Option SessionId) (middle : Frame)
    (fills : Frame.record.Fills 126 Frame.record.blank members middle)
    (once : (members.map Prod.fst ++ ["sessionId"]).Nodup)
    (blank : middle.session = none) :
    Frame.record.parse (Utf8.encode (renderObject (members ++ renderSession session))) =
      .ok { middle with session } := by
  have last := fills_optional Frame.record 126 "sessionId" (readOptional readSessionId) (fun id =>
    quoted id.text)
    (fun f session => { f with session }) some session middle rfl (by rw [← blank])
      fun session _ rest _ => read_said_session 126 rest session
  rw [Option.bind_fun_some] at last
  have all := Record.fills_append _ _ _ _ _ _ _ fills last
  have distinct : ((members ++ renderSession session).map Prod.fst).Nodup := by
    cases session with
    | none =>
        rw [renderSession, optionalMember, List.append_nil]
        exact once.sublist (List.sublist_append_left _ _)
    | some session =>
        rw [List.map_append]
        exact once
  have read := Record.read_filled Frame.record 126 _ _ [] all distinct rfl
  rw [List.append_nil] at read
  change Except.bind (Frame.record.read 127 _) _ = _
  rw [renderSession, read]
  rfl

theorem decode_request (r : Request) (nonzero : r.id ≠ 0) (valid : ∀ p ∈ r.params, p.Valid) :
    Message.decode (Message.request r).encode = .ok (Message.request r).said := by
  have id := fills_field Frame.record 126 "id" (renderId r.id) false (readOptional readId)
    (fun f id => { f with id }) (some r.id)
    Frame.record.blank rfl fun rest stops => read_said_id 126 rest stops r.id
  have method := fills_field Frame.record 126 "method" (quoted r.method) false
    (readOptional readText) (fun f method => { f with method })
    (some r.method) ⟨some r.id, none, none, none, none, none⟩ rfl fun rest _ =>
      read_said_text 126 rest r.method
  have params := fills_optional Frame.record 126 "params" (readOptional readOpaque) Payload.text
    (fun f params => { f with params })
    Payload.said r.params ⟨some r.id, some r.method, none, none, none, none⟩ rfl rfl
      fun p present rest stops =>
      read_said_payload 126 rest stops p (valid p present)
  have parsed :=
    parse_frame _ r.session _
    (Record.fills_append _ _ _ _ _ _ _ (Record.fills_append _ _ _ _ _ _ _ id method) params)
    (by cases r.params <;> simp [optionalMember]) rfl
  have written : (Message.request r).encode =
      Utf8.encode (renderObject ([("id", renderId r.id)] ++ [("method", quoted r.method)] ++
      optionalMember "params" Payload.text r.params ++ renderSession r.session)) := rfl
  have ours : Option.filter (fun id => decide (id ≠ 0)) (some r.id) = some r.id := by
    simp [Option.filter, nonzero]
  rw [Message.decode, written, parsed]
  simp only [Frame.classify, ours]
  rfl

theorem decode_event (e : Event) (valid : ∀ p ∈ e.params, p.Valid) :
    Message.decode (Message.event e).encode = .ok (Message.event e).said := by
  have method := fills_field Frame.record 126 "method" (quoted e.method) false
    (readOptional readText) (fun f method => { f with method })
    (some e.method) Frame.record.blank rfl fun rest _ => read_said_text 126 rest e.method
  have params := fills_optional Frame.record 126 "params" (readOptional readOpaque) Payload.text
    (fun f params => { f with params })
    Payload.said e.params ⟨none, some e.method, none, none, none, none⟩ rfl rfl
      fun p present rest stops =>
      read_said_payload 126 rest stops p (valid p present)
  have parsed := parse_frame _ e.session _ (Record.fills_append _ _ _ _ _ _ _ method params)
    (by cases e.params <;> simp [optionalMember]) rfl
  have written :
      (Message.event e).encode = Utf8.encode (renderObject ([("method", quoted e.method)] ++
      optionalMember "params" Payload.text e.params ++ renderSession e.session)) := rfl
  rw [Message.decode, written, parsed]
  rfl

theorem response_frame (r : Response) (valid : ∀ p ∈ r.result, p.Valid)
    (plain : ∀ e ∈ r.error, ∀ data ∈ e.data, Plain 125 data) :
    Frame.record.parse (Message.response r).encode =
      .ok ⟨some r.id, none, none, r.result.bind Payload.said, r.error.map ErrorPayload.said,
        r.session⟩ := by
  have id := fills_field Frame.record 126 "id" (renderId r.id) false (readOptional readId)
    (fun f id => { f with id }) (some r.id)
    Frame.record.blank rfl fun rest stops => read_said_id 126 rest stops r.id
  have result := fills_optional Frame.record 126 "result" (readOptional readOpaque) Payload.text
    (fun f result => { f with result })
    Payload.said r.result ⟨some r.id, none, none, none, none, none⟩ rfl rfl
      fun p present rest stops =>
      read_said_payload 126 rest stops p (valid p present)
  have error :=
    fills_optional Frame.record 126 "error" (readOptional ErrorPayload.record.read) ErrorPayload.render
    (fun f error => { f with error }) (fun e => some e.said) r.error ⟨some r.id, none, none,
      r.result.bind Payload.said, none, none⟩ rfl rfl
    fun e present rest _ => read_said_error 125 rest e (plain e present)
  have kept : (r.error.bind fun e => some e.said) = r.error.map ErrorPayload.said := by
    cases r.error <;> rfl
  rw [kept] at error
  have parsed :=
    parse_frame _ r.session _
    (Record.fills_append _ _ _ _ _ _ _ (Record.fills_append _ _ _ _ _ _ _ id result) error)
    (by cases r.result <;> cases r.error <;> simp [optionalMember]) rfl
  exact parsed

theorem decode_response (r : Response) (nonzero : r.id ≠ 0) (valid : ∀ p ∈ r.result, p.Valid)
    (plain : ∀ e ∈ r.error, ∀ data ∈ e.data, Plain 125 data) :
    Message.decode (Message.response r).encode =
      if (r.result.bind Payload.said).isSome ∧ r.error.isSome then .error (.ambiguousResponse r.id)
        else .ok (Message.response r.said) := by
  have ours : Option.filter (fun id => decide (id ≠ 0)) (some r.id) = some r.id := by
    simp [Option.filter, nonzero]
  rw [Message.decode, response_frame r valid plain]
  simp only [Frame.classify, ours, Frame.response, Response.said]
  cases r.result.bind Payload.said <;> cases r.error <;> rfl

theorem encoded_decodes (m : Message) (framed : m.Framed) :
    (∀ id, m.Ambiguous id → Message.decode m.encode = .error (.ambiguousResponse id)) ∧
    ((∀ id, ¬ m.Ambiguous id) → Message.decode m.encode = .ok m.said) := by
  cases m with
  | request r =>
      exact ⟨fun _ ambiguous => ambiguous.elim, fun _ => decode_request r framed.1 framed.2⟩
  | event e => exact ⟨fun _ ambiguous => ambiguous.elim, fun _ => decode_event e framed⟩
  | response r =>
      have decoded := decode_response r framed.1 framed.2.1 framed.2.2
      constructor
      · rintro id ⟨rfl, both⟩
        rw [decoded, if_pos both]
      · intro plain
        rw [decoded, if_neg fun both => plain r.id ⟨rfl, both⟩]
        rfl

-- The numbers and escapes of a payload may stand for nothing; a result of `null` counts as left out.
theorem encoded_decodes_samples :
    Message.decode (Message.request ⟨18446744073709551615, "Page.\"x\"\n\\\x00",
      some ⟨"[-0,\"\\ud800\"]"⟩, some ⟨""⟩⟩).encode =
      .ok (.request ⟨18446744073709551615, "Page.\"x\"\n\\\x00",
        some ⟨"[-0,\"\\ud800\"]"⟩, some ⟨""⟩⟩) ∧
    Message.decode (Message.response ⟨1, some ⟨"null"⟩,
      some ⟨-32000, "m", some (.object [("", .null), ("a", .array [.string "b"])])⟩,
        none⟩).encode =
      .ok (.response ⟨1, none,
        some ⟨-32000, "m", some (.object [("", .null), ("a", .array [.string "b"])])⟩, none⟩) ∧
    Message.decode (Message.response ⟨1, some .emptyObject, some ⟨0, "", none⟩, none⟩).encode =
      .error (.ambiguousResponse 1) := by
  have unblank : Blanks [] := fun _ member => nomatch member
  have list : Payload.Valid ⟨"[-0,\"\\ud800\"]"⟩ := by
    have number : Spelled .value [minus, zero] :=
      .numeral _ (Or.inr ⟨[zero], ⟨[zero], [], [], .zero, .absent, .absent, rfl⟩, rfl⟩)
    have surrogate : Content [backslash, letterU, 0x64, 0x38, 0x30, 0x30] :=
      .numbered 0x64 0x38 0x30 0x30 [] (by decide +kernel) .nil
    exact .full .list [] _ unblank (.more .list _ [] _ (.element _ [] number unblank) unblank
      (.last .list _ (.element _ [] (.string _ surrogate) unblank)))
  have data : Plain 125 (.object [("", .null), ("a", .array [.string "b"])]) := by
    refine .object 124 _ (by unfold Ordered; decide +kernel)
      (by intro first member; cases member; decide) ?_
    intro member inside
    rcases List.mem_cons.mp inside with rfl | inside
    · exact .null 124
    · cases List.mem_singleton.mp inside
      refine .array 123 _ ?_
      intro item inside
      cases List.mem_singleton.mp inside
      exact .string 123 "b"
  have request :=
    encoded_decodes (.request ⟨18446744073709551615, "Page.\"x\"\n\\\x00",
      some ⟨"[-0,\"\\ud800\"]"⟩, some ⟨""⟩⟩)
    ⟨by decide, fun p present => Option.some.inj present ▸ list⟩
  have failure := encoded_decodes
    (.response ⟨1, some ⟨"null"⟩,
      some ⟨-32000, "m", some (.object [("", .null), ("a", .array [.string "b"])])⟩, none⟩)
    ⟨by decide, fun p present => Option.some.inj present ▸ .null,
      fun e present => Option.some.inj present ▸ fun _ there => Option.some.inj there ▸ data⟩
  have both := encoded_decodes (.response ⟨1, some .emptyObject, some ⟨0, "", none⟩, none⟩)
    ⟨by decide, fun p present => Option.some.inj present ▸ .empty .object [] unblank,
      fun e present => Option.some.inj present ▸ fun _ there => nomatch there⟩
  exact ⟨request.2 fun _ ambiguous => ambiguous,
    failure.2 (by rintro id ⟨_, result, _⟩; cases result), both.1 1 ⟨rfl, rfl, rfl⟩⟩

-- Data that begins with the name of an embedding is not read back, however plain it is otherwise.
theorem embedding_not_decoded :
    Ordered [("$serde_json::private::RawValue", .string "1"), ("a", .number (.integer 0))] ∧ ¬ ∃ m,
      Message.decode (Message.response ⟨1, none, some ⟨1, "m",
      some (.object [("$serde_json::private::RawValue", .string "1"),
        ("a", .number (.integer 0))])⟩, none⟩).encode = .ok m := by
  have refused : ((Message.decode (Message.response ⟨1, none, some ⟨1, "m",
      some (.object [("$serde_json::private::RawValue", .string "1"),
        ("a", .number (.integer 0))])⟩, none⟩).encode).toOption).isNone = true := by
    decide +kernel
  refine ⟨by unfold Ordered; decide +kernel, ?_⟩
  rintro ⟨m, decoded⟩
  rw [decoded] at refused
  cases refused

end DevTools
