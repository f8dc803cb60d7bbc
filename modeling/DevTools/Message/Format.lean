import DevTools.Message
import DevTools.Json.Printer
import DevTools.Json.Record

set_option autoImplicit false

namespace DevTools

open Json

def readSessionId (depth : Nat) (s : Bytes) : Except Json.Error (SessionId × Bytes) :=
  (readText depth s).map fun (content, rest) => (⟨content⟩, rest)

def readTargetId (depth : Nat) (s : Bytes) : Except Json.Error (TargetId × Bytes) :=
  (readText depth s).map fun (content, rest) => (⟨content⟩, rest)

-- A payload may be nested as deep as it likes.
def readOpaque (_ : Nat) (s : Bytes) : Except Json.Error (Payload × Bytes) :=
  readPayload s

def readId (depth : Nat) (s : Bytes) : Except Json.Error (UInt64 × Bytes) :=
  (readNatural unsigned depth s).map fun (n, rest) => (UInt64.ofNat n, rest)

def readCode (depth : Nat) (s : Bytes) : Except Json.Error (Int64 × Bytes) :=
  (readInteger Json.signed depth s).map fun (n, rest) => (Int64.ofInt n, rest)

def optionalMember {α : Type} (name : String) (render : α → String) : Option α → List (String × String)
  | none => []
  | some value => [(name, render value)]

def renderSession (session : Option SessionId) : List (String × String) :=
  optionalMember "sessionId" (fun id => quoted id.text) session

def renderId (id : UInt64) : String := toString id.toNat

namespace ErrorPayload

def record : Record ErrorPayload where
  name := "ErrorPayload"
  blank := ⟨0, "", none⟩
  fields := [
    .of "code" true readCode fun p code => { p with code },
    .of "message" true readText fun p message => { p with message },
    .of "data" false (readOptional readValue) fun p data => { p with data }]

def render (p : ErrorPayload) : String :=
  renderObject ([("code", toString p.code.toInt), ("message", quoted p.message)] ++
    optionalMember "data" Json.render p.data)

def describe (p : ErrorPayload) : String :=
  p.message ++ " (code " ++ toString p.code.toInt ++ ")" ++
    (match p.data with
    | none => ""
    | some data => ": " ++ data.render)

end ErrorPayload

namespace Request

def record : Record Request where
  name := "Request"
  blank := ⟨0, "", none, none⟩
  fields := [
    .of "id" true readId fun r id => { r with id },
    .of "method" true readText fun r method => { r with method },
    .of "params" false (readOptional readOpaque) fun r params => { r with params },
    .of "sessionId" false (readOptional readSessionId) fun r session => { r with session }]

def render (r : Request) : String :=
  renderObject ([("id", renderId r.id), ("method", quoted r.method)] ++
    optionalMember "params" Payload.text r.params ++ renderSession r.session)

end Request

namespace Response

def record : Record Response where
  name := "Response"
  blank := ⟨0, none, none, none⟩
  fields := [
    .of "id" true readId fun r id => { r with id },
    .of "result" false (readOptional readOpaque) fun r result => { r with result },
    .of "error" false (readOptional ErrorPayload.record.read) fun r error => { r with error },
    .of "sessionId" false (readOptional readSessionId) fun r session => { r with session }]

def render (r : Response) : String :=
  renderObject ([("id", renderId r.id)] ++ optionalMember "result" Payload.text r.result ++
    optionalMember "error" ErrorPayload.render r.error ++ renderSession r.session)

end Response

namespace Event

def record : Record Event where
  name := "Event"
  blank := ⟨"", none, none⟩
  fields := [
    .of "method" true readText fun e method => { e with method },
    .of "params" false (readOptional readOpaque) fun e params => { e with params },
    .of "sessionId" false (readOptional readSessionId) fun e session => { e with session }]

def render (e : Event) : String :=
  renderObject ([("method", quoted e.method)] ++ optionalMember "params" Payload.text e.params ++
    renderSession e.session)

def paramsAs {α : Type} (e : Event) (read : Nat → Bytes → Except Json.Error (α × Bytes)) :
    Except Json.Error α :=
  parseWith read (Utf8.encode (e.params.getD .emptyObject).text)

end Event

def Message.render : Message → String
  | request r => r.render
  | response r => r.render
  | event e => e.render

end DevTools
