import DevTools.Identifier
import DevTools.Json.Payload

set_option autoImplicit false

namespace DevTools

structure ErrorPayload where
  code : Int64
  message : String
  data : Option Json
deriving Repr

structure Request where
  id : UInt64
  method : String
  params : Option Payload
  session : Option SessionId
deriving DecidableEq, Repr

structure Response where
  id : UInt64
  result : Option Payload
  error : Option ErrorPayload
  session : Option SessionId
deriving Repr

structure Event where
  method : String
  params : Option Payload
  session : Option SessionId
deriving DecidableEq, Repr

inductive Message where
  | request (request : Request)
  | response (response : Response)
  | event (event : Event)
deriving Repr

namespace Response

def isError (r : Response) : Bool := r.error.isSome

-- The error if there is one, else the result; a response with neither has an empty result.
def outcome (r : Response) : Except ErrorPayload Payload :=
  match r.error with
  | some error => .error error
  | none => .ok (r.result.getD .emptyObject)

end Response

def Event.domain (e : Event) : String :=
  String.ofList (e.method.toList.takeWhile (· ≠ '.'))

namespace Message

def id? : Message → Option UInt64
  | request r => some r.id
  | response r => some r.id
  | event _ => none

def method? : Message → Option String
  | request r => some r.method
  | response _ => none
  | event e => some e.method

def session? : Message → Option SessionId
  | request r => r.session
  | response r => r.session
  | event e => e.session

end Message

end DevTools
