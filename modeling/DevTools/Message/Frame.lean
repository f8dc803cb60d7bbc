import DevTools.Message.Format
/- A frame is told apart by its id and method alone: with an id other than zero it is a request or, without a method,
   a response; else it is an event. -/

set_option autoImplicit false

namespace DevTools

open Json

structure Frame where
  id : Option UInt64
  method : Option String
  params : Option Payload
  result : Option Payload
  error : Option ErrorPayload
  session : Option SessionId
deriving Repr

inductive FrameFault where
  | json (fault : Json.Error)
  | ambiguousResponse (id : UInt64)
  | unclassifiable
deriving DecidableEq, Repr

def FrameFault.message : FrameFault → String
  | json fault => "invalid JSON frame: " ++ fault.message
  | ambiguousResponse id => s!"response {id.toNat} carries both a result and an error"
  | unclassifiable => "frame has neither a correlation id nor a method"

namespace Frame

def record : Record Frame where
  name := "RawFrame"
  blank := ⟨none, none, none, none, none, none⟩
  fields := [
    .of "id" false (readOptional readId) fun f id => { f with id },
    .of "method" false (readOptional readText) fun f method => { f with method },
    .of "params" false (readOptional readOpaque) fun f params => { f with params },
    .of "result" false (readOptional readOpaque) fun f result => { f with result },
    .of "error" false (readOptional ErrorPayload.record.read) fun f error => { f with error },
    .of "sessionId" false (readOptional readSessionId) fun f session => { f with session }]

-- A response needs one of result and error; with neither its result is empty.
def response (f : Frame) (id : UInt64) : Except FrameFault Response :=
  match f.result, f.error with
  | some _, some _ => .error (.ambiguousResponse id)
  | none, none => .ok ⟨id, some .emptyObject, none, f.session⟩
  | result, error => .ok ⟨id, result, error, f.session⟩

def classify (f : Frame) : Except FrameFault Message :=
  match f.id.filter (· ≠ 0), f.method with
  | some id, some method => .ok (.request ⟨id, method, f.params, f.session⟩)
  | some id, none => (f.response id).map .response
  | none, some method => .ok (.event ⟨method, f.params, f.session⟩)
  | none, none => .error .unclassifiable

end Frame

namespace Message

def decode (bytes : Bytes) : Except FrameFault Message :=
  match Frame.record.parse bytes with
  | .ok frame => frame.classify
  | .error fault => .error (.json fault)

def encode (m : Message) : Bytes :=
  Utf8.encode m.render

end Message

def Payload.ofParams? (text : String) : Option Payload :=
  if text = "null" then none else some ⟨text⟩

end DevTools
