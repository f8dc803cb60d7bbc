import DevTools.Message.Frame
import DevTools.Number.Decimal

set_option autoImplicit false

namespace DevTools

open Json

structure Numbered where
  members : List (Int × Json)
deriving Repr

namespace Numbered

def insert (n : Int) (value : Json) : List (Int × Json) → List (Int × Json)
  | [] => [(n, value)]
  | (other, kept) :: rest =>
    if n < other then (n, value) :: (other, kept) :: rest
    else if n = other then (n, value) :: rest
    else (other, kept) :: insert n value rest

-- The members of an object, taken in their order. A name that writes no integer of 64 bits is left
-- out; several names can write one integer.
def ofMembers (members : List (String × Json)) : Numbered :=
  ⟨members.foldl (fun numbered (name, value) =>
    match Natural.integerOfText? name.toList with
    | some n =>
      if Json.signed.least ≤ n ∧ n ≤ Json.signed.greatest then insert n value numbered else numbered
    | none => numbered) []⟩

def render (n : Numbered) : String :=
  renderObject (n.members.map fun (name, value) => (toString name, value.render))

end Numbered

inductive Params where
  | nothing
  | empty
  | value (value : Json)
  | payload (payload : Payload)
  | float (value : Extended)
  | numbered (members : Numbered)
  | byList (members : List (List Json × Json))
deriving Repr

namespace Params

-- Names of members are text; an integer is written in digits, a list has no such form. What is not
-- finite is written as `null`.
def render : Params → Except Json.Error String
  | nothing => .ok "null"
  | empty => .ok (renderObject [])
  | value v => .ok v.render
  | payload p => .ok p.text
  | float (.finite x) => .ok (x.render layout)
  | float _ => .ok "null"
  | numbered members => .ok members.render
  | byList members => if members.isEmpty then .ok (renderObject []) else .error .nameNotString

def payload? (p : Params) : Except FrameFault (Option Payload) :=
  match p.render with
  | .ok text => .ok (Payload.ofParams? text)
  | .error fault => .error (.json fault)

end Params

end DevTools
