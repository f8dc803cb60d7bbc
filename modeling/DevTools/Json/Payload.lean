import DevTools.Json.Scanner
/- JSON texts kept as written. Only their grammar is checked, to any depth. -/

set_option autoImplicit false

namespace DevTools

structure Payload where
  text : String
deriving DecidableEq, Repr

def Payload.emptyObject : Payload := ⟨"\x7b\x7d"⟩

namespace Json

open Ascii

inductive Bracket where
  | list
  | object
deriving DecidableEq, Repr

def Bracket.cutOff : Bracket → Error
  | .list => .endInList
  | .object => .endInObject

def Bracket.expectedEnd : Bracket → Error
  | .list => .expectedListEnd
  | .object => .expectedObjectEnd

def Bracket.closing : Bracket → UInt8
  | .list => closeBracket
  | .object => closeBrace

-- What comes next: a value, the inside of a bracket just opened, an item of the innermost bracket
-- after a comma, or whatever may follow a value.
inductive Due where
  | value
  | inside
  | item
  | afterValue
deriving DecidableEq, Repr

structure Walk where
  opened : List Bracket
  due : Due
  rest : Bytes
deriving DecidableEq, Repr

def Walk.value (opened : List Bracket) (s : Bytes) : Except Error Walk :=
  let done (rest : Bytes) : Walk := ⟨opened, .afterValue, rest⟩
  match skipBlanks s with
  | [] => .error .endInValue
  | b :: s =>
    if b = letterN then (word restOfNull s).map done
    else if b = letterT then (word restOfTrue s).map done
    else if b = letterF then (word restOfFalse s).map done
    else if b = minus then (Numeral.scan .invalidNumber s).map fun (_, rest) => done rest
    else if isDigit b then (Numeral.scan .invalidNumber (b :: s)).map fun (_, rest) => done rest
    else if b = quote then (skipString s).map done
    else if b = openBracket then .ok ⟨.list :: opened, .inside, s⟩
    else if b = openBrace then .ok ⟨.object :: opened, .inside, s⟩
    else .error .expectedValue

def Walk.item (opened : List Bracket) (s : Bytes) : Except Error Walk :=
  match opened with
  | .object :: _ =>
    match skipBlanks s with
    | [] => .error .endInObject
    | b :: s =>
      if b = quote then do
        let s ← skipString s
        let s ← colonMark s
        return ⟨opened, .value, s⟩
      else .error .nameNotString
  | _ => .ok ⟨opened, .value, s⟩

def Walk.step (w : Walk) : Except Error (Option Walk) :=
  match w.due with
  | .value => (value w.opened w.rest).map some
  | .item => (item w.opened w.rest).map some
  | .inside =>
    match w.opened with
    | [] => .ok none
    | bracket :: outer =>
      match skipBlanks w.rest with
      | [] => .error bracket.cutOff
      | b :: s =>
        if b = bracket.closing then .ok (some ⟨outer, .afterValue, s⟩)
        else .ok (some ⟨w.opened, .item, b :: s⟩)
  | .afterValue =>
    match w.opened with
    | [] => .ok none
    | bracket :: outer =>
      match skipBlanks w.rest with
      | [] => .error bracket.cutOff
      | b :: s =>
        if b = comma then .ok (some ⟨w.opened, .item, s⟩)
        else if b = bracket.closing then .ok (some ⟨outer, .afterValue, s⟩)
        else .error bracket.expectedEnd

def Walk.run : (fuel : Nat) → Walk → Except Error Bytes
  | 0, w => .ok w.rest
  | fuel + 1, w => do
    match ← w.step with
    | none => return w.rest
    | some w => run fuel w

-- Passes over one value. At most three steps go by between two that take a byte.
def skipValue (s : Bytes) : Except Error Bytes :=
  Walk.run (4 * s.length + 4) ⟨[], .value, s⟩

def readPayload (s : Bytes) : Except Error (Payload × Bytes) := do
  let s := skipBlanks s
  let rest ← skipValue s
  match Utf8.decode? (s.take (s.length - rest.length)) with
  | some content => return (⟨content⟩, rest)
  | none => .error .invalidCodePoint

end Json

def Payload.parse (s : Bytes) : Except Json.Error Payload := do
  let (payload, rest) ← Json.readPayload s
  Json.finish rest
  return payload

end DevTools
