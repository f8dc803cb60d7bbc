import DevTools.Json.Scanner

set_option autoImplicit false

namespace DevTools.Json

open Ascii

def mismatch (expected : String) (s : Bytes) : Error :=
  let found (what : Except Error Found) : Error :=
    match what with
    | .ok what => .invalidType what expected
    | .error fault => fault
  match s with
  | [] => .expectedValue
  | b :: rest =>
    if b = letterN then found ((word restOfNull rest).map fun _ => .null)
    else if b = letterT then found ((word restOfTrue rest).map fun _ => .boolean true)
    else if b = letterF then found ((word restOfFalse rest).map fun _ => .boolean false)
    else if b = minus ∨ isDigit b then
      found ((readNumber s).map fun (n, _) => match n with
        | .integer value => .integer value
        | .double value => .double value)
    else if b = quote then found ((readString rest).map fun (content, _) => .text content)
    else if b = openBracket then found (.ok .sequence)
    else if b = openBrace then found (.ok .map)
    else .expectedValue

def expecting {α : Type} (expected : String) (s : Bytes) (read : UInt8 → Bytes → Option (Except Error α)) :
    Except Error α :=
  match skipBlanks s with
  | [] => .error .endInValue
  | b :: rest => (read b rest).getD (.error (mismatch expected (b :: rest)))

def readStringAs (expected : String) (s : Bytes) : Except Error (String × Bytes) :=
  expecting expected s fun b rest => if b = quote then some (readString rest) else none

def readText (_ : Nat) (s : Bytes) : Except Error (String × Bytes) :=
  readStringAs "a string" s

end DevTools.Json
