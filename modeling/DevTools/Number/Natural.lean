set_option autoImplicit false

namespace DevTools.Natural

def isDigit (c : Char) : Bool := '0' ≤ c && c ≤ '9'

def ofDigits (digits : List Char) : Nat :=
  digits.foldl (fun n c => n * 10 + (c.toNat - '0'.toNat)) 0

def ofText? (cs : List Char) : Option Nat :=
  let digits := match cs with
    | '+' :: digits => digits
    | digits => digits
  if digits.isEmpty || !digits.all isDigit then none else some (ofDigits digits)

def integerOfText? (cs : List Char) : Option Int :=
  match cs with
  | '-' :: digits =>
    if digits.isEmpty || !digits.all isDigit then none else some (-(ofDigits digits : Int))
  | cs => (ofText? cs).map Int.ofNat

end DevTools.Natural
