import DevTools.Number.Double
import DevTools.Number.Natural

set_option autoImplicit false

namespace DevTools

inductive Extended where
  | finite (value : Double)
  | infinite (negative : Bool)
  | nan
deriving DecidableEq, Repr

namespace Extended

def digits (cs : List Char) : List Char × List Char :=
  (cs.takeWhile Natural.isDigit, cs.dropWhile Natural.isDigit)

def exponent? (cs : List Char) : Option Int :=
  let (negative, cs) := match cs with
    | '-' :: cs => (true, cs)
    | '+' :: cs => (false, cs)
    | cs => (false, cs)
  match digits cs with
  | ([], _) => none
  | (ds, []) => some (if negative then -(Natural.ofDigits ds : Int) else Natural.ofDigits ds)
  | _ => none

def unsigned? (cs : List Char) : Option (Nat × Int) :=
  let (whole, cs) := digits cs
  let (fraction, cs) := match cs with
    | '.' :: cs => digits cs
    | cs => ([], cs)
  if whole.isEmpty && fraction.isEmpty then none
  else
    let exponent := match cs with
      | [] => some 0
      | c :: cs => if c = 'e' ∨ c = 'E' then exponent? cs else none
    exponent.map fun e => (Natural.ofDigits (whole ++ fraction), e - fraction.length)

def parse? (text : String) : Option Extended :=
  let (negative, cs) := match text.toList with
    | '-' :: cs => (true, cs)
    | '+' :: cs => (false, cs)
    | cs => (false, cs)
  let name := cs.map Char.toLower
  if name = "inf".toList ∨ name = "infinity".toList then some (.infinite negative)
  else if name = "nan".toList then some .nan
  else (unsigned? cs).map fun (n, e) =>
    match Double.ofDecimal n e with
    | some x => .finite (x.withSign negative)
    | none => .infinite negative

end Extended

end DevTools
