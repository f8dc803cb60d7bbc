import DevTools.Number.Shortest

set_option autoImplicit false

namespace DevTools

inductive Number where
  | integer (value : Int)
  | double (value : Double)
deriving DecidableEq, Repr

inductive Json where
  | null
  | boolean (value : Bool)
  | number (value : Number)
  | string (value : String)
  | array (items : List Json)
  | object (members : List (String × Json))
deriving Repr

namespace Json

-- Integers outside of these bounds are kept as doubles.
def leastInteger : Int := -Int.pow 2 63
def greatestInteger : Nat := Nat.pow 2 64 - 1

def insert {α : Type} (name : String) (value : α) : List (String × α) → List (String × α)
  | [] => [(name, value)]
  | (other, kept) :: rest =>
    if name < other then (name, value) :: (other, kept) :: rest
    else if name = other then (name, value) :: rest
    else (other, kept) :: insert name value rest

-- Doubles are written with a point alone from a hundred thousandth up to, but without, 10 ^ 16.
def layout : Layout := ⟨-5, 15⟩

end Json

end DevTools
