import DevTools.Number.Double

set_option autoImplicit false

namespace DevTools

structure Digits where
  digits : List Char
  exponent : Int
deriving DecidableEq, Repr

-- How a number is laid out: which exponents of the leading digit are written with a point alone.
structure Layout where
  leastPositional : Int
  greatestPositional : Int

def signed (e : Int) : String :=
  if e < 0 then toString e else "+" ++ toString e

def Digits.render (layout : Layout) (d : Digits) : String :=
  let text := String.ofList
  if layout.leastPositional ≤ d.exponent ∧ d.exponent ≤ layout.greatestPositional then
    if d.exponent < 0 then
      "0." ++ text (List.replicate ((-d.exponent).toNat - 1) '0' ++ d.digits)
    else
      let whole := d.exponent.toNat + 1
      let padded := d.digits ++ List.replicate (whole - d.digits.length) '0'
      let fraction := padded.drop whole
      text (padded.take whole) ++ "." ++ (if fraction.isEmpty then "0" else text fraction)
  else
    match d.digits with
    | [] => "0"
    | first :: [] => first.toString ++ "e" ++ signed d.exponent
    | first :: more => first.toString ++ "." ++ text more ++ "e" ++ signed d.exponent

namespace Double

structure Interval where
  low : Nat
  value : Nat
  high : Nat
  den : Nat
  closed : Bool

-- Below a power of two the doubles lie twice as close.
def interval (x : Double) : Interval :=
  let below := if x.mantissa = mantissaLimit / 2 ∧ leastExponent < x.exponent then 1 else 2
  let (unit, den) := if 2 ≤ x.exponent then (Nat.pow 2 (x.exponent - 2).toNat, 1)
    else (1, Nat.pow 2 (2 - x.exponent).toNat)
  ⟨(4 * x.mantissa - below) * unit, 4 * x.mantissa * unit, (4 * x.mantissa + 2) * unit, den,
    x.mantissa % 2 = 0⟩

def leadingZeros (fuel num den : Nat) : Nat :=
  match fuel with
  | 0 => 0
  | fuel + 1 => if den ≤ num then 0 else leadingZeros fuel (num * 10) den + 1

-- The exponent of the power of ten at or below `num / den`.
def decimalExponent (num den : Nat) : Int :=
  if den ≤ num then ((Nat.toDigits 10 (num / den)).length : Int) - 1
  else -(leadingZeros 400 num den : Int)

def onGrid? (i : Interval) (e : Int) : Option Nat :=
  let (step, den) := if 0 ≤ e then (i.den * Nat.pow 10 e.toNat, 1) else (i.den, Nat.pow 10 (-e).toNat)
  let below := i.value * den / step
  let within (n : Nat) : Bool :=
    if i.closed then i.low * den ≤ n * step && n * step ≤ i.high * den
    else i.low * den < n * step && n * step < i.high * den
  let rest := i.value * den - below * step
  let nearer := if 2 * rest < step then below else if step < 2 * rest then below + 1 else below + below % 2
  let other := if nearer = below then below + 1 else below
  if within nearer then some nearer else if within other then some other else none

def trimZeros (digits : List Char) : List Char :=
  (digits.reverse.dropWhile (· == '0')).reverse

def search (i : Interval) (top : Int) (count : Nat) : (fuel : Nat) → Digits
  | 0 => ⟨['0'], 0⟩
  | fuel + 1 =>
    match onGrid? i (top - count) with
    | some n =>
      let digits := Nat.toDigits 10 n
      ⟨trimZeros digits, top - count + digits.length - 1⟩
    | none => search i top (count + 1) fuel

-- Seventeen digits tell every double from its neighbours.
def shortest (x : Double) : Digits :=
  let i := x.interval
  search i (decimalExponent i.value i.den) 0 18

def render (layout : Layout) (x : Double) : String :=
  (if x.negative then "-" else "") ++ (if x.isZero then "0.0" else x.shortest.render layout)

end Double

end DevTools
