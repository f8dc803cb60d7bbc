set_option autoImplicit false

namespace DevTools

structure Double where
  negative : Bool
  mantissa : Nat
  exponent : Int
deriving DecidableEq, Repr

namespace Double

def leastExponent : Int := -1074
def greatestExponent : Int := 971
def mantissaLimit : Nat := Nat.pow 2 53

def zero (negative : Bool) : Double := ⟨negative, 0, leastExponent⟩

def isZero (x : Double) : Bool := x.mantissa == 0

def withSign (x : Double) (negative : Bool) : Double := { x with negative }

def roundQuotient (num den : Nat) : Nat :=
  let q := num / den
  let r := num % den
  if 2 * r < den then q else if den < 2 * r then q + 1 else q + q % 2

def scaled (num den : Nat) (e : Int) : Nat × Nat :=
  if 0 ≤ e then (num, den * Nat.pow 2 e.toNat) else (num * Nat.pow 2 (-e).toNat, den)

def ofRatio (num den : Nat) : Option Double :=
  if num = 0 then some (zero false)
  else
    let guess : Int := (num.log2 : Int) - den.log2 - 53
    let low := max guess leastExponent
    let (n, d) := scaled num den low
    let e := if n / d < mantissaLimit then low else low + 1
    let (n, d) := scaled num den e
    let m := roundQuotient n d
    let (m, e) := if m = mantissaLimit then (m / 2, e + 1) else (m, e)
    if greatestExponent < e then none else some ⟨false, m, e⟩

def ofScaledRatio (num den : Nat) (e : Int) : Option Double :=
  let (n, d) := scaled num den (-e)
  ofRatio n d

def ofNat (n : Nat) : Double := (ofRatio n 1).getD (zero false)

def mul (x y : Double) : Option Double :=
  (ofScaledRatio (x.mantissa * y.mantissa) 1 (x.exponent + y.exponent)).map
    (·.withSign (x.negative != y.negative))

def div (x y : Double) : Option Double :=
  (ofScaledRatio x.mantissa y.mantissa (x.exponent - y.exponent)).map
    (·.withSign (x.negative != y.negative))

def powerOfTen (k : Nat) : Double := ofNat (Nat.pow 10 k)

-- The largest power of ten that is a double has this exponent.
def greatestPower : Nat := 308

def shrink (x : Double) (k : Nat) : Double :=
  if greatestPower < k then
    if x.isZero then x
    else shrink ((x.div (powerOfTen greatestPower)).getD (zero false)) (k - greatestPower)
  else (x.div (powerOfTen k)).getD (zero false)
termination_by k
decreasing_by simp only [greatestPower] at *; omega

-- `significand · 10 ^ e` as the reader of JSON numbers forms it: the significand and the product
-- are rounded one after the other. None when it lies beyond the largest double.
def ofParts (significand : Nat) (e : Int) : Option Double :=
  let x := ofNat significand
  if 0 ≤ e then
    if e.toNat ≤ greatestPower then x.mul (powerOfTen e.toNat)
    else if x.isZero then some x else none
  else some (x.shrink (-e).toNat)

def ofDecimal (significand : Nat) (e : Int) : Option Double :=
  if significand = 0 then some (zero false)
  else if 400 < e then none
  else if e < -(400 + (significand.log2 : Int)) then some (zero false)
  else if 0 ≤ e then ofRatio (significand * Nat.pow 10 e.toNat) 1
  else ofRatio significand (Nat.pow 10 (-e).toNat)

end Double

end DevTools
