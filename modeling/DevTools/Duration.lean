set_option autoImplicit false

namespace DevTools

structure Duration where
  nanoseconds : Nat
deriving DecidableEq, Repr

namespace Duration

def ofMilliseconds (n : Nat) : Duration := ⟨n * 1000000⟩

def ofSeconds (seconds nanoseconds : Nat) : Duration := ⟨seconds * 1000000000 + nanoseconds⟩

def milliseconds (d : Duration) : Nat := d.nanoseconds / 1000000

def fraction (part places : Nat) : String :=
  let digits := Nat.toDigits 10 part
  let padded := List.replicate (places - digits.length) '0' ++ digits
  let kept := (padded.reverse.dropWhile (· == '0')).reverse
  if kept.isEmpty then "" else "." ++ String.ofList kept

def inUnit (d : Duration) (places : Nat) (unit : String) : String :=
  let one := Nat.pow 10 places
  toString (d.nanoseconds / one) ++ fraction (d.nanoseconds % one) places ++ unit

def describe (d : Duration) : String :=
  if 1000000000 ≤ d.nanoseconds then d.inUnit 9 "s"
  else if 1000000 ≤ d.nanoseconds then d.inUnit 6 "ms"
  else if 1000 ≤ d.nanoseconds then d.inUnit 3 "µs"
  else toString d.nanoseconds ++ "ns"

end Duration

end DevTools
