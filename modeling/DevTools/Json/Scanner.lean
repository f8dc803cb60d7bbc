import DevTools.Json.Error
import DevTools.Text.Ascii
import DevTools.Text.Utf8

set_option autoImplicit false

namespace DevTools.Json

open Ascii

def isBlank (b : UInt8) : Bool :=
  b == space || b == lineFeed || b == carriageReturn || b == tab

def skipBlanks (s : Bytes) : Bytes :=
  s.dropWhile isBlank

def word : (expected : Bytes) → Bytes → Except Error Bytes
  | [], s => .ok s
  | _ :: _, [] => .error .endInValue
  | e :: es, b :: s => if b = e then word es s else .error .expectedWord

def restOfNull : Bytes := [letterU, 0x6C, 0x6C]
def restOfTrue : Bytes := [letterR, letterU, letterE]
def restOfFalse : Bytes := [0x61, 0x6C, 0x73, letterE]

structure Numeral where
  whole : Bytes
  fraction : Bytes
  exponent : Option (Bool × Bytes)
deriving DecidableEq, Repr

def someDigits (cut : Error) (s : Bytes) : Except Error (Bytes × Bytes) :=
  match s with
  | [] => .error cut
  | b :: _ => if isDigit b then .ok (s.takeWhile isDigit, s.dropWhile isDigit) else .error .invalidNumber

def Numeral.scanWhole (cut : Error) (s : Bytes) : Except Error (Bytes × Bytes) :=
  match s with
  | 0x30 :: b :: rest => if isDigit b then .error .invalidNumber else .ok ([zero], b :: rest)
  | s => someDigits cut s

def Numeral.scanFraction (cut : Error) (s : Bytes) : Except Error (Bytes × Bytes) :=
  match s with
  | point :: rest => someDigits cut rest
  | s => .ok ([], s)

def Numeral.scanExponent (cut : Error) (s : Bytes) : Except Error (Option (Bool × Bytes) × Bytes) :=
  match s with
  | b :: rest =>
    if b == letterE || b == upperE then
      let (negative, rest) := match rest with
        | minus :: rest => (true, rest)
        | plus :: rest => (false, rest)
        | rest => (false, rest)
      (someDigits cut rest).map fun (digits, rest) => (some (negative, digits), rest)
    else .ok (none, s)
  | [] => .ok (none, [])

-- The longest numeral at the front. `cut` is reported when the input ends where a digit is due.
def Numeral.scan (cut : Error) (s : Bytes) : Except Error (Numeral × Bytes) := do
  let (whole, s) ← scanWhole cut s
  let (fraction, s) ← scanFraction cut s
  let (exponent, s) ← scanExponent cut s
  return (⟨whole, fraction, exponent⟩, s)

def absorb (significand : Nat) : Bytes → Nat × Bytes
  | [] => (significand, [])
  | b :: rest =>
    let longer := significand * 10 + digitValue b
    if longer ≤ greatestInteger then absorb longer rest else (significand, b :: rest)

def Numeral.power (n : Numeral) : Int :=
  match n.exponent with
  | none => 0
  | some (negative, digits) => if negative then -(decimal digits : Int) else decimal digits

-- A numeral of digits alone is an integer if it lies within the bounds. Any other is a double formed
-- from the leading digits that fit 64 bits; a minus before zero makes the double -0.
def Numeral.value (negative : Bool) (n : Numeral) : Except Error Number :=
  let (leading, dropped) := absorb 0 n.whole
  let asDouble (significand : Nat) (power : Int) : Except Error Number :=
    match Double.ofParts significand power with
    | some x => .ok (.double (x.withSign negative))
    | none => .error .numberOutOfRange
  if n.fraction.isEmpty && n.exponent.isNone && dropped.isEmpty then
    if !negative then .ok (.integer leading)
    else if leading = 0 ∨ (leading : Int) > -leastInteger then asDouble leading 0
    else .ok (.integer (-leading))
  else
    let (significand, unused) := absorb leading n.fraction
    asDouble significand (dropped.length - (n.fraction.length - unused.length) + n.power)

def readNumber (s : Bytes) : Except Error (Number × Bytes) := do
  let (negative, s) := match s with
    | minus :: rest => (true, rest)
    | s => (false, s)
  let (numeral, rest) ← Numeral.scan .endInValue s
  return (← numeral.value negative, rest)

def hexDigits (a b c d : UInt8) : Except Error Nat :=
  match hexValue? a, hexValue? b, hexValue? c, hexValue? d with
  | some a, some b, some c, some d => .ok (((a * 16 + b) * 16 + c) * 16 + d)
  | _, _, _, _ => .error .invalidEscape

def shortEscape? (b : UInt8) : Option UInt8 :=
  match b with
  | quote => some quote
  | backslash => some backslash
  | slash => some slash
  | letterB => some backspace
  | letterF => some formFeed
  | letterN => some lineFeed
  | letterR => some carriageReturn
  | letterT => some tab
  | _ => none

def isLeading (n : Nat) : Bool := 0xD800 ≤ n && n < 0xDC00
def isTrailing (n : Nat) : Bool := 0xDC00 ≤ n && n < 0xE000

def codePoint (n : Nat) : Bytes :=
  String.utf8EncodeChar (Char.ofNat n)

def pairValue (leading trailing : Nat) : Nat :=
  (leading - 0xD800) * 0x400 + (trailing - 0xDC00) + 0x10000

-- The bytes of a string whose opening quote has been read, up to its closing quote, and what follows.
def stringBytes : Bytes → Except Error (Bytes × Bytes)
  | [] => .error .endInString
  | b :: s =>
    if b = quote then .ok ([], s)
    else if b = backslash then
      match s with
      | [] => .error .endInString
      | letterU :: s =>
        match s with
        | h₁ :: h₂ :: h₃ :: h₄ :: s => do
          let n ← hexDigits h₁ h₂ h₃ h₄
          if isTrailing n then .error .loneSurrogate
          else if isLeading n then
            match s with
            | [] => .error .endInString
            | backslash :: s =>
              match s with
              | [] => .error .endInString
              | letterU :: s =>
                match s with
                | h₁ :: h₂ :: h₃ :: h₄ :: s => do
                  let m ← hexDigits h₁ h₂ h₃ h₄
                  if isTrailing m then
                    let (content, rest) ← stringBytes s
                    .ok (codePoint (pairValue n m) ++ content, rest)
                  else .error .loneSurrogate
                | _ => .error .endInString
              | _ => .error .unpairedEscape
            | _ => .error .unpairedEscape
          else do
            let (content, rest) ← stringBytes s
            .ok (codePoint n ++ content, rest)
        | _ => .error .endInString
      | e :: s =>
        match shortEscape? e with
        | some c => do
          let (content, rest) ← stringBytes s
          .ok (c :: content, rest)
        | none => .error .invalidEscape
    else if b < space then .error .controlCharacter
    else do
      let (content, rest) ← stringBytes s
      .ok (b :: content, rest)

def readString (s : Bytes) : Except Error (String × Bytes) := do
  let (bytes, rest) ← stringBytes s
  match Utf8.decode? bytes with
  | some content => return (content, rest)
  | none => .error .invalidCodePoint

def skipString : Bytes → Except Error Bytes
  | [] => .error .endInString
  | b :: s =>
    if b = quote then .ok s
    else if b = backslash then
      match s with
      | [] => .error .endInString
      | letterU :: s =>
        match s with
        | h₁ :: h₂ :: h₃ :: h₄ :: s => do
          let _ ← hexDigits h₁ h₂ h₃ h₄
          skipString s
        | _ => .error .endInString
      | e :: s => if (shortEscape? e).isSome then skipString s else .error .invalidEscape
    else if b < space then .error .controlCharacter
    else skipString s

def colonMark (s : Bytes) : Except Error Bytes :=
  match skipBlanks s with
  | [] => .error .endInObject
  | b :: rest => if b = colon then .ok rest else .error .expectedColon

def finish (s : Bytes) : Except Error Unit :=
  if (skipBlanks s).isEmpty then .ok () else .error .trailingCharacters

end DevTools.Json
