set_option autoImplicit false

namespace DevTools

abbrev Bytes := List UInt8

namespace Utf8

def encode (text : String) : Bytes :=
  text.toList.flatMap String.utf8EncodeChar

-- Where reading stopped: the first byte of the ill-formed sequence, and how many bytes of it are
-- wrong; no length means that the input ends inside a character.
structure Fault where
  index : Nat
  length : Option Nat
deriving DecidableEq, Repr

def Fault.message (fault : Fault) : String :=
  match fault.length with
  | some length => s!"invalid utf-8 sequence of {length} bytes from index {fault.index}"
  | none => s!"incomplete utf-8 byte sequence from index {fault.index}"

-- Between characters, or inside one: the bits so far, the bytes still to come, the range that the
-- next byte has to lie in, and the bytes taken.
inductive State where
  | start
  | inside (code left : Nat) (low high : UInt8) (taken : Nat)

inductive Step where
  | more (state : State)
  | char (code : Nat)
  | bad (length : Nat)

-- The first byte of a character. Its range for the second byte keeps out overlong forms, surrogates
-- and numbers above the last character.
def lead (b : UInt8) : Step :=
  if b < 0x80 then .char b.toNat
  else if b < 0xC2 then .bad 1
  else if b < 0xE0 then .more (.inside (b.toNat - 0xC0) 1 0x80 0xBF 1)
  else if b = 0xE0 then .more (.inside 0 2 0xA0 0xBF 1)
  else if b = 0xED then .more (.inside 0xD 2 0x80 0x9F 1)
  else if b < 0xF0 then .more (.inside (b.toNat - 0xE0) 2 0x80 0xBF 1)
  else if b = 0xF0 then .more (.inside 0 3 0x90 0xBF 1)
  else if b < 0xF4 then .more (.inside (b.toNat - 0xF0) 3 0x80 0xBF 1)
  else if b = 0xF4 then .more (.inside 4 3 0x80 0x8F 1)
  else .bad 1

def step (state : State) (b : UInt8) : Step :=
  match state with
  | .start => lead b
  | .inside code left low high taken =>
    if low ≤ b ∧ b ≤ high then
      let code := code * 64 + (b.toNat - 0x80)
      if left ≤ 1 then .char code else .more (.inside code (left - 1) 0x80 0xBF (taken + 1))
    else .bad taken

-- `index` is where the character being read starts, `next` where the next byte stands.
def decodeFrom (state : State) (index next : Nat) : Bytes → Except Fault (List Char)
  | [] =>
    match state with
    | .start => .ok []
    | .inside .. => .error ⟨index, none⟩
  | b :: rest =>
    match step state b with
    | .char code => (decodeFrom .start (next + 1) (next + 1) rest).map (Char.ofNat code :: ·)
    | .more state => decodeFrom state index (next + 1) rest
    | .bad length => .error ⟨index, some length⟩

def decode (bytes : Bytes) : Except Fault String :=
  (decodeFrom .start 0 0 bytes).map String.ofList

def decode? (bytes : Bytes) : Option String :=
  (decode bytes).toOption

end Utf8

end DevTools
