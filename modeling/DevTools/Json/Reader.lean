import DevTools.Json.Expected
/- Values read from text, left to right; the first fault met is the answer. `depth` is how many brackets may still be
   opened. -/

set_option autoImplicit false

namespace DevTools.Json

open Ascii

-- A text may open this many brackets one inside the other.
def depthLimit : Nat := 127

def nextItem (first : Bool) (s : Bytes) : Except Error (Option Bytes) :=
  match skipBlanks s with
  | [] => .error .endInList
  | b :: s =>
    if b = closeBracket then .ok none
    else if first then .ok (some (b :: s))
    else if b = comma then
      match skipBlanks s with
      | [] => .error .endInValue
      | b :: s => if b = closeBracket then .error .trailingComma else .ok (some (b :: s))
    else .error .expectedListEnd

def closeList (s : Bytes) : Except Error Bytes :=
  match skipBlanks s with
  | [] => .error .endInList
  | b :: s =>
    if b = closeBracket then .ok s
    else if b = comma then
      match skipBlanks s with
      | b :: _ => if b = closeBracket then .error .trailingComma else .error .trailingCharacters
      | [] => .error .trailingCharacters
    else .error .trailingCharacters

def readItems {α : Type} (read : Bytes → Except Error (α × Bytes)) :
    (fuel : Nat) → (first : Bool) → Bytes → Except Error (List α × Bytes)
  | 0, _, _ => .error .endInList
  | fuel + 1, first, s => do
    match ← nextItem first s with
    | none => return ([], ← closeList s)
    | some s =>
      let (item, s) ← read s
      let (items, s) ← readItems read fuel false s
      return (item :: items, s)

inductive NextMember where
  | name (s : Bytes)
  | close (rest : Bytes)
deriving DecidableEq, Repr

def nextMember (first : Bool) (s : Bytes) : Except Error NextMember :=
  match skipBlanks s with
  | [] => .error .endInObject
  | b :: s =>
    if b = closeBrace then .ok (.close s)
    else if first then
      if b = quote then .ok (.name s) else .error .nameNotString
    else if b = comma then
      match skipBlanks s with
      | [] => .error .endInValue
      | b :: s =>
        if b = quote then .ok (.name s)
        else if b = closeBrace then .error .trailingComma
        else .error .nameNotString
    else .error .expectedObjectEnd

-- Goes through the members of an object after its opening brace. `member` takes a name and reads
-- from the end of that name to the end of the value.
def foldMembers {σ : Type} (member : String → σ → Bytes → Except Error (σ × Bytes)) :
    (fuel : Nat) → (first : Bool) → σ → Bytes → Except Error (σ × Bytes)
  | 0, _, _, _ => .error .endInObject
  | fuel + 1, first, state, s => do
    match ← nextMember first s with
    | .close rest => return (state, rest)
    | .name s =>
      let (name, s) ← readString s
      let (state, s) ← member name state s
      foldMembers member fuel false state s

-- The name of a member that holds a value as text; it counts only as the first of its object.
def embeddingName : String := "$serde_json::private::RawValue"

def closeEmbedding (s : Bytes) : Except Error Bytes :=
  match skipBlanks s with
  | [] => .error .endInObject
  | b :: s =>
    if b = closeBrace then .ok s
    else if b = comma then .error .trailingComma
    else .error .trailingCharacters

def readEmbedding (inner : Bytes → Except Error Json) (s : Bytes) : Except Error (Json × Bytes) := do
  let s ← colonMark s
  let (text, s) ← readStringAs "raw value" s
  let value ← (inner (Utf8.encode text)).mapError .embedded
  return (value, ← closeEmbedding s)

-- An object after its opening brace. Of members that share a name the last one counts.
def readObject (inner : Bytes → Except Error Json) (read : Bytes → Except Error (Json × Bytes)) (s : Bytes) :
    Except Error (Json × Bytes) := do
  let member (name : String) (members : List (String × Json)) (s : Bytes) := do
    let s ← colonMark s
    let (value, s) ← read s
    return (insert name value members, s)
  match ← nextMember true s with
  | .close rest => return (.object [], rest)
  | .name s =>
    let (name, s) ← readString s
    if name = embeddingName then readEmbedding inner s
    else
      let (members, s) ← member name [] s
      let (members, s) ← foldMembers member (s.length + 1) false members s
      return (.object members, s)

def readValueWith (inner : Bytes → Except Error Json) (depth : Nat) (s : Bytes) : Except Error (Json × Bytes) :=
  match skipBlanks s with
  | [] => .error .endInValue
  | b :: s =>
    if b = letterN then (word restOfNull s).map (.null, ·)
    else if b = letterT then (word restOfTrue s).map (.boolean true, ·)
    else if b = letterF then (word restOfFalse s).map (.boolean false, ·)
    else if b = minus ∨ isDigit b then (readNumber (b :: s)).map fun (n, s) => (.number n, s)
    else if b = quote then (readString s).map fun (content, s) => (.string content, s)
    else if b = openBracket then
      match depth with
      | 0 => .error .tooDeep
      | depth + 1 =>
        (readItems (readValueWith inner depth) (s.length + 1) true s).map fun (items, s) => (.array items, s)
    else if b = openBrace then
      match depth with
      | 0 => .error .tooDeep
      | depth + 1 => readObject inner (readValueWith inner depth) s
    else .error .expectedValue

def parseWith {α : Type} (read : Nat → Bytes → Except Error (α × Bytes)) (s : Bytes) : Except Error α := do
  let (value, rest) ← read depthLimit s
  finish rest
  return value

def parseLayers : (layers : Nat) → Bytes → Except Error Json
  | 0, _ => .error .endInValue
  | layers + 1, s => parseWith (readValueWith (parseLayers layers)) s

-- A value. A text that it embeds is shorter than itself, so its length bounds the layers.
def readValue (depth : Nat) (s : Bytes) : Except Error (Json × Bytes) :=
  readValueWith (parseLayers s.length) depth s

def parse (s : Bytes) : Except Error Json :=
  parseWith readValue s

end DevTools.Json
