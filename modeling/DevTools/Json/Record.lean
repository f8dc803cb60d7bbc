import DevTools.Json.Reader
import DevTools.Json.Payload
/- A record is written as an object, whose members may come in any order and between others, or as the list of its
   fields in their order. -/

set_option autoImplicit false

namespace DevTools.Json

open Ascii

def readBoolean (_ : Nat) (s : Bytes) : Except Error (Bool × Bytes) :=
  expecting "a boolean" s fun b rest =>
    if b = letterT then some ((word restOfTrue rest).map (true, ·))
    else if b = letterF then some ((word restOfFalse rest).map (false, ·))
    else none

structure IntegerKind where
  name : String
  least : Int
  greatest : Int

def unsigned : IntegerKind := ⟨"u64", 0, Int.pow 2 64 - 1⟩
def signed : IntegerKind := ⟨"i64", -Int.pow 2 63, Int.pow 2 63 - 1⟩
def size : IntegerKind := ⟨"usize", 0, Int.pow 2 64 - 1⟩

def readInteger (kind : IntegerKind) (_ : Nat) (s : Bytes) : Except Error (Int × Bytes) :=
  expecting kind.name s fun b rest =>
    if b = minus ∨ isDigit b then some do
      match ← readNumber (b :: rest) with
      | (.integer value, rest) =>
        if kind.least ≤ value ∧ value ≤ kind.greatest then return (value, rest)
        else .error (.invalidInteger value kind.name)
      | (.double value, _) => .error (.invalidType (.double value) kind.name)
    else none

def readNatural (kind : IntegerKind) (depth : Nat) (s : Bytes) : Except Error (Nat × Bytes) :=
  (readInteger kind depth s).map fun (value, rest) => (value.toNat, rest)

-- `null` stands for no value.
def readOptional {α : Type} (read : Nat → Bytes → Except Error (α × Bytes)) (depth : Nat) (s : Bytes) :
    Except Error (Option α × Bytes) :=
  match skipBlanks s with
  | b :: rest =>
    if b = letterN then (word restOfNull rest).map (none, ·)
    else (read depth (b :: rest)).map fun (value, rest) => (some value, rest)
  | [] => (read depth []).map fun (value, rest) => (some value, rest)

def readList {α : Type} (read : Nat → Bytes → Except Error (α × Bytes)) (depth : Nat) (s : Bytes) :
    Except Error (List α × Bytes) :=
  expecting "a sequence" s fun b rest =>
    if b = openBracket then
      match depth with
      | 0 => some (.error .tooDeep)
      | depth + 1 => some (readItems (read depth) (rest.length + 1) true rest)
    else none

structure Field (α : Type) where
  name : String
  required : Bool
  read : Nat → α → Bytes → Except Error (α × Bytes)

structure Record (α : Type) where
  name : String
  blank : α
  fields : List (Field α)

def Field.of {α β : Type} (name : String) (required : Bool) (read : Nat → Bytes → Except Error (β × Bytes))
    (put : α → β → α) : Field α :=
  ⟨name, required, fun depth record s => (read depth s).map fun (value, rest) => (put record value, rest)⟩

namespace Record

variable {α : Type}

def field? (r : Record α) (name : String) : Option (Field α) :=
  r.fields.find? fun field => field.name == name

structure Progress (α : Type) where
  seen : List String
  record : α

-- A second member of a known name is refused before its value is looked at; an unknown member is
-- passed over.
def member (r : Record α) (depth : Nat) (name : String) (p : Progress α) (s : Bytes) :
    Except Error (Progress α × Bytes) :=
  match r.field? name with
  | none => do
    let s ← colonMark s
    return (p, ← skipValue s)
  | some field =>
    if p.seen.contains name then .error (.duplicateField name)
    else do
      let s ← colonMark s
      let (record, s) ← field.read depth p.record s
      return (⟨name :: p.seen, record⟩, s)

def missing? (r : Record α) (seen : List String) : Option String :=
  (r.fields.find? fun field => field.required && !seen.contains field.name).map (·.name)

def readMembers (r : Record α) (depth : Nat) (s : Bytes) : Except Error (α × Bytes) := do
  let (p, s) ← foldMembers (r.member depth) (s.length + 1) true ⟨[], r.blank⟩ s
  match r.missing? p.seen with
  | some name => .error (.missingField name)
  | none => return (p.record, s)

def readFields (r : Record α) (depth : Nat) :
    (index : Nat) → List (Field α) → α → Bytes → Except Error (α × Bytes)
  | _, [], record, s => return (record, ← closeList s)
  | index, field :: fields, record, s => do
    match ← nextItem (index == 0) s with
    | some s =>
      let (record, s) ← field.read depth record s
      readFields r depth (index + 1) fields record s
    | none =>
      if field.required then .error (.tooShort index r.name r.fields.length)
      else readFields r depth (index + 1) fields record s

def read (r : Record α) (depth : Nat) (s : Bytes) : Except Error (α × Bytes) :=
  expecting ("struct " ++ r.name) s fun b rest =>
    if b = openBracket then
      match depth with
      | 0 => some (.error .tooDeep)
      | depth + 1 => some (r.readFields depth 0 r.fields r.blank rest)
    else if b = openBrace then
      match depth with
      | 0 => some (.error .tooDeep)
      | depth + 1 => some (r.readMembers depth rest)
    else none

def parse (r : Record α) (s : Bytes) : Except Error α :=
  parseWith r.read s

end Record

end DevTools.Json
