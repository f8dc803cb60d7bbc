import DevTools.Json.Basic
import DevTools.Text.Debug

set_option autoImplicit false

namespace DevTools.Json

inductive Found where
  | null
  | boolean (value : Bool)
  | integer (value : Int)
  | double (value : Double)
  | text (value : String)
  | sequence
  | map
deriving DecidableEq, Repr

inductive Error where
  | endInValue
  | endInList
  | endInObject
  | endInString
  | expectedValue
  | expectedWord
  | expectedColon
  | expectedListEnd
  | expectedObjectEnd
  | trailingComma
  | trailingCharacters
  | nameNotString
  | invalidNumber
  | numberOutOfRange
  | invalidEscape
  | controlCharacter
  | loneSurrogate
  | unpairedEscape
  | invalidCodePoint
  | tooDeep
  | invalidType (found : Found) (expected : String)
  | invalidInteger (value : Int) (expected : String)
  | duplicateField (name : String)
  | missingField (name : String)
  | tooShort (length : Nat) (record : String) (fields : Nat)
  | embedded (fault : Error)
deriving DecidableEq, Repr

inductive Category where
  | malformed
  | cutOff
  | mismatched
deriving DecidableEq, Repr

def Found.describe : Found → String
  | .null => "null"
  | .boolean value => s!"boolean `{value}`"
  | .integer value => s!"integer `{value}`"
  | .double value => "floating point `" ++ value.render layout ++ "`"
  | .text value => "string " ++ Text.debug value
  | .sequence => "sequence"
  | .map => "map"

namespace Error

def category : Error → Category
  | endInValue | endInList | endInObject | endInString => .cutOff
  | invalidType .. | invalidInteger .. | duplicateField .. | missingField .. | tooShort .. | embedded _ => .mismatched
  | _ => .malformed

def message : Error → String
  | endInValue => "EOF while parsing a value"
  | endInList => "EOF while parsing a list"
  | endInObject => "EOF while parsing an object"
  | endInString => "EOF while parsing a string"
  | expectedValue => "expected value"
  | expectedWord => "expected ident"
  | expectedColon => "expected `:`"
  | expectedListEnd => "expected `,` or `]`"
  | expectedObjectEnd => "expected `,` or `\x7d`"
  | trailingComma => "trailing comma"
  | trailingCharacters => "trailing characters"
  | nameNotString => "key must be a string"
  | invalidNumber => "invalid number"
  | numberOutOfRange => "number out of range"
  | invalidEscape => "invalid escape"
  | controlCharacter => "control character (\\u0000-\\u001F) found while parsing a string"
  | loneSurrogate => "lone leading surrogate in hex escape"
  | unpairedEscape => "unexpected end of hex escape"
  | invalidCodePoint => "invalid unicode code point"
  | tooDeep => "recursion limit exceeded"
  | invalidType found expected => s!"invalid type: {found.describe}, expected {expected}"
  | invalidInteger value expected => s!"invalid value: integer `{value}`, expected {expected}"
  | duplicateField name => s!"duplicate field `{name}`"
  | missingField name => s!"missing field `{name}`"
  | tooShort length record fields =>
    s!"invalid length {length}, expected struct {record} with {fields} element" ++
      (if fields = 1 then "" else "s")
  | embedded fault => fault.message

end Error

end DevTools.Json
