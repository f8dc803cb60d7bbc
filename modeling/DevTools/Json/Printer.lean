import DevTools.Json.Payload
import DevTools.Text.Debug

set_option autoImplicit false

namespace DevTools.Json

def escape (c : Char) : List Char :=
  if c = '"' then ['\\', '"']
  else if c = '\\' then ['\\', '\\']
  else if c = '\x08' then ['\\', 'b']
  else if c = '\x0c' then ['\\', 'f']
  else if c = '\n' then ['\\', 'n']
  else if c = '\r' then ['\\', 'r']
  else if c = '\t' then ['\\', 't']
  else if c.toNat < 0x20 then
    ['\\', 'u', '0', '0', Nat.digitChar (c.toNat / 16), Nat.digitChar (c.toNat % 16)]
  else [c]

def quoted (content : String) : String :=
  String.ofList ('"' :: content.toList.flatMap escape ++ ['"'])

def Number.render : Number → String
  | .integer value => toString value
  | .double value => value.render layout

def joined (parts : List String) : String :=
  String.intercalate "," parts

def renderList (items : List String) : String :=
  "[" ++ joined items ++ "]"

def renderObject (members : List (String × String)) : String :=
  "\x7b" ++ joined (members.map fun (name, value) => quoted name ++ ":" ++ value) ++ "\x7d"

mutual

def render : Json → String
  | .null => "null"
  | .boolean value => if value then "true" else "false"
  | .number value => Number.render value
  | .string content => quoted content
  | .array items => renderList (renderItems items)
  | .object members => renderObject (renderMembers members)

def renderItems : List Json → List String
  | [] => []
  | item :: items => item.render :: renderItems items

def renderMembers : List (String × Json) → List (String × String)
  | [] => []
  | (name, value) :: members => (name, value.render) :: renderMembers members

end

end DevTools.Json
