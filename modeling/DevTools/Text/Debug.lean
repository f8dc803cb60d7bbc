import DevTools.Text.Hidden

set_option autoImplicit false

namespace DevTools.Text

def hex (n : Nat) : String :=
  String.ofList (Nat.toDigits 16 n)

def debugChar (c : Char) : String :=
  if c = '\x00' then "\\0"
  else if c = '\t' then "\\t"
  else if c = '\r' then "\\r"
  else if c = '\n' then "\\n"
  else if c = '"' then "\\\""
  else if c = '\\' then "\\\\"
  else if isHidden c then "\\u\x7b" ++ hex c.toNat ++ "\x7d"
  else c.toString

def debug (text : String) : String :=
  "\"" ++ String.join (text.toList.map debugChar) ++ "\""

end DevTools.Text
