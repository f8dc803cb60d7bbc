import DevTools.Error
import DevTools.Number.Natural

set_option autoImplicit false

namespace DevTools

inductive AddressFault where
  | empty
  | tooLong
  | badCharacter
  | badFormat
  | badAuthority
  | schemeTooLong
deriving DecidableEq, Repr

def AddressFault.message : AddressFault → String
  | empty => "empty string"
  | tooLong => "uri too long"
  | badCharacter => "invalid uri character"
  | badFormat => "invalid format"
  | badAuthority => "invalid authority"
  | schemeTooLong => "scheme too long"

structure Address where
  scheme : Option (List Char)
  authority : Option (List Char)
deriving DecidableEq, Repr

namespace Address

def maxBytes : Nat := 65534

def maxScheme : Nat := 64

def isSchemeChar (c : Char) : Bool := c.isAlphanum || "+-.~".toList.contains c

def isAuthorityChar (c : Char) : Bool := c.isAlphanum || "!$&'()*+,-.;=_~".toList.contains c

def endsAuthority (c : Char) : Bool := c == '/' || c == '?' || c == '#'

-- ASCII has controls, the blank among them, before `!` and one after `~`.
def isVisible (c : Char) : Bool := '!' ≤ c && c ≠ '\x7f'

def isPathChar (c : Char) : Bool := isVisible c && !"#<>?\x60".toList.contains c

def isQueryChar (c : Char) : Bool := isVisible c && !"\"#<>".toList.contains c

structure Scan where
  colons : Nat := 0
  opened : Bool := false
  closed : Bool := false
  percent : Bool := false
deriving DecidableEq, Repr

-- What stands before an at sign names a user, and what stands in brackets is a number of an interface:
-- neither colons nor percent signs in there count.
def Scan.step (s : Scan) (c : Char) : Except AddressFault Scan :=
  match c with
  | ':' => if 8 ≤ s.colons then .error .badAuthority else .ok { s with colons := s.colons + 1 }
  | '[' => if s.percent || s.opened then .error .badAuthority else .ok { s with opened := true }
  | ']' =>
    if !s.opened || s.closed then .error .badAuthority
    else .ok { s with closed := true, colons := 0, percent := false }
  | '@' => .ok { s with colons := 0, percent := false }
  | '%' => .ok { s with percent := true }
  | c => if isAuthorityChar c then .ok s else .error .badCharacter

def checkAuthority (cs : List Char) : Except AddressFault Unit := do
  let s ← cs.foldlM Scan.step {}
  if s.opened != s.closed || 1 < s.colons || cs.getLast? == some '@' || s.percent then .error .badAuthority
  else .ok ()

def checkPath (cs : List Char) : Except AddressFault Unit :=
  match cs.dropWhile isPathChar with
  | [] | '#' :: _ => .ok ()
  | '?' :: query =>
    match query.dropWhile isQueryChar with
    | [] | '#' :: _ => .ok ()
    | _ => .error .badCharacter
  | _ => .error .badCharacter

def splitScheme (cs : List Char) : Except AddressFault (Option (List Char) × List Char) :=
  let scheme := cs.takeWhile isSchemeChar
  match cs.dropWhile isSchemeChar with
  | ':' :: '/' :: '/' :: rest =>
    if scheme.isEmpty && rest.isEmpty then .ok (none, cs)
    else if maxScheme < scheme.length then .error .schemeTooLong
    else .ok (some scheme, rest)
  | _ => .ok (none, cs)

def parseFull (cs : List Char) : Except AddressFault Address := do
  let (scheme, rest) ← splitScheme cs
  let authority := rest.takeWhile (!endsAuthority ·)
  let path := rest.dropWhile (!endsAuthority ·)
  if rest.isEmpty then .error .empty
  else
    checkAuthority authority
    if scheme.isNone then
      if path.isEmpty then .ok ⟨none, some authority⟩ else .error .badFormat
    else if authority.isEmpty then .error .badFormat
    else
      checkPath path
      .ok ⟨scheme, some authority⟩

def parsePathOrFull (cs : List Char) : Except AddressFault Address :=
  match cs with
  | '/' :: _ => (checkPath cs).map fun _ => ⟨none, none⟩
  | cs => parseFull cs

def parse (text : String) : Except AddressFault Address :=
  if maxBytes < text.utf8ByteSize then .error .tooLong
  else match text.toList with
    | [] => .error .empty
    | ['*'] => .ok ⟨none, none⟩
    | [c] => if c == '?' || c == '#' then .error .badCharacter else parsePathOrFull [c]
    | cs => parsePathOrFull cs

def host (authority : List Char) : List Char :=
  match (authority.reverse.takeWhile (· != '@')).reverse with
  | '[' :: rest => rest.takeWhile (· != ']')
  | rest => rest.takeWhile (· != ':')

def port? (authority : List Char) : Option Nat :=
  if authority.contains ':' then
    (Natural.ofText? (authority.reverse.takeWhile (· != ':')).reverse).filter (· < UInt16.size)
  else none

end Address

inductive DialFault where
  | address (fault : AddressFault)
  | noHost
  | unsupportedScheme
  | unknownHost
  | unreachable
deriving DecidableEq, Repr

def DialFault.message : DialFault → String
  | address fault => s!"HTTP format error: {fault.message}"
  | noHost => "URL error: No host name in the URL"
  | unsupportedScheme => "URL error: URL scheme not supported"
  | unknownHost => "IO error: failed to lookup address information: Name or service not known"
  | unreachable => "IO error: Network is unreachable (os error 101)"

structure Peer where
  host : String
  port : Nat
deriving DecidableEq, Repr

namespace Peer

def defaultPort? (scheme : Option (List Char)) : Option Nat :=
  match scheme.map String.ofList with
  | some "ws" => some 80
  | some "wss" => some 443
  | _ => none

def ofUrl (url : String) : Except DialFault Peer :=
  match Address.parse url with
  | .error fault => .error (.address fault)
  | .ok ⟨_, none⟩ => .error .noHost
  | .ok ⟨scheme, some authority⟩ =>
    match (Address.port? authority).or (defaultPort? scheme) with
    | some port => .ok ⟨String.ofList (Address.host authority), port⟩
    | none => .error .unsupportedScheme

-- Where there is no network every dial fails; a host without a name is not even looked for.
def dialOffline (peer : Peer) : DialFault :=
  if peer.host.isEmpty then .unknownHost else .unreachable

end Peer

def connectOffline (url : String) : Error :=
  .connectionFailed url (match Peer.ofUrl url with
    | .error fault => fault.message
    | .ok peer => peer.dialOffline.message)

end DevTools
