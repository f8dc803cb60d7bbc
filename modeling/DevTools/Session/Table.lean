import DevTools.Error
/- A detached session stays until it is purged, so that its id scopes no further request and its late frames are known
   for what they are. Those that wait for one target share a bell, which rings when a session of it is attached. -/

set_option autoImplicit false

namespace DevTools

-- The serial number tells a session from a later one of the same id.
structure Session where
  serial : Nat
  id : SessionId
  target : TargetId
  detached : Bool
deriving DecidableEq, Repr

-- The bell that waits for a target are to share.
structure Bell where
  target : TargetId
  number : Nat
deriving DecidableEq, Repr

structure Sleeper where
  key : Nat
  bell : Bell
  woken : Bool
deriving DecidableEq, Repr

structure SessionTable where
  sessions : List Session := []
  nextSerial : Nat := 0
  bells : List Bell := []
  nextBell : Nat := 0
  sleepers : List Sleeper := []
  nextSleeper : Nat := 0
deriving DecidableEq, Repr

namespace SessionTable

def get? (t : SessionTable) (id : SessionId) : Option Session := t.sessions.find? (·.id == id)

def isAttached (t : SessionTable) (id : SessionId) : Bool := (t.get? id).any fun s => !s.detached

def isDetached (t : SessionTable) (id : SessionId) : Bool := (t.get? id).any (·.detached)

def active (t : SessionTable) : List Session := t.sessions.filter fun s => !s.detached

def length (t : SessionTable) : Nat := t.sessions.length

def scope (t : SessionTable) (id : SessionId) : Except Error Session :=
  match t.get? id with
  | some s => if s.detached then .error (.sessionNotFound id) else .ok s
  | none => .error (.sessionNotFound id)

def ofTarget? (t : SessionTable) (target : TargetId) : Option Session :=
  t.sessions.find? fun s => s.target == target && !s.detached

def wake (rings : Bell → Bool) (sleepers : List Sleeper) : List Sleeper :=
  sleepers.map fun s => if rings s.bell then { s with woken := true } else s

def ring (t : SessionTable) (target : TargetId) : SessionTable :=
  { t with
    bells := t.bells.filter fun b => b.target != target
    sleepers := wake (fun b => b.target == target && t.bells.contains b) t.sleepers }

-- An id that is already held keeps its session, attached or not.
def register (t : SessionTable) (id : SessionId) (target : TargetId) : Session × SessionTable :=
  match t.get? id with
  | some s => if s.detached then (s, t) else (s, t.ring target)
  | none =>
    let s : Session := ⟨t.nextSerial, id, target, false⟩
    (s, { t with sessions := t.sessions ++ [s], nextSerial := t.nextSerial + 1 }.ring target)

def markWhere (t : SessionTable) (which : Session → Bool) : SessionTable :=
  { t with sessions := t.sessions.map fun s => if which s then { s with detached := true } else s }

def markDetached (t : SessionTable) (id : SessionId) : Option Session × SessionTable :=
  match t.get? id with
  | some s => if s.detached then (none, t) else (some { s with detached := true }, t.markWhere (·.id == id))
  | none => (none, t)

def detachAll (t : SessionTable) : Nat × SessionTable :=
  (t.active.length, { t.markWhere (fun _ => true) with sleepers := wake t.bells.contains t.sleepers })

def purge (t : SessionTable) : Nat × SessionTable :=
  ((t.sessions.filter (·.detached)).length, { t with sessions := t.active })

def lieDown (t : SessionTable) (target : TargetId) : Nat × SessionTable :=
  let (bell, t) := match t.bells.find? (·.target == target) with
    | some bell => (bell, t)
    | none =>
      let bell : Bell := ⟨target, t.nextBell⟩
      (bell, { t with bells := t.bells ++ [bell], nextBell := t.nextBell + 1 })
  (t.nextSleeper, { t with
    sleepers := t.sleepers ++ [⟨t.nextSleeper, bell, false⟩]
    nextSleeper := t.nextSleeper + 1 })

def sleeper? (t : SessionTable) (key : Nat) : Option Sleeper := t.sleepers.find? (·.key == key)

-- Gets up. The last one at a bell takes it down, if it still hangs.
def getUp (t : SessionTable) (key : Nat) : SessionTable :=
  match t.sleeper? key with
  | none => t
  | some sleeper =>
    let others := t.sleepers.filter fun s => s.key != key
    { t with
      sleepers := others
      bells := if others.any (·.bell == sleeper.bell) then t.bells else t.bells.filter (· != sleeper.bell) }

end SessionTable

end DevTools
