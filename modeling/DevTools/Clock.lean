import DevTools.Duration

set_option autoImplicit false

namespace DevTools

structure Token where
  name : String
deriving DecidableEq, Repr

structure Clock where
  now : Nat := 0
  fired : List Token := []
deriving DecidableEq, Repr

structure Limit where
  deadline : Nat
  after : Duration
deriving DecidableEq, Repr

namespace Clock

def advance (c : Clock) (milliseconds : Nat) : Clock := { c with now := c.now + milliseconds }

def fire (c : Clock) (token : Token) : Clock := { c with fired := token :: c.fired }

def hasFired (c : Clock) (token : Option Token) : Bool :=
  token.any c.fired.contains

def limit (c : Clock) (milliseconds : Nat) : Limit :=
  ⟨c.now + milliseconds, .ofMilliseconds milliseconds⟩

def hasPassed (c : Clock) (limit : Limit) : Bool := limit.deadline ≤ c.now

end Clock

end DevTools
