set_option autoImplicit false

namespace DevTools

structure SessionId where
  text : String
deriving DecidableEq, Repr

structure TargetId where
  text : String
deriving DecidableEq, Repr

def SessionId.sort (ids : List SessionId) : List SessionId :=
  ids.mergeSort fun a b => !(b.text < a.text)

def TargetId.distinct (ids : List TargetId) : List TargetId :=
  (ids.mergeSort fun a b => !(b.text < a.text)).eraseDups

end DevTools
