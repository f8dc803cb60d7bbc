import DevTools.Target

set_option autoImplicit false

namespace DevTools

inductive MethodFilter where
  | any
  | exactly (method : String)
  | domain (domain : String)
deriving DecidableEq, Repr

inductive SessionFilter where
  | any
  | browser
  | session (session : SessionId)
deriving DecidableEq, Repr

structure Filter where
  method : MethodFilter
  session : SessionFilter
deriving DecidableEq, Repr

namespace Filter

def any : Filter := ⟨.any, .any⟩

def ofMethod (method : String) : Filter := ⟨.exactly method, .any⟩

def ofDomain (domain : String) : Filter := ⟨.domain domain, .any⟩

def attached : Filter := ofMethod AttachedToTarget.method

def detached : Filter := ofMethod DetachedFromTarget.method

def inSession (f : Filter) (session : SessionId) : Filter := { f with session := .session session }

def browserOnly (f : Filter) : Filter := { f with session := .browser }

end Filter

def MethodFilter.accepts (f : MethodFilter) (e : Event) : Bool :=
  match f with
  | any => true
  | exactly method => e.method == method
  | domain name => e.domain == name

def SessionFilter.accepts (f : SessionFilter) (e : Event) : Bool :=
  match f with
  | any => true
  | browser => e.session.isNone
  | session s => e.session == some s

def Filter.accepts (f : Filter) (e : Event) : Bool :=
  f.method.accepts e && f.session.accepts e

end DevTools
