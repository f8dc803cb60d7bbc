import DevTools.Message.Format

set_option autoImplicit false

namespace DevTools

open Json

structure TargetInfo where
  target : TargetId
  kind : String
  title : String
  url : String
  attached : Bool
  opener : Option TargetId
  browserContext : Option String
deriving DecidableEq, Repr

structure AttachedToTarget where
  session : SessionId
  info : TargetInfo
  waitingForDebugger : Bool
deriving DecidableEq, Repr

structure DetachedFromTarget where
  session : SessionId
  target : Option TargetId
deriving DecidableEq, Repr

inductive Command where
  | attachToTarget (target : TargetId) (flatten : Option Bool)
  | detachFromTarget (session : SessionId)
  | setAutoAttach (autoAttach waitForDebuggerOnStart : Bool) (flatten : Option Bool)
  | getTargets
deriving DecidableEq, Repr

namespace TargetInfo

def record : Record TargetInfo where
  name := "TargetInfo"
  blank := ⟨⟨""⟩, "", "", "", false, none, none⟩
  fields := [
    .of "targetId" true readTargetId fun t target => { t with target },
    .of "type" true readText fun t kind => { t with kind },
    .of "title" false readText fun t title => { t with title },
    .of "url" false readText fun t url => { t with url },
    .of "attached" false readBoolean fun t attached => { t with attached },
    .of "openerId" false (readOptional readTargetId) fun t opener => { t with opener },
    .of "browserContextId" false (readOptional readText) fun t browserContext => { t with browserContext }]

def render (t : TargetInfo) : String :=
  renderObject ([("targetId", quoted t.target.text), ("type", quoted t.kind), ("title", quoted t.title),
      ("url", quoted t.url), ("attached", (Json.boolean t.attached).render)] ++
    optionalMember "openerId" (fun id => quoted id.text) t.opener ++
    optionalMember "browserContextId" quoted t.browserContext)

end TargetInfo

namespace AttachedToTarget

def method : String := "Target.attachedToTarget"

def record : Record AttachedToTarget where
  name := "AttachedToTarget"
  blank := ⟨⟨""⟩, TargetInfo.record.blank, false⟩
  fields := [
    .of "sessionId" true readSessionId fun a session => { a with session },
    .of "targetInfo" true TargetInfo.record.read fun a info => { a with info },
    .of "waitingForDebugger" false readBoolean fun a waitingForDebugger => { a with waitingForDebugger }]

end AttachedToTarget

namespace DetachedFromTarget

def method : String := "Target.detachedFromTarget"

def record : Record DetachedFromTarget where
  name := "DetachedFromTarget"
  blank := ⟨⟨""⟩, none⟩
  fields := [
    .of "sessionId" true readSessionId fun d session => { d with session },
    .of "targetId" false (readOptional readTargetId) fun d target => { d with target }]

end DetachedFromTarget

def attachReply : Record SessionId where
  name := "AttachToTargetResponse"
  blank := ⟨""⟩
  fields := [.of "sessionId" true readSessionId fun _ session => session]

def targetsReply : Record (List TargetInfo) where
  name := "GetTargetsResponse"
  blank := []
  fields := [.of "targetInfos" true (readList TargetInfo.record.read) fun _ infos => infos]

def emptyReply : Record Unit where
  name := "Empty"
  blank := ()
  fields := []

namespace Command

def attachFlattened (target : TargetId) : Command := .attachToTarget target (some true)

def method : Command → String
  | attachToTarget .. => "Target.attachToTarget"
  | detachFromTarget .. => "Target.detachFromTarget"
  | setAutoAttach .. => "Target.setAutoAttach"
  | getTargets => "Target.getTargets"

def renderFlag (value : Bool) : String := (Json.boolean value).render

def params : Command → String
  | attachToTarget target flatten =>
    renderObject (("targetId", quoted target.text) :: optionalMember "flatten" renderFlag flatten)
  | detachFromTarget session => renderObject [("sessionId", quoted session.text)]
  | setAutoAttach autoAttach wait flatten =>
    renderObject ([("autoAttach", renderFlag autoAttach), ("waitForDebuggerOnStart", renderFlag wait)] ++
      optionalMember "flatten" renderFlag flatten)
  | getTargets => renderObject []

end Command

end DevTools
