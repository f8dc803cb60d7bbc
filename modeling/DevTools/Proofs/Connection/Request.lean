import DevTools.Connection.Hub
import DevTools.Proofs.Message.Params
import DevTools.Proofs.Message.RoundTrip

set_option autoImplicit false

namespace DevTools

def Request.frame (r : Request) : Bytes := (Message.request r).encode

def Asked.request? (asked : Asked) (id : UInt64) : Option Request :=
  match asked.params.payload? with
  | .ok params => some ⟨id, asked.method, params, asked.scope⟩
  | .error _ => none

def Hub.request? (h : Hub) (asked : Asked) : Option Request :=
  match h.refusal? asked with
  | some _ => none
  | none => if h.calls.closed then none else asked.request? h.calls.nextId

-- Requests as the hub builds them, the method and the id being those of any call.
def Request.Built (r : Request) : Prop :=
  r.id ≠ 0 ∧ ∃ asked : Asked, asked.method ≠ "" ∧ asked.params.WellFormed ∧ asked.request? r.id = some r

theorem Asked.request_asked {asked : Asked} {id : UInt64} {r : Request} (made : asked.request? id = some r) :
    r.id = id ∧ r.method = asked.method ∧ r.session = asked.scope ∧ asked.params.payload? = .ok r.params := by
  rw [request?] at made
  split at made
  · next params written =>
      obtain rfl := Option.some.inj made
      exact ⟨rfl, rfl, rfl, written⟩
  · cases made

theorem Asked.params_absent {asked : Asked} {id : UInt64} {r : Request} (made : asked.request? id = some r) :
    r.params = none ↔ asked.params.render = .ok "null" := by
  rw [← Params.payload_absent, (request_asked made).2.2.2]
  exact ⟨congrArg _, Except.ok.inj⟩

namespace Hub

section
variable {h : Hub} {asked : Asked} {r : Request}

theorem request_accepted (queued : h.request? asked = some r) :
    h.refusal? asked = none ∧ h.calls.closed = false ∧ asked.request? h.calls.nextId = some r := by
  rw [request?] at queued
  split at queued
  · cases queued
  · next accepted =>
      split at queued
      · cases queued
      · next isOpen => exact ⟨accepted, eq_false_of_ne_true isOpen, queued⟩

theorem post_frames : ∃ queue, (h.post asked).2.outbound = h.outbound ++ queue ∧
    queue.map (·.frame) = (h.request? asked).toList.map Request.frame := by
  rw [post_eq, request?]
  cases h.refusal? asked with
  | some fault => exact ⟨[], (List.append_nil _).symm, rfl⟩
  | none =>
      dsimp only [CallTable.allocate]
      rw [Asked.request?]
      cases asked.params.payload? with
      | error fault => exact ⟨[], (List.append_nil _).symm, by cases h.calls.closed <;> rfl⟩
      | ok params =>
          dsimp only [CallTable.register]
          cases h.calls.closed with
          | true => exact ⟨[], (List.append_nil _).symm, rfl⟩
          | false => exact ⟨[_], rfl, rfl⟩

theorem post_goes (queued : h.request? asked = some r) : ∃ call after, h.post asked = (.ok call, after) := by
  obtain ⟨accepted, isOpen, made⟩ := request_accepted queued
  obtain ⟨-, -, -, params⟩ := Asked.request_asked made
  rw [post_eq, accepted]
  dsimp only [CallTable.allocate]
  rw [params]
  dsimp only [CallTable.register]
  rw [isOpen]
  exact ⟨_, _, rfl⟩

theorem accepted_method (accepted : h.refusal? asked = none) : asked.method ≠ "" := by
  intro empty
  rw [refusal?, empty] at accepted
  split at accepted
  · cases accepted
  · cases accepted

theorem request_built (wellFormed : asked.params.WellFormed) (unused : h.calls.nextId ≠ 0)
    (queued : h.request? asked = some r) : r.Built := by
  obtain ⟨accepted, -, made⟩ := request_accepted queued
  have id := (Asked.request_asked made).1
  exact ⟨id ▸ unused, asked, accepted_method accepted, wellFormed, id ▸ made⟩

end

end Hub

theorem optional_member {α : Type} {name : String} {render : α → String} {value : Option α} {member : String × String}
    (inside : member ∈ optionalMember name render value) : ∃ v ∈ value, member = (name, render v) := by
  cases value with
  | none => cases inside
  | some v => exact ⟨v, rfl, List.mem_singleton.mp inside⟩

theorem request_spelled (r : Request) (valid : ∀ p ∈ r.params, p.Valid) : Json.Spelled .value r.frame := by
  refine Json.object_spelled _ ?_
  intro member inside
  simp only [List.mem_append, List.mem_cons, List.not_mem_nil, or_false] at inside
  rcases inside with ((rfl | rfl) | params) | session
  · exact .numeral _ (Json.integer_spelled r.id.toNat)
  · exact Json.quoted_spelled r.method
  · obtain ⟨p, present, rfl⟩ := optional_member params
    exact valid p present
  · obtain ⟨id, _, rfl⟩ := optional_member session
    exact Json.quoted_spelled id.text

section
variable {r : Request} (built : r.Built)
include built

theorem built_valid : ∀ p ∈ r.params, p.Valid ∧ p.text ≠ "null" := by
  obtain ⟨_, asked, _, wellFormed, made⟩ := built
  exact Params.payload_valid wellFormed _ (Asked.request_asked made).2.2.2

theorem built_whole : r.frame ≠ [] ∧ Ascii.nul ∉ r.frame := by
  have spelled := request_spelled r fun p present => (built_valid built p present).1
  obtain ⟨b, rest, written, _⟩ := Json.spelled_opens .value _ spelled
  exact ⟨by rw [written]; exact List.cons_ne_nil b rest, Json.spelled_whole .value _ spelled⟩

theorem built_decodes : Message.decode r.frame = .ok (.request r) := by
  have valid := built_valid built
  have decoded := decode_request r built.1 fun p present => (valid p present).1
  have said : r.params.bind Payload.said = r.params := by
    cases params : r.params with
    | none => rfl
    | some p => exact if_neg (valid p params).2
  rw [Message.said, said] at decoded
  exact decoded

end

end DevTools
