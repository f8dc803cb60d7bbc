import DevTools.Message.Params
import DevTools.Proofs.Json.Spelling

set_option autoImplicit false

namespace DevTools.Params

open Json

-- A payload handed over is JSON text; the other kinds are whatever they are.
def WellFormed : Params → Prop
  | payload p => p.Valid
  | _ => True

section
variable {p : Params}

theorem render_spelled (wellFormed : p.WellFormed) (text : String) (rendered : p.render = .ok text) :
    Spelled .value (Utf8.encode text) := by
  cases p with
  | nothing =>
      cases rendered
      exact .null
  | empty =>
      cases rendered
      exact object_spelled [] fun _ member => absurd member List.not_mem_nil
  | value v =>
      cases rendered
      exact value_spelled v
  | payload q =>
      cases rendered
      exact wellFormed
  | float value =>
      cases value with
      | finite x =>
          cases rendered
          exact .numeral _ (Double.render_spelled layout x)
      | infinite | nan =>
          cases rendered
          exact .null
  | numbered members =>
      cases rendered
      refine object_spelled _ ?_
      intro member inside
      obtain ⟨⟨name, value⟩, _, rfl⟩ := List.mem_map.mp inside
      exact value_spelled value
  | byList members =>
      simp only [render] at rendered
      split at rendered
      · cases rendered
        exact object_spelled [] fun _ member => absurd member List.not_mem_nil
      · cases rendered

theorem payload_valid (wellFormed : p.WellFormed) (made : Option Payload) (written : p.payload? = .ok made) :
    ∀ q ∈ made, q.Valid ∧ q.text ≠ "null" := by
  intro q present
  rw [payload?] at written
  cases rendered : p.render with
  | error fault =>
      rw [rendered] at written
      cases written
  | ok text =>
      have spelled := render_spelled wellFormed text rendered
      rw [rendered] at written
      obtain rfl := Except.ok.inj written
      rw [Payload.ofParams?] at present
      split at present
      · cases present
      · next said =>
          cases present
          exact ⟨spelled, said⟩

theorem payload_absent : p.payload? = .ok none ↔ p.render = .ok "null" := by
  rw [payload?]
  cases p.render with
  | error fault => simp
  | ok text => by_cases nothing : text = "null" <;> simp [Payload.ofParams?, nothing]

end

theorem object_kept (members : List (String × String)) :
    Payload.ofParams? (renderObject members) = some ⟨renderObject members⟩ := by
  refine if_neg fun null => ?_
  have opens := encode_members members
  rw [null] at opens
  exact absurd (List.head_eq_of_cons_eq opens) (by decide)

end DevTools.Params
