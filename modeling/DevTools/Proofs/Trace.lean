import DevTools.Schedule
import Mathlib.Data.List.Induction
import Mathlib.Data.List.Nodup

set_option autoImplicit false

namespace DevTools

section
variable {σ α : Type} (act : σ → α → σ)

def trace (s : σ) : List α → List (σ × α)
  | [] => []
  | a :: acts => (s, a) :: trace (act s a) acts

theorem trace_append (s : σ) (before after : List α) :
    trace act s (before ++ after) = trace act s before ++ trace act (before.foldl act s) after := by
  induction before generalizing s with
  | nil => rfl
  | cons a before ih => simp only [List.cons_append, trace, List.foldl_cons, ih]

theorem trace_concat (s : σ) (acts : List α) (a : α) :
    trace act s (acts ++ [a]) = trace act s acts ++ [(acts.foldl act s, a)] := by
  rw [trace_append]
  rfl

theorem mem_trace (s : σ) (acts : List α) (x : σ) (a : α) (member : (x, a) ∈ trace act s acts) :
    ∃ before after, acts = before ++ a :: after ∧ x = before.foldl act s := by
  induction acts generalizing s with
  | nil => cases member
  | cons b acts ih =>
      rcases List.mem_cons.mp member with first | later
      · cases first
        exact ⟨[], acts, rfl, rfl⟩
      · obtain ⟨before, after, rfl, same⟩ := ih (act s b) later
        exact ⟨b :: before, after, rfl, same⟩

-- What holds at first and survives every act holds after every run. `P` also sees the acts made so far.
theorem run_induction {P : List α → σ → Prop} (s : σ) (initial : P [] s)
    (step : ∀ acts a, P acts (acts.foldl act s) → P (acts ++ [a]) (act (acts.foldl act s) a)) (acts : List α) :
    P acts (acts.foldl act s) := by
  induction acts using List.reverseRecOn with
  | nil => exact initial
  | append_singleton acts a ih =>
      rw [List.foldl_append]
      exact step acts a ih

end

theorem keys_concat {α κ : Type} (key : α → κ) (all : List α) (x : α) (distinct : (all.map key).Nodup)
    (fresh : ∀ y ∈ all, key y ≠ key x) : ((all ++ [x]).map key).Nodup := by
  rw [List.map_append, List.map_singleton, ← List.concat_eq_append, List.nodup_concat]
  refine ⟨?_, distinct⟩
  intro taken
  obtain ⟨y, member, same⟩ := List.mem_map.mp taken
  exact fresh y member same

theorem find_keyed {α κ : Type} [BEq κ] [LawfulBEq κ] (key : α → κ) (all : List α)
    (distinct : (all.map key).Nodup) (x : α)
    (member : x ∈ all) : all.find? (fun y => key y == key x) = some x := by
  cases found : all.find? (fun y => key y == key x) with
  | none => exact absurd (List.find?_eq_none.mp found x member) (by simp)
  | some other =>
      have same : key other = key x := by simpa using List.find?_some found
      rw [List.inj_on_of_nodup_map distinct (List.mem_of_find?_eq_some found) member same]

-- Whatever the turns, all that a schedule does is to let somebody move, time and again.
theorem Schedule.run_moves {σ α : Type} [BEq α] (rules : Schedule σ α) (fuel : Nat) (t : Turns α) (s : σ) :
    ∃ moves : List α, rules.run fuel t s = moves.foldl rules.move s := by
  induction fuel generalizing t s with
  | zero => exact ⟨[], rfl⟩
  | succ fuel ih =>
      simp only [run]
      split
      · split
        · exact ⟨[], rfl⟩
        · exact ih _ _
      · next a queue _ =>
          split
          · exact ih _ _
          · split
            · obtain ⟨moves, made⟩ := ih (rules.notice (rules.move s a) { t with made := t.made + 1 }) (rules.move s a)
              exact ⟨a :: moves, made⟩
            · exact ih _ _

end DevTools
