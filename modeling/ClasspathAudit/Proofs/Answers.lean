import Mathlib.Tactic

/-!
Answers of computations that may fail. Where a computation was answered, so were the steps that it is made
of, and the answer comes from theirs.
-/

namespace ClasspathAudit

variable {ε α β : Type}

theorem bind_eq_ok {x : Except ε α} {f : α → Except ε β} {b : β} (answered : (x >>= f) = .ok b) :
    ∃ a, x = .ok a ∧ f a = .ok b := by
  cases x with
  | error failure => cases answered
  | ok a => exact ⟨a, rfl, answered⟩

theorem map_eq_ok {x : Except ε α} {f : α → β} {b : β} (answered : x.map f = .ok b) :
    ∃ a, x = .ok a ∧ f a = b := by
  cases x with
  | error failure => cases answered
  | ok a => exact ⟨a, rfl, Except.ok.inj answered⟩

theorem mem_of_mapM_eq_ok {f : α → Except ε β} {xs : List α} {ys : List β}
    (mapped : xs.mapM f = .ok ys) {y : β} (member : y ∈ ys) : ∃ x ∈ xs, f x = .ok y := by
  induction xs generalizing ys with
  | nil =>
    cases mapped
    simp at member
  | cons x xs ih =>
    rw [List.mapM_cons] at mapped
    obtain ⟨y', first, mapped⟩ := bind_eq_ok mapped
    obtain ⟨ys', rest, mapped⟩ := bind_eq_ok mapped
    cases mapped
    rcases List.mem_cons.mp member with rfl | later
    · exact ⟨x, List.mem_cons_self, first⟩
    · obtain ⟨x', inside, value⟩ := ih rest later
      exact ⟨x', List.mem_cons_of_mem x inside, value⟩

end ClasspathAudit
