/-!
# Cutting lists

`splitWhere p` cuts a list at every member that satisfies `p`; there is always one piece more than
there are cuts. `splitWhere_length` states that, and `mem_splitWhere` that no piece holds a cut.
-/

namespace ModuleGraph.Text

/-- The pieces of a list between the members that satisfy `p`. -/
def splitWhere {α : Type} (p : α → Bool) : List α → List (List α)
  | [] => [[]]
  | a :: as =>
    if p a then [] :: splitWhere p as
    else
      match splitWhere p as with
      | [] => [[a]]
      | piece :: pieces => (a :: piece) :: pieces

theorem splitWhere_ne_nil {α : Type} (p : α → Bool) (as : List α) : splitWhere p as ≠ [] := by
  cases as with
  | nil => simp [splitWhere]
  | cons a as =>
    simp only [splitWhere]
    split
    · simp
    · split <;> simp

theorem splitWhere_length {α : Type} (p : α → Bool) (as : List α) :
    (splitWhere p as).length = as.countP p + 1 := by
  induction as with
  | nil => rfl
  | cons a as ih =>
    simp only [splitWhere]
    split
    · rename_i h
      simp [ih, h]
    · rename_i h
      split
      · rename_i heq
        exact absurd heq (splitWhere_ne_nil p as)
      · rename_i heq
        rw [heq] at ih
        simp only [List.length_cons] at ih ⊢
        rw [List.countP_cons_of_neg h, ih]

theorem mem_splitWhere {α : Type} {p : α → Bool} {as piece : List α}
    (h : piece ∈ splitWhere p as) : ∀ a ∈ piece, p a = false := by
  induction as generalizing piece with
  | nil =>
    rw [splitWhere, List.mem_singleton] at h
    simp [h]
  | cons a as ih =>
    simp only [splitWhere] at h
    split at h
    · rcases List.mem_cons.1 h with rfl | h
      · simp
      · exact ih h
    · rename_i hp
      split at h
      · rw [List.mem_singleton] at h
        simpa [h] using hp
      · rename_i heq
        rcases List.mem_cons.1 h with rfl | h
        · intro b hb
          rcases List.mem_cons.1 hb with rfl | hb
          · simpa using hp
          · exact ih (heq ▸ List.mem_cons_self) b hb
        · exact ih (heq ▸ List.mem_cons_of_mem _ h)

end ModuleGraph.Text
