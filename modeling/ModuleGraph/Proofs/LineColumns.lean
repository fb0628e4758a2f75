import Mathlib.Data.List.Induction
import Mathlib.Data.Prod.Lex
import Mathlib.Order.Monotone.Basic
import ModuleGraph.Proofs.TokenTexts

/-!
# Lines and columns

Each character of a text leads on to a later line or a later column, whatever number of bytes it
takes (`Text.lt_passing`). The place of a boundary is therefore found by going through the
characters before it (`Text.lineColumn_append`), and boundaries stand in the same order as their
places (`Text.strictMonoOn_lineColumn`).
-/

namespace ModuleGraph.Text

/-- The line and column behind a character that stands at a place. -/
def passing (place : Nat × Nat) (c : Char) : Nat × Nat :=
  if c = '\n' then (place.1 + 1, 1) else (place.1, place.2 + 1)

/-- The line and column behind a text: the first counts its line feeds, the second the characters
behind the last of them, both from one. -/
def placeBehind (before : List Char) : Nat × Nat :=
  (before.count '\n' + 1, (before.reverse.takeWhile (· ≠ '\n')).length + 1)

variable {text before : List Char}

/-- A character leads on to a later line or column. -/
theorem lt_passing (place : Nat × Nat) (c : Char) : toLex place < toLex (passing place c) := by
  rw [Prod.Lex.toLex_lt_toLex]
  unfold passing
  split
  · exact .inl (Nat.lt_succ_self _)
  · exact .inr ⟨rfl, Nat.lt_succ_self _⟩

/-- The place behind one more character is the one that this character leads on to. -/
theorem placeBehind_concat (before : List Char) (c : Char) :
    placeBehind (before ++ [c]) = passing (placeBehind before) c := by
  by_cases hc : c = '\n'
  · simp [placeBehind, passing, hc]
  · simp [placeBehind, passing, hc]

/-- The place of a boundary is found by passing the characters before it. -/
theorem lineColumnFrom_append (line column : Nat) (before after : List Char) :
    lineColumnFrom line column (before ++ after) (byteLength before) =
      before.foldl passing (line, column) := by
  induction before generalizing line column with
  | nil =>
      cases after with
      | nil => rfl
      | cons c after => simp [lineColumnFrom, byteLength, c.utf8Size_pos]
  | cons c before ih =>
      have hover : ¬ c.utf8Size + byteLength before < c.utf8Size := by omega
      rw [List.cons_append, byteLength, lineColumnFrom, if_neg hover, Nat.add_sub_cancel_left,
        List.foldl_cons]
      by_cases hc : c = '\n'
      · rw [if_pos hc, ih, passing, if_pos hc]
      · rw [if_neg hc, ih, passing, if_neg hc]

/-- Passing the characters of a text from its start leads to the place behind it. -/
theorem foldl_passing (before : List Char) : before.foldl passing (1, 1) = placeBehind before := by
  induction before using List.reverseRecOn with
  | nil => rfl
  | append_singleton before c ih =>
      rw [List.foldl_append, ih, placeBehind_concat, List.foldl_cons, List.foldl_nil]

/-- The place of a boundary is the one behind the characters before it. -/
theorem lineColumn_append (before after : List Char) :
    lineColumn (before ++ after) (byteLength before) = placeBehind before := by
  rw [lineColumn, lineColumnFrom_append, foldl_passing]

/-- More text leads to no earlier place. -/
theorem placeBehind_le_append (before more : List Char) :
    toLex (placeBehind before) ≤ toLex (placeBehind (before ++ more)) := by
  induction more using List.reverseRecOn with
  | nil => rw [List.append_nil]
  | append_singleton more c ih =>
      rw [← List.append_assoc, placeBehind_concat]
      exact ih.trans (lt_passing _ c).le

/-- More text that is not empty leads to a later place. -/
theorem placeBehind_lt_append {more : List Char} (h : more ≠ []) :
    toLex (placeBehind before) < toLex (placeBehind (before ++ more)) := by
  obtain ⟨c, more, rfl⟩ := List.exists_cons_of_ne_nil h
  calc toLex (placeBehind before) < toLex (passing (placeBehind before) c) := lt_passing _ c
    _ = toLex (placeBehind (before ++ [c])) := by rw [placeBehind_concat]
    _ ≤ toLex (placeBehind (before ++ [c] ++ more)) := placeBehind_le_append _ more
    _ = toLex (placeBehind (before ++ c :: more)) := by rw [List.append_assoc]; rfl

/-- The place at the length of a prefix is the one behind this prefix. -/
theorem lineColumn_of_isPrefix (h : before <+: text) :
    lineColumn text (byteLength before) = placeBehind before := by
  obtain ⟨after, rfl⟩ := h
  exact lineColumn_append before after

/-- Boundaries stand in the order of their places. -/
theorem strictMonoOn_lineColumn (text : List Char) :
    StrictMonoOn (fun o => toLex (lineColumn text o)) {o | IsBoundary text o} := by
  rintro a ⟨front, hfront, rfl⟩ b ⟨before, hbefore, rfl⟩ hlt
  show toLex (lineColumn text _) < toLex (lineColumn text _)
  rw [lineColumn_of_isPrefix hfront, lineColumn_of_isPrefix hbefore]
  obtain ⟨more, rfl⟩ | ⟨more, rfl⟩ := List.prefix_or_prefix_of_prefix hfront hbefore
  · refine placeBehind_lt_append ?_
    rintro rfl
    simp at hlt
  · rw [byteLength_append] at hlt
    omega

end ModuleGraph.Text
