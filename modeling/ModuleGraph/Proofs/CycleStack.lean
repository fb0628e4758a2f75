import Mathlib.Data.List.Basic
import Mathlib.Logic.Relation
import ModuleGraph.Loading

/-!
# Cycles on the stack of a walk

Loading and evaluation walk modules depth first and keep those of an unfinished cycle on a stack.
What both need to know of the stack is proved here, for any notion of a `settled` module.

A visit to a module answers with the lowest position that it reaches (`Answer`). Each module above
the position at which the visit began has been explored: what it depends on is settled or waits at
the answered position or above it. `Exploring.members` draws the conclusion: when a module reaches
no position below its own, what stands above that position depends on settled modules and on itself
only.

The stack is a path with its cycles: a visit begins at a module to which all that waits leads, and
leaves only such modules behind that lead to the visited one (`Leaves`). Whatever waits while a
module is explored therefore leads to this module (`Leading`).
-/

namespace ModuleGraph.CycleStack

/-- How a walk sees the modules: their dependencies, and which of these they may have. -/
structure View where
  dependencies : ModuleKey → List ModuleKey
  allowed : ModuleKey → ModuleKey → Prop

variable {view : View} {settled settled' : ModuleKey → Prop} {base stack stack' : List ModuleKey}
  {key d : ModuleKey} {done : List ModuleKey} {low low' : Nat}

/-- A module may have the given dependencies, and each of them is settled or waits on the stack at a
position or above it. -/
def Explored (view : View) (settled : ModuleKey → Prop) (stack : List ModuleKey) (low : Nat)
    (key : ModuleKey) (dependencies : List ModuleKey) : Prop :=
  ∀ d ∈ dependencies, (settled d ∨ d ∈ stack.drop low) ∧ view.allowed key d

/-- The answer to a visit that began with the stack `base` and ended with another one. -/
def Answer (view : View) (settled : ModuleKey → Prop) (base stack : List ModuleKey)
    (key : ModuleKey) : Option Nat → Prop
  | none => stack = base ∧ settled key
  | some low =>
      low < base.length ∧ key ∈ stack.drop low ∧
        ∀ member ∈ stack.drop base.length,
          Explored view settled stack low member (view.dependencies member)

/-- The state of a visit after some dependencies of the module have been visited. `low` is the
answer so far. -/
structure Exploring (view : View) (settled : ModuleKey → Prop) (base : List ModuleKey)
    (key : ModuleKey) (done : List ModuleKey) (low : Nat) (stack : List ModuleKey) : Prop where
  pushed : base ++ [key] <+: stack
  le : low ≤ base.length
  above : ∀ member ∈ stack.drop (base.length + 1),
    Explored view settled stack low member (view.dependencies member)
  explored : Explored view settled stack low key done

/-! ## The stack -/

/-- What stands above a position stands above each lower one of a stack that has grown. -/
theorem mem_drop_of_grown (hstack : stack <+: stack') (hlow : low' ≤ low)
    (h : key ∈ stack.drop low) : key ∈ stack'.drop low' := by
  obtain ⟨new, rfl⟩ := hstack
  refine List.drop_subset_drop_left _ hlow ?_
  rw [List.drop_append]
  exact List.mem_append_left _ h

/-- A stack that has grown has the same modules at the positions it had. -/
theorem getElem?_of_grown {position : Nat} (hstack : stack <+: stack')
    (h : stack[position]? = some key) : stack'[position]? = some key := by
  obtain ⟨new, rfl⟩ := hstack
  rw [List.getElem?_append_left (List.getElem?_eq_some_iff.1 h).1]
  exact h

/-- What is on the stack now was there before or is above it. -/
theorem mem_drop_or_mem_drop {n : Nat} (hstack : stack <+: stack') (h : key ∈ stack'.drop n) :
    key ∈ stack.drop n ∨ key ∈ stack'.drop stack.length := by
  obtain ⟨new, rfl⟩ := hstack
  rw [List.drop_append, List.mem_append] at h
  refine h.imp id fun h => ?_
  rw [List.drop_left]
  exact List.mem_of_mem_drop h

/-- A module that has been put on the stack stands below what has come since. -/
theorem drop_of_pushed (h : base ++ [key] <+: stack) :
    stack.drop base.length = key :: stack.drop (base.length + 1) := by
  obtain ⟨above, rfl⟩ := h
  simp [List.drop_append]

/-- The stack falls into what was there before and what is above it. -/
theorem split_of_grown (hstack : base <+: stack) (hnodup : stack.Nodup) :
    stack.take base.length = base ∧ (stack.drop base.length).Nodup ∧
      (∀ k, k ∈ stack ↔ k ∈ base ∨ k ∈ stack.drop base.length) ∧
      ∀ k ∈ base, k ∉ stack.drop base.length := by
  obtain ⟨new, rfl⟩ := hstack
  obtain ⟨-, hnew, hdisjoint⟩ := List.nodup_append.1 hnodup
  rw [List.take_left, List.drop_left]
  exact ⟨rfl, hnew, fun k => List.mem_append, fun k hk hmem => hdisjoint k hk k hmem rfl⟩

/-- A module stands at the position where it is found. -/
theorem getElem?_of_idxOf? {position : Nat} (h : stack.idxOf? key = some position) :
    stack[position]? = some key := by
  obtain ⟨hlt, hget, -⟩ := List.findIdx?_eq_some_iff_getElem.1 h
  have hkey : stack[position] = key := by simpa using hget
  exact List.getElem?_eq_some_iff.2 ⟨hlt, hkey⟩

/-! ## Visits -/

/-- What has been explored stays so while the walk goes on, and all the more from a lower position
on. -/
theorem Explored.mono {dependencies : List ModuleKey}
    (h : Explored view settled stack low key dependencies) (hsettled : ∀ k, settled k → settled' k)
    (hstack : stack <+: stack') (hlow : low' ≤ low) :
    Explored view settled' stack' low' key dependencies := by
  intro d hd
  obtain ⟨hloaded | hwaiting, hallowed⟩ := h d hd
  · exact ⟨.inl (hsettled d hloaded), hallowed⟩
  · exact ⟨.inr (mem_drop_of_grown hstack hlow hwaiting), hallowed⟩

/-- A module that waits is answered with its own position. -/
theorem answer_of_idxOf? {position : Nat} (h : stack.idxOf? key = some position) :
    stack[position]? = some key ∧ Answer view settled stack stack key (some position) := by
  have hget := getElem?_of_idxOf? h
  obtain ⟨hlt, hkey⟩ := List.getElem?_eq_some_iff.1 hget
  have hdrop : key ∈ stack.drop position := by
    rw [List.drop_eq_getElem_cons hlt, hkey]
    exact List.mem_cons_self
  exact ⟨hget, hlt, hdrop, by simp⟩

/-- A module goes on the stack before any of its dependencies has been visited. -/
theorem Exploring.start : Exploring view settled base key [] base.length (base ++ [key]) := by
  refine ⟨List.prefix_rfl, Nat.le_refl _, ?_, ?_⟩
  · simp
  · intro d hd
    simp at hd

/-- One more dependency has been visited. -/
theorem Exploring.visited {answer : Option Nat}
    (h : Exploring view settled base key done low stack) (hsettled : ∀ k, settled k → settled' k)
    (hstack : stack <+: stack') (hallowed : view.allowed key d)
    (hanswer : Answer view settled' stack stack' d answer) :
    Exploring view settled' base key (done ++ [d]) (LoadWalk.lower low answer) stack' := by
  cases answer with
  | none =>
      obtain ⟨rfl, hd⟩ := hanswer
      refine ⟨h.pushed, h.le, fun member hmember => ?_, fun k hk => ?_⟩
      · exact (h.above member hmember).mono hsettled hstack (Nat.le_refl low)
      · rcases List.mem_append.1 hk with hk | hk
        · exact h.explored.mono hsettled hstack (Nat.le_refl low) k hk
        · rw [List.mem_singleton.1 hk]
          exact ⟨.inl hd, hallowed⟩
  | some low' =>
      obtain ⟨-, hwaiting, hnew⟩ := hanswer
      have hleft : min low low' ≤ low := Nat.min_le_left _ _
      have hright : min low low' ≤ low' := Nat.min_le_right _ _
      refine ⟨h.pushed.trans hstack, Nat.le_trans hleft h.le, fun member hmember => ?_,
        fun k hk => ?_⟩
      · rcases mem_drop_or_mem_drop hstack hmember with hmember | hmember
        · exact (h.above member hmember).mono hsettled hstack hleft
        · exact (hnew member hmember).mono (fun _ hk => hk) List.prefix_rfl hright
      · rcases List.mem_append.1 hk with hk | hk
        · exact h.explored.mono hsettled hstack hleft k hk
        · rw [List.mem_singleton.1 hk]
          exact ⟨.inr (mem_drop_of_grown List.prefix_rfl hright hwaiting), hallowed⟩

/-- The modules above the beginning of the visit have been explored, the visited one included. -/
theorem Exploring.members (h : Exploring view settled base key (view.dependencies key) low stack) :
    key ∈ stack.drop base.length ∧ ∀ member ∈ stack.drop base.length,
      Explored view settled stack low member (view.dependencies member) := by
  rw [drop_of_pushed h.pushed]
  refine ⟨List.mem_cons_self, fun member hmember => ?_⟩
  rcases List.mem_cons.1 hmember with rfl | hmember
  · exact h.explored
  · exact h.above member hmember

/-- The visited module waits for one below. -/
theorem Exploring.waits (h : Exploring view settled base key (view.dependencies key) low stack)
    (hlow : low ≠ base.length) : Answer view settled base stack key (some low) := by
  obtain ⟨hkey, hmembers⟩ := h.members
  exact ⟨Nat.lt_of_le_of_ne h.le hlow, mem_drop_of_grown List.prefix_rfl h.le hkey, hmembers⟩

/-! ## What leads where -/

/-- How the modules that are left on the stack by a visit hang together. -/
structure Leaves (imports : ModuleKey → ModuleKey → Prop) (base stack : List ModuleKey)
    (key : ModuleKey) (answer : Option Nat) : Prop where
  target : ∀ low, answer = some low →
    ∃ target, base[low]? = some target ∧ Relation.ReflTransGen imports key target
  above : ∀ member ∈ stack.drop base.length, Relation.ReflTransGen imports member key

/-- All that waits leads to a module, and the module to what waits at the position answered so
far. -/
structure Leading (imports : ModuleKey → ModuleKey → Prop) (stack : List ModuleKey)
    (key : ModuleKey) (low : Nat) : Prop where
  reaches : ∀ member ∈ stack, Relation.ReflTransGen imports member key
  target : ∃ target, stack[low]? = some target ∧ Relation.ReflTransGen imports key target

variable {imports : ModuleKey → ModuleKey → Prop}

/-- A visit that leaves the stack as it is. -/
theorem Leaves.none : Leaves imports stack stack key none :=
  ⟨by simp, by simp⟩

/-- A module that waits leads to itself. -/
theorem Leaves.of_getElem? {position : Nat} (h : stack[position]? = some key) :
    Leaves imports stack stack key (some position) := by
  refine ⟨fun low hlow => ?_, by simp⟩
  obtain rfl := Option.some.inj hlow
  exact ⟨key, h, .refl⟩

/-- A module goes on the stack to which all that waits leads. -/
theorem Leading.start (h : ∀ member ∈ base, Relation.ReflTransGen imports member key) :
    Leading imports (base ++ [key]) key base.length := by
  refine ⟨fun member hmember => ?_, key, by simp, .refl⟩
  rcases List.mem_append.1 hmember with hmember | hmember
  · exact h member hmember
  · rw [List.mem_singleton.1 hmember]

/-- One more dependency has been visited. What it has left behind waits for a module below, which
leads to the explored one. -/
theorem Leading.visited {answer : Option Nat} (h : Leading imports stack key low)
    (himports : imports key d) (hstack : stack <+: stack')
    (hanswer : Answer view settled stack stack' d answer)
    (hleaves : Leaves imports stack stack' d answer) :
    Leading imports stack' key (LoadWalk.lower low answer) := by
  obtain ⟨target, htarget, hleads⟩ := h.target
  have hkept := getElem?_of_grown hstack htarget
  cases answer with
  | none =>
      obtain ⟨rfl, -⟩ := hanswer
      exact ⟨h.reaches, target, hkept, hleads⟩
  | some low' =>
      obtain ⟨other, hother, hleads'⟩ := hleaves.target low' rfl
      constructor
      case reaches =>
        intro member hmember
        rcases mem_drop_or_mem_drop (n := 0) hstack hmember with hold | hnew
        · exact h.reaches member hold
        · exact ((hleaves.above member hnew).trans hleads').trans
            (h.reaches other (List.mem_of_getElem? hother))
      case target =>
        rcases Nat.le_total low low' with hle | hle
        · exact ⟨target, by rwa [LoadWalk.lower, Nat.min_eq_left hle], hleads⟩
        · refine ⟨other, ?_, .head himports hleads'⟩
          rw [LoadWalk.lower, Nat.min_eq_right hle]
          exact getElem?_of_grown hstack hother

/-- The visited module waits for one below, or its cycle is complete and leaves nothing behind. -/
theorem Leading.leaves (h : Leading imports stack key low) (hbase : base <+: stack)
    (hlow : low < base.length) : Leaves imports base stack key (some low) := by
  refine ⟨fun low' hlow' => ?_,
    fun member hmember => h.reaches member (List.mem_of_mem_drop hmember)⟩
  obtain rfl := Option.some.inj hlow'
  obtain ⟨target, htarget, hleads⟩ := h.target
  obtain ⟨new, rfl⟩ := hbase
  rw [List.getElem?_append_left hlow] at htarget
  exact ⟨target, htarget, hleads⟩

end ModuleGraph.CycleStack
