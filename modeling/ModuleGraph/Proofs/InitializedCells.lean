import ModuleGraph.Proofs.LiveBindings

/-!
# Cells that have values

A cell can be given a value and can be given another one, but it never loses its value. A host may
run any scripts that keep to this (`Scripts`); the actions of a script do
(`Script.executor_eq_scripts`). A script that comes to its end leaves all exported locals of its
module with a value (`Scripts.executor_settles`).
-/

namespace ModuleGraph

/-! ## Stores of cells -/

namespace Cells

variable {cells cells' cells'' : Cells} {cell other : Cell} {value : Value}

/-- Each cell with a value in the one store has one in the other store. -/
def Keeps (cells cells' : Cells) : Prop :=
  ∀ cell, (cells.get? cell).isSome → (cells'.get? cell).isSome

/-- A store keeps its own values. -/
theorem Keeps.refl : cells.Keeps cells :=
  fun _ h => h

/-- Values that are kept twice are kept. -/
theorem Keeps.trans (h : cells.Keeps cells') (h' : cells'.Keeps cells'') : cells.Keeps cells'' :=
  fun cell hcell => h' cell (h cell hcell)

/-- Setting a cell leaves the others as they are. -/
theorem get?_set_of_ne (h : other ≠ cell) :
    (cells.set cell value).get? other = cells.get? other := by
  have hne : (other == cell) = false := beq_eq_false_iff_ne.2 h
  rw [get?, set, List.lookup_cons, hne, get?]
  induction cells with
  | nil => rfl
  | cons entry cells ih =>
      obtain ⟨c, v⟩ := entry
      by_cases hc : c = cell
      · subst hc
        simpa [List.lookup_cons, hne] using ih
      · simp [hc, List.lookup_cons, ih]

/-- Setting a cell takes no value away. -/
theorem keeps_set : cells.Keeps (cells.set cell value) := by
  intro other hother
  by_cases h : other = cell
  · rw [h, get?_set]
    rfl
  · rwa [get?_set_of_ne h]

/-- Settling keeps values, and gives all exported locals one. -/
theorem settle_spec (cells : Cells) (i : Instance) (locals : List String) :
    cells.Keeps (cells.settle i locals) ∧ ∀ name ∈ locals, ∀ cell, i.local? name = some cell →
      ((cells.settle i locals).get? cell).isSome := by
  suffices hfold : ∀ (owned : List Cell) (cells : Cells),
      cells.Keeps (owned.foldl (fun cells cell =>
        if (cells.get? cell).isSome then cells else cells.set cell .undefined) cells) ∧
      ∀ cell ∈ owned, ((owned.foldl (fun cells cell =>
        if (cells.get? cell).isSome then cells else cells.set cell .undefined) cells).get?
          cell).isSome by
    obtain ⟨hkeeps, hall⟩ := hfold (locals.filterMap i.local?) cells
    exact ⟨hkeeps, fun name hname cell hcell =>
      hall cell (List.mem_filterMap.2 ⟨name, hname, hcell⟩)⟩
  intro owned
  induction owned with
  | nil => exact fun cells => ⟨.refl, by simp⟩
  | cons cell owned ih =>
      intro cells
      rw [List.foldl_cons]
      generalize hnext : (if (cells.get? cell).isSome then cells
        else cells.set cell .undefined) = next
      have hstep : cells.Keeps next ∧ (next.get? cell).isSome := by
        subst hnext
        split
        · next hcell => exact ⟨.refl, hcell⟩
        · exact ⟨keeps_set, by rw [get?_set]; rfl⟩
      obtain ⟨hkeeps, hall⟩ := ih next
      refine ⟨hstep.1.trans hkeeps, fun other hother => ?_⟩
      rcases List.mem_cons.1 hother with rfl | hrest
      · exact hkeeps _ hstep.2
      · exact hall other hrest

end Cells

/-! ## Scripts of a host -/

/-- Where the state of a host has the values of cells. -/
structure CellStore (σ : Type) where
  cells : σ → Cells
  withCells : Cells → σ → σ
  cells_withCells : ∀ values s, cells (withCells values s) = values

/-- What a host runs in place of module bodies. A script may do anything to the state, but cannot
take the value of a cell away. -/
structure Scripts {σ : Type} (store : CellStore σ) where
  script? : ModuleKey → Option (Executor σ)
  keeps : ∀ key script, script? key = some script →
    ∀ x s, (store.cells s).Keeps (store.cells (script x s).2)

/-- The state in which a module's exports are settled. -/
def CellStore.settle {σ : Type} (store : CellStore σ) (x : Execution) (s : σ) : σ :=
  store.withCells (x.settle (store.cells s)) s

namespace Scripts

variable {σ : Type} {store : CellStore σ}

/-- Runs the script of each module, and settles its exports unless it throws. Modules without a
script only have their exports settled. -/
def executor (scripts : Scripts store) : Executor σ := fun x s =>
  match scripts.script? x.key with
  | none => (.ok (), store.settle x s)
  | some script =>
    match script x s with
    | (.ok _, s') => (.ok (), store.settle x s')
    | (.error fault, s') => (.error fault, s')

/-- Settling exports takes no value away. -/
theorem keeps_settle (x : Execution) (s : σ) :
    (store.cells s).Keeps (store.cells (store.settle x s)) := by
  rw [CellStore.settle, store.cells_withCells]
  exact (Cells.settle_spec _ _ _).1

/-- Settling exports leaves each of them with a value. -/
theorem isSome_settle (x : Execution) (s : σ) {name : String} (hname : name ∈ x.body.exportedLocals)
    {cell : Cell} (hcell : x.inst.local? name = some cell) :
    ((store.cells (store.settle x s)).get? cell).isSome := by
  rw [CellStore.settle, store.cells_withCells]
  exact (Cells.settle_spec _ _ _).2 name hname cell hcell

/-- Whatever it answers, a script keeps the values of cells. -/
theorem executor_keeps (scripts : Scripts store) (x : Execution) (s : σ) :
    (store.cells s).Keeps (store.cells (scripts.executor x s).2) := by
  unfold executor
  split
  · exact keeps_settle x s
  · next script hscript =>
      have hkeeps := scripts.keeps _ script hscript x s
      split
      · next s' hresult =>
          rw [hresult] at hkeeps
          exact hkeeps.trans (keeps_settle x s')
      · next fault s' hresult =>
          rw [hresult] at hkeeps
          exact hkeeps

/-- A script that comes to its end leaves the exported locals of its module with values. -/
theorem executor_settles (scripts : Scripts store) {x : Execution} {s : σ}
    (hresult : (scripts.executor x s).1 = .ok ()) {name : String}
    (hname : name ∈ x.body.exportedLocals) {cell : Cell} (hcell : x.inst.local? name = some cell) :
    ((store.cells (scripts.executor x s).2).get? cell).isSome := by
  unfold executor at hresult ⊢
  cases hscript : scripts.script? x.key with
  | none => exact isSome_settle x s hname hcell
  | some script =>
      simp only [hscript] at hresult
      cases hrun : script x s with
      | mk result s' =>
          cases result with
          | ok _ =>
              simp only [hrun]
              exact isSome_settle x s' hname hcell
          | error fault =>
              rw [hrun] at hresult
              cases hresult

end Scripts

/-! ## Actions -/

/-- A computation on a stage that takes the value of no cell away. -/
def KeepsCells {α : Type} (x : StateM Stage α) : Prop :=
  ∀ stage : Stage, stage.cells.Keeps (x.run stage).2.cells

namespace KeepsCells

variable {α β : Type}

/-- A computation that does nothing takes no value away. -/
theorem pure (a : α) : KeepsCells (pure a) :=
  fun _ => .refl

/-- Looking at the stage takes no value away. -/
theorem get : KeepsCells get :=
  fun _ => .refl

/-- Two computations, one after the other, take no value away if neither does. -/
theorem bind {x : StateM Stage α} {f : α → StateM Stage β} (hx : KeepsCells x)
    (hf : ∀ a, KeepsCells (f a)) : KeepsCells (x >>= f) :=
  fun stage => (hx stage).trans (hf _ _)

/-- A step of a script that goes on unless it throws. -/
theorem step {x : ScriptM α} {f : α → ScriptM β} (hx : KeepsCells x.run)
    (hf : ∀ a, KeepsCells (f a).run) : KeepsCells (x >>= f).run := by
  rw [ExceptT.run_bind]
  refine hx.bind fun result => ?_
  cases result with
  | ok a => exact hf a
  | error fault => exact .pure _

/-- A step that may be caught. -/
theorem attempt {x : ScriptM α} {handle : EvalFault → ScriptM α} (hx : KeepsCells x.run)
    (hhandle : ∀ fault, KeepsCells (handle fault).run) : KeepsCells (tryCatch x handle).run := by
  rw [ExceptT.run_tryCatch]
  refine hx.bind fun result => ?_
  cases result with
  | ok a => exact .pure _
  | error fault => exact hhandle fault

/-- Computations for all members of a list take no value away if none does. -/
theorem forM {f : α → ScriptM Unit} (hf : ∀ a, KeepsCells (f a).run) (as : List α) :
    KeepsCells (as.forM f).run := by
  induction as with
  | nil => exact .pure _
  | cons a as ih => exact .step (hf a) fun _ => ih

/-- Computations with results for all members of a list take no value away if none does. -/
theorem mapM {f : α → ScriptM β} (hf : ∀ a, KeepsCells (f a).run) (as : List α) :
    KeepsCells (as.mapM f).run := by
  induction as with
  | nil => exact .pure _
  | cons a as ih =>
      rw [List.mapM_cons]
      exact .step (hf a) fun b => .step ih fun bs => .pure _

/-- A computation on the stage takes no value away as a part of a script. -/
theorem lift {x : StateM Stage α} (hx : KeepsCells x) : KeepsCells (x : ScriptM α).run :=
  hx

/-- A change of the stage takes no value away if it keeps the cells. -/
theorem modify {f : Stage → Stage} (hf : ∀ stage : Stage, stage.cells.Keeps (f stage).cells) :
    KeepsCells (modify f : ScriptM Unit).run :=
  hf

end KeepsCells

namespace Execution

variable {x : Execution}

/-- Reading an import takes no value away. -/
theorem keepsCells_read (name : String) : KeepsCells (x.read name).run := by
  unfold read
  cases x.binding? name with
  | none => exact .pure _
  | some binding =>
      refine .step .get fun stage => ?_
      cases stage.cells.valueOf? binding <;> exact .pure _

/-- Assigning to a local gives its cell another value. -/
theorem keepsCells_assign (name : String) (value : Value) :
    KeepsCells (x.assign name value).run := by
  unfold assign
  split
  · exact .pure _
  · exact .modify fun _ => Cells.keeps_set
  · exact .pure _

end Execution

/-- A literal takes no value away. -/
theorem Literal.keepsCells_eval (home : Option ModuleKey) (value : Literal) :
    KeepsCells (value.eval home) := by
  cases value with
  | function name behaviour => exact fun _ => .refl
  | undefined | null | boolean | number | string => exact .pure _

namespace Function

/-- Counting a cell up takes no value away. -/
theorem keepsCells_bumpCell (cell : Cell) : KeepsCells (bumpCell cell) :=
  fun _ => Cells.keeps_set

/-- Calling a function takes no value away. -/
theorem keepsCells_call (instance? : ModuleKey → Option Instance) (f : Function)
    (arguments : List Value) : KeepsCells (f.call instance? arguments) := by
  unfold call
  split
  · exact fun _ => .refl
  · exact .pure _
  · exact .pure _
  · exact .pure _
  · split
    · next cell _ => exact (keepsCells_bumpCell cell).bind fun _ => .pure _
    · exact .pure _
  · split
    · exact .pure _
    · split
      · exact .pure _
      · refine KeepsCells.get.bind fun stage => ?_
        split <;> exact .pure _

end Function

/-- Calling a value takes no value away. -/
theorem Value.keepsCells_call (instance? : ModuleKey → Option Instance) (value : Value)
    (arguments : List Value) : KeepsCells (value.call instance? arguments) := by
  unfold Value.call
  split
  · next f => exact f.keepsCells_call instance? arguments
  · exact .pure _

/-- Calling an import takes no value away. -/
theorem Execution.keepsCells_call {x : Execution} (name : String) (arguments : List Value) :
    KeepsCells (x.call name arguments).run := by
  unfold Execution.call
  refine .step (x.keepsCells_read name) fun value => ?_
  refine .step (.lift (value.keepsCells_call _ _)) fun result => ?_
  cases result <;> exact .pure _

namespace Action

/-- Writing a line takes no value away. -/
theorem keepsCells_log (line : LogLine) : KeepsCells (log line).run :=
  .modify fun _ => .refl

/-- No action takes a value away. -/
theorem keepsCells_run (x : Execution) (action : Action) : KeepsCells (action.run x).run := by
  induction action with
  | read name => exact .step (x.keepsCells_read name) fun value => keepsCells_log _
  | assign name value =>
      exact .step (.lift (value.keepsCells_eval _)) fun value => x.keepsCells_assign name value
  | copy origin target =>
      exact .step (x.keepsCells_read origin) fun value => x.keepsCells_assign target value
  | call name arguments =>
      refine .step (.mapM (fun a => .lift (a.keepsCells_eval _)) arguments) fun values => ?_
      exact .step (x.keepsCells_call name values) fun value => keepsCells_log _
  | compare left right =>
      exact .step (x.keepsCells_read left) fun a =>
        .step (x.keepsCells_read right) fun b => keepsCells_log _
  | throw message => exact .pure _
  | attempt action ih => exact .attempt ih fun fault => keepsCells_log _
  | settle => exact .modify fun stage => (Cells.settle_spec _ _ _).1
  | about => exact keepsCells_log _
  | source => exact keepsCells_log _
  | exports name =>
      refine .step (x.keepsCells_read name) fun value => ?_
      split
      · split
        · exact .step .get fun stage => keepsCells_log _
        · exact keepsCells_log _
      · exact keepsCells_log _

end Action

/-- The cells of a stage. -/
def Stage.store : CellStore Stage :=
  ⟨Stage.cells, fun cells stage => { stage with cells }, fun _ _ => rfl⟩

namespace Script

/-- The scripts that are lists of actions. -/
def scripts (scripts : List (ModuleKey × List Action)) : Scripts Stage.store where
  script? key := (scripts.lookup key).map fun actions x stage =>
    (actions.forM (Action.run x)).run.run stage
  keeps key script hscript x stage := by
    obtain ⟨actions, -, rfl⟩ := Option.map_eq_some_iff.1 hscript
    exact KeepsCells.forM (fun action => action.keepsCells_run x) actions stage

/-- Actions, and what is done in the end unless one of them throws. -/
theorem run_bind_modify (m : ScriptM Unit) (f : Stage → Stage) (stage : Stage) :
    (m >>= fun _ => modify f).run stage =
      match m.run.run stage with
      | (.ok _, stage') => (.ok (), f stage')
      | (.error fault, stage') => (.error fault, stage') := by
  rw [ExceptT.run_bind]
  show StateT.run (m.run >>= _) stage = _
  rw [StateT.run_bind]
  cases m.run.run stage with
  | mk result stage' => cases result <;> rfl

/-- Running actions is one way of running scripts. -/
theorem executor_eq_scripts (scripts : List (ModuleKey × List Action)) :
    executor scripts = (Script.scripts scripts).executor := by
  funext x stage
  have hscript : (Script.scripts scripts).script? x.key =
      (scripts.lookup x.key).map fun actions x stage =>
        (actions.forM (Action.run x)).run.run stage := rfl
  unfold executor Scripts.executor
  rw [hscript]
  cases scripts.lookup x.key with
  | none => rfl
  | some actions =>
      refine (run_bind_modify (actions.forM (Action.run x)) _ stage).trans ?_
      simp only [Option.map_some]
      cases (actions.forM (Action.run x)).run.run stage with
      | mk result stage' => cases result <;> rfl

end Script

end ModuleGraph
