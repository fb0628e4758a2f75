import ModuleGraph.Proofs.Fetching
import ModuleGraph.Proofs.LastingProgress

/-!
# What instantiation and evaluation change

Instantiation moves loaded modules only, evaluation moves instantiated ones, and both move only what
their root depends on (`ModuleMap.Moves`). This holds of calls that fail, too: what fails is taken
from the modules that have been collected, or from the stack of the walk, and the root depends on
both. What a loaded module depends on is what it leads to in the import graph, so that nothing else
is concerned (`Catalog.Confined`).
-/

namespace ModuleGraph

/-- What has been found out of a module is still so: its declaration, its dependencies, its instance
and its failure, each if it was there. -/
structure Entry.Retains (e e' : Entry) : Prop where
  declaration : ∀ declaration, e.declaration = some declaration →
    e'.declaration = some declaration
  dependencies : ∀ dependencies, e.progress.dependencies? = some dependencies →
    e'.progress.dependencies? = some dependencies
  inst : ∀ i, e.instance? = some i → e'.instance? = some i
  failure : ∀ failure, e.failure = some failure → e'.failure = some failure

/-- An entry that is the same retains what it has. -/
theorem Entry.Retains.refl {e : Entry} : e.Retains e :=
  ⟨fun _ h => h, fun _ h => h, fun _ h => h, fun _ h => h⟩

/-- What is retained in two steps is retained in both. -/
theorem Entry.Retains.trans {e e' e'' : Entry} (h : e.Retains e') (h' : e'.Retains e'') :
    e.Retains e'' where
  declaration d hd := h'.declaration d (h.declaration d hd)
  dependencies ds hds := h'.dependencies ds (h.dependencies ds hds)
  inst i hi := h'.inst i (h.inst i hi)
  failure failure hfailure := h'.failure failure (h.failure failure hfailure)

/-- Only modules on which a root depends have moved, each from a status in which it may move. -/
def ModuleMap.Moves (map : ModuleMap) (movable : Status → Prop) (root : ModuleKey)
    (map' : ModuleMap) : Prop :=
  ∀ m, (map.entry m).Stays (map'.entry m) ∨
    movable (map.entry m).status ∧ map.DependsOn root m

namespace ModuleMap

variable {map map' : ModuleMap} {movable : Status → Prop} {root key : ModuleKey}

/-- Nothing has moved in a map that is the same. -/
theorem Moves.refl : map.Moves movable root map :=
  fun _ => .inl (.of_eq rfl)

/-- Several modules on which the root depends change together. -/
theorem Moves.of_altersAll {keys : List ModuleKey} {change : Entry → Entry → Prop}
    (h : map.AltersAll keys change map')
    (hkeys : ∀ k ∈ keys, movable (map.entry k).status ∧ map.DependsOn root k) :
    map.Moves movable root map' := by
  intro m
  by_cases hm : m ∈ keys
  · exact .inr (hkeys m hm)
  · exact .inl (.of_eq (h.kept m hm))

/-- Instantiating moves loaded modules on which the module depends, and no others. -/
theorem ends_instantiate_moves (map : ModuleMap) (round : Nat) (key : ModuleKey) :
    Ends (ModuleMap.instantiate round key) map
      (fun _ map' => map.Moves (· = .loaded) key map')
      fun _ map' => map.Moves (· = .loaded) key map' := by
  refine (map.ends_instantiate round key).mono ?_ ?_
  · intro i map' hend
    rcases hend with ⟨rfl, -⟩ | ⟨hready, c, fresh, linked, hcompletes⟩
    · exact .refl
    · obtain ⟨hinv, -, -, hreached⟩ := (ends_collect_first hready).of_ok hcompletes.collected
      refine .of_altersAll hcompletes.altered fun k hk => ?_
      exact ⟨hinv.ready k (hinv.order_visited hk), hreached k (hinv.order_visited hk)⟩
  · intro halt map' hend
    obtain ⟨fault, -, ⟨rfl, -⟩ | ⟨hready, hrejects⟩⟩ := hend
    · exact .refl
    have hcollect := ends_collect_first hready
    cases hrejects with
    | stuck hresult halters =>
        have hstuck := hcollect.of_error hresult
        refine .of_altersAll halters fun k hk => ?_
        have hvisited := (dependents_sublist map _ _).subset hk
        exact ⟨hstuck.inv.ready k hvisited, (hstuck.reached k hvisited).resolve_left (by simp)⟩
    | bodiless => exact .refl
    | unlinked hresult _ _ _ halters =>
        obtain ⟨hinv, -, -, hreached⟩ := hcollect.of_ok hresult
        refine .of_altersAll halters fun k hk => ?_
        have hvisited := (dependents_sublist map _ _).subset hk
        exact ⟨hinv.ready k hvisited, hreached k hvisited⟩

end ModuleMap

namespace EvalM

variable {σ : Type} {execute : Executor σ} {s e e' : Evaluator σ} {root k : ModuleKey}
  {fault : EvalFault}

/-- What waits was instantiated when the walk began. -/
theorem Inv.instantiated_of_waits (h : Inv s root e) (hk : k ∈ e.stack) :
    (s.map.entry k).status = .instantiated := by
  rcases h.moved k with hsame | hmoved
  · exact hsame ▸ h.waiting k hk
  · exact hmoved.1

/-- A walk moves instantiated modules on which its root depends, and no others. -/
theorem Inv.moves (h : Inv s root e) : s.map.Moves (· = .instantiated) root e.map :=
  fun k => (h.moved k).imp .of_eq fun hk => ⟨hk.1, h.reached k (.inr hk.2)⟩

/-- So does a walk that is abandoned. -/
theorem Abandons.moves (h : Abandons s execute root fault e e') :
    s.map.Moves (· = .instantiated) root e'.map := by
  intro k
  by_cases hk : k ∈ e.stack
  · exact .inr ⟨h.inv.instantiated_of_waits hk, h.inv.reached k (.inl hk)⟩
  · rw [h.altered.kept k hk]
    exact h.inv.moves k

end EvalM

namespace Catalog

variable {importMap : ImportMap} {fetch : Fetcher} {c : Catalog} {map : ModuleMap}
  {movable : Status → Prop} {root m : ModuleKey}

/-- A module leads to what it depends on. -/
theorem Sound.reaches_of_dependsOn (h : c.Sound importMap) (hfetch : c.AnsweredBy fetch)
    (hdepends : c.map.DependsOn root m) : fetch.Reaches importMap root m := by
  induction hdepends with
  | refl => exact .refl
  | @tail a b _ hb ih =>
      have hloaded := ModuleMap.dependencies?_of_isLoaded (Entry.isLoaded_of_mem_dependencies hb)
      obtain ⟨hdependencies, -⟩ := (h.loads fetch hfetch).loaded a _ hloaded
      exact ih.tail ⟨_, hdependencies, hb⟩

/-- Steps with modules on which the root depends concern only what the root leads to. -/
theorem Sound.confined_of_moves (h : c.Sound importMap) (hfetch : c.AnsweredBy fetch)
    (hmoves : c.map.Moves movable root map) :
    c.Confined importMap fetch movable root { c with map } :=
  ⟨.of_eq rfl, fun m => (hmoves m).imp id fun hm => ⟨hm.1, h.reaches_of_dependsOn hfetch hm.2⟩⟩

/-- What is known of a module in one catalog is known of it in one that has come from there without
loss. -/
theorem Sound.retains {library : Library} {c' : Catalog} (h : c.Sound importMap)
    (h' : c'.Sound importMap) (hasks : c.Asks library c') (hlasts : c.map.Lasts c'.map)
    (m : ModuleKey) : (c.map.entry m).Retains (c'.map.entry m) where
  declaration declaration hdeclaration := by
    rw [h.declared m, Catalog.declaration?] at hdeclaration
    split at hdeclaration
    · next resource hanswer =>
        rw [h'.declared m, Catalog.declaration?, hasks.answer? hanswer]
        exact hdeclaration
    · cases hdeclaration
  dependencies dependencies hdependencies := by
    have hloaded : (c.map.entry m).isLoaded := Option.isSome_of_eq_some hdependencies
    rw [hlasts.loaded.dependencies m hloaded, hdependencies]
  inst := hlasts.instances m
  failure := hlasts.failures m

end Catalog

end ModuleGraph
