import Mathlib.Logic.Relation
import ModuleGraph.Exports

/-!
# The graph of re-exports

A node of the graph is a module with a name that is asked of it. A node is a leaf with a target, or
it leads to other nodes: by a renaming to one, by `export *` to the same name of several modules.
`ModuleMap.Offers` says which targets a node leads to, and `followExport_succ` how a search takes
one node.

Only finitely many nodes can be searched: those of a known module with the name that the search
began with or with a name that is imported somewhere. `ModuleMap.room` counts those that are left.
-/

namespace ModuleGraph

/-! ## What is left of a list -/

section Unmet

variable {α : Type} [BEq α] [LawfulBEq α] {as met met' : List α} {a : α}

/-- The more members of a list have been met, the fewer are left. -/
theorem length_unmet_le (h : met ⊆ met') : (as.filter fun a => !met'.contains a).length ≤
    (as.filter fun a => !met.contains a).length := by
  rw [← List.countP_eq_length_filter, ← List.countP_eq_length_filter]
  refine List.countP_mono_left fun a _ ha => ?_
  have hnew : a ∉ met' := by simpa using ha
  simpa using fun hmem => hnew (h hmem)

/-- Fewer members are left unmet when another one is met. -/
theorem length_unmet_cons_lt (ha : a ∈ as) (hnew : a ∉ met) :
    (as.filter fun b => !(a :: met).contains b).length <
      (as.filter fun b => !met.contains b).length := by
  have hfilter : as.filter (fun b => !(a :: met).contains b) =
      (as.filter fun b => !met.contains b).filter (· != a) := by
    rw [List.filter_filter]
    refine List.filter_congr fun b _ => ?_
    rw [List.contains_cons, Bool.not_or]
    rfl
  rw [hfilter]
  refine List.length_filter_lt_length_iff_exists.2 ⟨a, ?_, by simp⟩
  simp [ha, hnew]

end Unmet

/-- A module with a name that is asked of it. -/
abbrev ExportNode := ModuleKey × String

/-- What a node of the graph is. -/
inductive ExportStep where
  | stop
  | leaf (target : ExportTarget)
  | rename (key : ModuleKey) (name : String)
  | stars (modules : List ModuleKey)
deriving DecidableEq, Repr

/-- What a name of a loaded module is: a local export, an indirect export, or what `export *` of
other modules makes of it, unless it is `default`. -/
def LinkView.exportStep (v : LinkView) (key : ModuleKey) (name : String) : ExportStep :=
  match v.localExport? name with
  | some e => .leaf (.binding key e.localName)
  | none =>
    match v.indirectExport? name with
    | some e =>
      match v.dependency? e.request with
      | none => .stop
      | some target =>
        match e.importName with
        | .namespace => .leaf (.namespace target)
        | .name imported => .rename target imported
    | none => if name = "default" then .stop else .stars v.starDependencies

namespace ModuleMap

variable {map map' : ModuleMap} {key target : ModuleKey} {name imported : String}
  {visited visited' : Visited} {node other : ExportNode} {n : Nat}

/-- What a node is. Modules that are not loaded offer nothing. -/
def exportStep (map : ModuleMap) (node : ExportNode) : ExportStep :=
  match map.linkView? node.1 with
  | none => .stop
  | some view => view.exportStep node.1 node.2

/-- The target of a leaf. -/
def exportLeaf? (map : ModuleMap) (node : ExportNode) : Option ExportTarget :=
  match map.exportStep node with
  | .leaf target => some target
  | _ => none

/-- The nodes that a node leads to. -/
def exportEdges (map : ModuleMap) (node : ExportNode) : List ExportNode :=
  match map.exportStep node with
  | .rename key name => [(key, name)]
  | .stars modules => modules.map fun key => (key, node.2)
  | _ => []

/-- One node leads to another. -/
def Leads (map : ModuleMap) : ExportNode → ExportNode → Prop :=
  Relation.ReflTransGen fun node other => other ∈ map.exportEdges node

/-- A node leads to a leaf with the target. -/
def Offers (map : ModuleMap) (node : ExportNode) (target : ExportTarget) : Prop :=
  ∃ leaf, map.Leads node leaf ∧ map.exportLeaf? leaf = some target

/-- A node leads to what the nodes behind it lead to. -/
theorem Offers.of_edge {t : ExportTarget} (hedge : other ∈ map.exportEdges node)
    (h : map.Offers other t) : map.Offers node t := by
  obtain ⟨leaf, hleads, hleaf⟩ := h
  exact ⟨leaf, .head hedge hleads, hleaf⟩

/-- A search takes a node that it has not met before by what the node is. -/
theorem followExport_succ (map : ModuleMap) (n : Nat) (key : ModuleKey) (name : String)
    (visited : Visited) :
    map.followExport (n + 1) key name visited =
      if (key, name) ∈ visited then (.error .circular, visited)
      else
        match map.exportStep (key, name) with
        | .stop => (.error .missing, (key, name) :: visited)
        | .leaf target => (.ok target, (key, name) :: visited)
        | .rename target imported => map.followExport n target imported ((key, name) :: visited)
        | .stars modules => joinAnswers (fun target => map.followExport n target name) modules none
            ((key, name) :: visited) := by
  rw [followExport]
  split
  · rfl
  unfold exportStep LinkView.exportStep
  cases map.linkView? key with
  | none => rfl
  | some view =>
      simp only
      cases view.localExport? name with
      | some e => rfl
      | none =>
          simp only
          cases view.indirectExport? name with
          | none =>
              by_cases hdefault : name = "default" <;> simp [hdefault]
          | some e =>
              simp only
              cases view.dependency? e.request with
              | none => rfl
              | some target => cases e.importName <;> rfl

/-! ## What a search meets -/

/-- What has been met stays met when answers are joined. -/
theorem subset_joinAnswers {ask : ModuleKey → Visited → ExportAnswer × Visited}
    (hask : ∀ key visited, visited ⊆ (ask key visited).2) (modules : List ModuleKey)
    (found : Option ExportTarget) (visited : Visited) :
    visited ⊆ (joinAnswers ask modules found visited).2 := by
  induction modules generalizing found visited with
  | nil => cases found <;> exact List.Subset.refl _
  | cons key modules ih =>
      have hkey := hask key visited
      unfold joinAnswers
      split
      · next hanswer => rw [hanswer] at hkey; exact hkey
      · next hanswer => rw [hanswer] at hkey; exact List.Subset.trans hkey (ih found _)
      · next hanswer =>
          rw [hanswer] at hkey
          split
          · exact List.Subset.trans hkey (ih _ _)
          · split
            · exact List.Subset.trans hkey (ih _ _)
            · exact hkey

/-- A search forgets no node that it has met. -/
theorem subset_followExport (map : ModuleMap) (n : Nat) (key : ModuleKey) (name : String)
    (visited : Visited) : visited ⊆ (map.followExport n key name visited).2 := by
  induction n generalizing key name visited with
  | zero => exact List.Subset.refl _
  | succ n ih =>
      rw [followExport_succ]
      have hcons : visited ⊆ (key, name) :: visited := List.subset_cons_self _ _
      split
      · exact List.Subset.refl _
      · cases map.exportStep (key, name) with
        | stop => exact hcons
        | leaf target => exact hcons
        | rename target imported => exact List.Subset.trans hcons (ih target imported _)
        | stars modules =>
            exact List.Subset.trans hcons
              (subset_joinAnswers (fun target => ih target name) modules none _)

/-! ## The nodes of a search -/

/-- The names that are imported by indirect exports. -/
def importedNames (map : ModuleMap) : List String :=
  map.entries.flatMap fun e =>
    match e.body? with
    | some body => body.indirectExports.filterMap fun e =>
      match e.importName with
      | .name imported => some imported
      | .namespace => none
    | none => []

/-- The nodes that a search for a name can take. -/
def exportNodes (map : ModuleMap) (name : String) : List ExportNode :=
  map.entries.flatMap fun e => (name :: map.importedNames).map fun imported => (e.key, imported)

/-- The number of nodes that a search for a name can still take. -/
def room (map : ModuleMap) (name : String) (visited : Visited) : Nat :=
  ((map.exportNodes name).filter fun node => !visited.contains node).length

/-- No more names are imported than there are indirect exports. -/
theorem length_importedNames_le : map.importedNames.length ≤ map.indirectExportCount := by
  unfold importedNames indirectExportCount
  induction map.entries with
  | nil => simp
  | cons e entries ih =>
      rw [List.flatMap_cons, List.length_append, List.foldr_cons]
      cases e.body? with
      | none => simpa using ih
      | some body => exact Nat.add_le_add (List.length_filterMap_le _ _) ih

/-- The bound of a search exceeds the number of nodes that it can take. -/
theorem room_le_exportBound (map : ModuleMap) (name : String) (visited : Visited) :
    map.room name visited ≤ map.exportBound := by
  have hnodes : (map.exportNodes name).length =
      map.entries.length * (map.importedNames.length + 1) := by
    unfold exportNodes
    simp [List.length_flatMap, List.map_const']
  calc map.room name visited
      ≤ (map.exportNodes name).length := List.length_filter_le _ _
    _ = map.entries.length * (map.importedNames.length + 1) := hnodes
    _ ≤ (map.entries.length + 1) * (map.indirectExportCount + 1) :=
        Nat.mul_le_mul (Nat.le_succ _) (Nat.succ_le_succ length_importedNames_le)

/-- The more has been visited, the less room is left. -/
theorem room_le_room {first : String} (h : visited ⊆ visited') :
    map.room first visited' ≤ map.room first visited :=
  length_unmet_le h

/-- A node that is taken leaves less room. -/
theorem room_cons_lt {first : String} (hnode : node ∈ map.exportNodes first)
    (hnew : node ∉ visited) : map.room first (node :: visited) < map.room first visited :=
  length_unmet_cons_lt hnode hnew

/-- A node that is no dead end can be taken by a search for its name. -/
theorem mem_exportNodes {first : String} (hname : name = first ∨ name ∈ map.importedNames)
    (hview : (map.linkView? key).isSome) : (key, name) ∈ map.exportNodes first := by
  obtain ⟨view, hview⟩ := Option.isSome_iff_exists.1 hview
  obtain ⟨e, he, -⟩ := Option.bind_eq_some_iff.1 hview
  have hkey : e.key = key := by simpa using List.find?_some he
  refine List.mem_flatMap.2 ⟨e, List.mem_of_find?_eq_some he, List.mem_map.2 ⟨name, ?_, ?_⟩⟩
  · exact List.mem_cons.2 hname
  · rw [hkey]

/-- A renaming leads to a name that is imported. -/
theorem mem_importedNames (h : map.exportStep (key, name) = .rename target imported) :
    imported ∈ map.importedNames := by
  unfold exportStep at h
  cases hview : map.linkView? key with
  | none => simp [hview] at h
  | some view =>
      obtain ⟨e, he, hentry⟩ := Option.bind_eq_some_iff.1 hview
      have hbody : e.body? = some view.body := by
        unfold Entry.linkView? at hentry
        split at hentry
        · next hbody =>
            cases hentry
            exact hbody
        · simp at hentry
      simp only [hview, LinkView.exportStep] at h
      split at h
      · simp at h
      split at h
      · next export? hexport =>
          split at h
          · simp at h
          split at h
          · simp at h
          · next hname =>
              cases h
              refine List.mem_flatMap.2 ⟨e, List.mem_of_find?_eq_some he, ?_⟩
              rw [hbody]
              refine List.mem_filterMap.2 ⟨export?, List.mem_of_find?_eq_some hexport, ?_⟩
              rw [hname]
      · split at h <;> simp at h

end ModuleMap

end ModuleGraph
