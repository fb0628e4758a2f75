import ModuleGraph.Proofs.Binding

/-!
# The names that a module offers

`ModuleMap.mem_exportedNames_iff` is the main statement: the names of a module are its own ones and,
except for `default`, those of the modules that `export *` leads to. Every name with a target is
among them (`ModuleMap.mem_exportedNames_of_offers`).

The branches of the traversal share the modules that have been visited, so that the names of a
module are listed by one branch only. No name is lost in this way: all modules that have been
visited since the traversal began pass on what has been visited, and their names have been listed
(`Gathered`).
-/

namespace ModuleGraph

namespace ModuleMap

variable {map : ModuleMap} {key m : ModuleKey} {name : String} {names more : List String}
  {base visited visited' modules : List ModuleKey} {n : Nat}

/-- Adding names leaves out `default`. -/
theorem mem_addNames_iff :
    name ∈ addNames names more ↔ name ∈ names ∨ name ∈ more ∧ name ≠ "default" := by
  unfold addNames
  induction more generalizing names with
  | nil => simp
  | cons first more ih =>
      rw [List.foldl_cons, ih]
      split <;> grind

/-! ## Star exports -/

/-- The names that a module exports itself. -/
def ownNames (map : ModuleMap) (key : ModuleKey) : List String :=
  match map.linkView? key with
  | some view => view.body.exportNames
  | none => []

/-- The modules whose names a module passes on. -/
def starDependencies (map : ModuleMap) (key : ModuleKey) : List ModuleKey :=
  match map.linkView? key with
  | some view => view.starDependencies
  | none => []

/-- One module passes on the names of another one, over any number of steps. -/
def PassesOn (map : ModuleMap) : ModuleKey → ModuleKey → Prop :=
  Relation.ReflTransGen fun key d => d ∈ map.starDependencies key

/-- A name is one of the module's own, or one of those that it passes on. -/
def HasName (map : ModuleMap) (key : ModuleKey) (name : String) : Prop :=
  ∃ m, map.PassesOn key m ∧ (m = key ∨ name ≠ "default") ∧ name ∈ map.ownNames m

/-- A module has its own names. -/
theorem HasName.of_mem (h : name ∈ map.ownNames key) : map.HasName key name :=
  ⟨key, .refl, .inl rfl, h⟩

/-- A module has the names of those that it passes on, except for `default`. -/
theorem HasName.of_starDependency {d : ModuleKey} (hd : d ∈ map.starDependencies key)
    (hname : name ≠ "default") (h : map.HasName d name) : map.HasName key name := by
  obtain ⟨m, hpasses, -, hm⟩ := h
  exact ⟨m, .head hd hpasses, .inr hname, hm⟩

/-- A name that leads anywhere from a module is its own, or comes from the modules whose names it
passes on. -/
theorem exportStep_name (map : ModuleMap) (key : ModuleKey) (name : String) :
    match map.exportStep (key, name) with
    | .stop => True
    | .leaf _ | .rename _ _ => name ∈ map.ownNames key
    | .stars modules => name ≠ "default" ∧ modules = map.starDependencies key := by
  unfold exportStep ownNames starDependencies
  cases map.linkView? key with
  | none => trivial
  | some view =>
      simp only [LinkView.exportStep]
      cases hlocal : view.localExport? name with
      | some e =>
          obtain rfl : e.exportName = name := by simpa using List.find?_some hlocal
          exact List.mem_append_left _ (List.mem_map_of_mem (List.mem_of_find?_eq_some hlocal))
      | none =>
          cases hindirect : view.indirectExport? name with
          | none => by_cases hdefault : name = "default" <;> simp [hdefault]
          | some e =>
              obtain rfl : e.exportName = name := by simpa using List.find?_some hindirect
              have hmem : e.exportName ∈ view.body.exportNames :=
                List.mem_append_right _ (List.mem_map_of_mem (List.mem_of_find?_eq_some hindirect))
              simp only
              cases view.dependency? e.request with
              | none => trivial
              | some target => cases e.importName <;> exact hmem

/-- A module has all names that have a target there. -/
theorem Offers.hasName {node : ExportNode} {t : ExportTarget} (h : map.Offers node t) :
    map.HasName node.1 node.2 := by
  obtain ⟨leaf, hleads, hleaf⟩ := h
  induction hleads using Relation.ReflTransGen.head_induction_on with
  | refl =>
      have hstep := map.exportStep_name leaf.1 leaf.2
      unfold exportLeaf? at hleaf
      split at hleaf
      · next hleaf' =>
          rw [hleaf'] at hstep
          exact .of_mem hstep
      · cases hleaf
  | @head node other hedge _ ih =>
      have hstep := map.exportStep_name node.1 node.2
      unfold exportEdges at hedge
      split at hedge
      · next hrename =>
          rw [hrename] at hstep
          exact .of_mem hstep
      · next hstars =>
          rw [hstars] at hstep
          obtain ⟨hname, rfl⟩ := hstep
          obtain ⟨d, hd, rfl⟩ := List.mem_map.1 hedge
          exact ih.of_starDependency hd hname
      · cases hedge

/-! ## What a traversal visits -/

/-- A traversal takes a module that it has not visited by its own names and what it passes on. -/
theorem followNames_succ (map : ModuleMap) (n : Nat) (key : ModuleKey) (visited : List ModuleKey) :
    map.followNames (n + 1) key visited =
      if key ∈ visited then ([], visited)
      else collectNames (map.followNames n) (map.starDependencies key) (map.ownNames key)
        (key :: visited) := by
  rw [followNames]
  split
  · rfl
  unfold starDependencies ownNames
  cases map.linkView? key <;> rfl

/-- Since the modules `base` had been visited, the names of all modules visited have been listed,
and what these pass on has been visited. -/
structure Gathered (map : ModuleMap) (base visited : List ModuleKey) (names : List String) :
    Prop where
  subset : base ⊆ visited
  passed : ∀ m ∈ visited, m ∉ base → map.starDependencies m ⊆ visited
  listed : ∀ m ∈ visited, m ∉ base → ∀ name ∈ map.ownNames m, name ≠ "default" → name ∈ names

/-- A traversal that has visited nothing more has gathered what it has. -/
theorem Gathered.refl : map.Gathered base base names :=
  ⟨List.Subset.refl _, fun _ hm hnew => absurd hm hnew, fun _ hm hnew => absurd hm hnew⟩

/-- One branch follows another one. -/
theorem Gathered.trans (h : map.Gathered base visited names)
    (h' : map.Gathered visited visited' more) :
    map.Gathered base visited' (addNames names more) := by
  refine ⟨List.Subset.trans h.subset h'.subset, fun m hm hnew => ?_,
    fun m hm hnew name hname hne => ?_⟩
  · by_cases hold : m ∈ visited
    · exact List.Subset.trans (h.passed m hold hnew) h'.subset
    · exact h'.passed m hm hold
  · rw [mem_addNames_iff]
    by_cases hold : m ∈ visited
    · exact .inl (h.listed m hold hnew name hname hne)
    · exact .inr ⟨h'.listed m hm hold name hname hne, hne⟩

/-- The module itself is done, too, once its own names have been listed and what it passes on has
been visited. -/
theorem Gathered.of_cons (h : map.Gathered (key :: base) visited names)
    (hpassed : map.starDependencies key ⊆ visited) (hlisted : map.ownNames key ⊆ names) :
    map.Gathered base visited names := by
  refine ⟨fun m hm => h.subset (List.mem_cons_of_mem key hm), fun m hm hnew => ?_,
    fun m hm hnew name hname hne => ?_⟩
  · by_cases hsame : m = key
    · exact hsame ▸ hpassed
    · exact h.passed m hm (by simp [hsame, hnew])
  · by_cases hsame : m = key
    · exact hlisted (hsame ▸ hname)
    · exact h.listed m hm (by simp [hsame, hnew]) name hname hne

/-- The branches of a module, one after the other. -/
theorem gathered_collectNames (ask : ModuleKey → List ModuleKey → List String × List ModuleKey)
    (invariant : List ModuleKey → Prop)
    (hask : ∀ key visited, invariant visited → invariant (ask key visited).2 ∧
      key ∈ (ask key visited).2 ∧ map.Gathered visited (ask key visited).2 (ask key visited).1)
    (modules : List ModuleKey) (h : invariant visited)
    (hgathered : map.Gathered base visited names) :
    modules ⊆ (collectNames ask modules names visited).2 ∧
      visited ⊆ (collectNames ask modules names visited).2 ∧
      names ⊆ (collectNames ask modules names visited).1 ∧
      map.Gathered base (collectNames ask modules names visited).2
        (collectNames ask modules names visited).1 := by
  induction modules generalizing names visited with
  | nil => exact ⟨List.nil_subset _, List.Subset.refl _, List.Subset.refl _, hgathered⟩
  | cons key modules ih =>
      obtain ⟨hnext, hkey, hbranch⟩ := hask key visited h
      obtain ⟨hmodules, hvisited, hnames, hrest⟩ := ih hnext (hgathered.trans hbranch)
      rw [collectNames]
      refine ⟨List.cons_subset.2 ⟨hvisited hkey, hmodules⟩,
        List.Subset.trans hbranch.subset hvisited, fun name hname => ?_, hrest⟩
      exact hnames (mem_addNames_iff.2 (.inl hname))

/-! ## The bound of a traversal -/

/-- The number of known modules that have not been visited. -/
def unvisited (map : ModuleMap) (visited : List ModuleKey) : Nat :=
  ((map.entries.map Entry.key).filter fun key => !visited.contains key).length

/-- Fewer known modules are unvisited when another one is visited. -/
theorem unvisited_cons_lt (hview : (map.linkView? key).isSome) (hnew : key ∉ visited) :
    map.unvisited (key :: visited) < map.unvisited visited := by
  obtain ⟨view, hview⟩ := Option.isSome_iff_exists.1 hview
  obtain ⟨e, he, -⟩ := Option.bind_eq_some_iff.1 hview
  obtain rfl : e.key = key := by simpa using List.find?_some he
  exact length_unmet_cons_lt (List.mem_map_of_mem (List.mem_of_find?_eq_some he)) hnew

/-- A traversal that has room enough visits its module and lists the names of what it visits. -/
theorem gathered_followNames (key : ModuleKey) (hroom : map.unvisited visited < n) :
    key ∈ (map.followNames n key visited).2 ∧
      (key ∉ visited → map.ownNames key ⊆ (map.followNames n key visited).1) ∧
      map.Gathered visited (map.followNames n key visited).2 (map.followNames n key visited).1 := by
  induction n generalizing key visited with
  | zero => exact absurd hroom (Nat.not_lt_zero _)
  | succ n ih =>
      rw [followNames_succ]
      split
      · next hmem => exact ⟨hmem, fun hnew => absurd hmem hnew, .refl⟩
      next hnew =>
      suffices hbranches : map.starDependencies key ⊆ _ ∧ key :: visited ⊆ _ ∧
          map.ownNames key ⊆ _ ∧ map.Gathered (key :: visited) _ _ by
        obtain ⟨hmodules, hvisited, hnames, hgathered⟩ := hbranches
        exact ⟨hvisited (List.mem_cons_self ..), fun _ => hnames, hgathered.of_cons hmodules hnames⟩
      cases hview : map.linkView? key with
      | none =>
          -- an unknown module takes no room, but leads nowhere either
          simp only [starDependencies, ownNames, hview, collectNames]
          exact ⟨List.nil_subset _, List.Subset.refl _, List.nil_subset _, .refl⟩
      | some view =>
          have hless := unvisited_cons_lt (Option.isSome_of_eq_some hview) hnew
          refine gathered_collectNames (map.followNames n) (map.unvisited · < n)
            (fun k v hv => ?_) (map.starDependencies key) (by omega) .refl
          obtain ⟨hk, -, hgathered⟩ := ih k hv
          exact ⟨Nat.lt_of_le_of_lt (length_unmet_le hgathered.subset) hv, hk, hgathered⟩

/-! ## What a traversal lists -/

/-- A collected name was there before, or is one that a module has been asked for. -/
theorem mem_collectNames {ask : ModuleKey → List ModuleKey → List String × List ModuleKey}
    (h : name ∈ (collectNames ask modules names visited).1) :
    name ∈ names ∨ name ≠ "default" ∧ ∃ m ∈ modules, ∃ visited, name ∈ (ask m visited).1 := by
  induction modules generalizing names visited with
  | nil => exact .inl h
  | cons key modules ih =>
      rw [collectNames] at h
      rcases ih h with hnames | ⟨hname, m, hm, hask⟩
      · rcases mem_addNames_iff.1 hnames with hold | ⟨hmore, hname⟩
        · exact .inl hold
        · exact .inr ⟨hname, key, List.mem_cons_self .., visited, hmore⟩
      · exact .inr ⟨hname, m, List.mem_cons_of_mem key hm, hask⟩

/-- A traversal lists names that its module has only. -/
theorem hasName_of_mem_followNames (h : name ∈ (map.followNames n key visited).1) :
    map.HasName key name := by
  induction n generalizing key visited with
  | zero => cases h
  | succ n ih =>
      rw [followNames_succ] at h
      split at h
      · cases h
      · rcases mem_collectNames h with hown | ⟨hname, m, hm, _, hask⟩
        · exact .of_mem hown
        · exact (ih hask).of_starDependency hm hname

/-- Listed are the names that a module exports itself, and those that it passes on from modules that
`export *` leads to, whatever way there is. -/
theorem mem_exportedNames_iff : name ∈ map.exportedNames key ↔ map.HasName key name := by
  refine ⟨hasName_of_mem_followNames, fun ⟨m, hpasses, hname, hm⟩ => ?_⟩
  have hroom : map.unvisited [] < map.entries.length + 1 := by
    have hlength := List.length_filter_le (fun k => !([] : List ModuleKey).contains k)
      (map.entries.map Entry.key)
    rw [List.length_map] at hlength
    exact Nat.lt_succ_of_le hlength
  obtain ⟨hkey, hown, hgathered⟩ := gathered_followNames key hroom
  -- nothing had been visited before, so that what has been visited is closed under `export *`
  have hvisited : ∀ m, map.PassesOn key m →
      m ∈ (map.followNames (map.entries.length + 1) key []).2 := by
    intro m hpasses
    induction hpasses with
    | refl => exact hkey
    | tail _ hedge ih => exact hgathered.passed _ ih (List.not_mem_nil) hedge
  rcases hname with rfl | hname
  · exact hown (List.not_mem_nil) hm
  · exact hgathered.listed m (hvisited m hpasses) (List.not_mem_nil) name hm hname

/-- All names that have a target are listed. -/
theorem mem_exportedNames_of_offers {t : ExportTarget} (h : map.Offers (key, name) t) :
    name ∈ map.exportedNames key :=
  mem_exportedNames_iff.2 h.hasName

end ModuleMap

end ModuleGraph
