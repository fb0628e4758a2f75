import ModuleGraph.Proofs.RealmRuns

/-!
# What loaded modules depend on

A realm never loads a module that depends on something it may not import, however calls are mixed:
also not when the host has loaded that something by its key before. `Reached.dependencies_visible`
is the statement. It reads off the map what `ModuleMap.LoadSound` says of the import graph.
-/

namespace ModuleGraph

/-- Only the top-level module of a resource is declared without being a fragment. -/
theorem Resource.exists_fragment {resource : Resource} {path : FragmentPath}
    {declaration : Declaration} (hpath : path ≠ [])
    (h : resource.declaration? path = some declaration) : ∃ f, declaration = .fragment f := by
  unfold declaration? at h
  rw [if_neg (by simpa using hpath)] at h
  obtain ⟨f, -, rfl⟩ := Option.map_eq_some_iff.1 h
  exact ⟨f, rfl⟩

/-- The keys on a path are those of fragments. -/
theorem ModuleKey.path_ne_nil_of_mem_ancestry {key ancestor : ModuleKey}
    (h : ancestor ∈ key.ancestry) : ancestor.path ≠ [] := by
  obtain ⟨n, hn, rfl⟩ := List.mem_map.1 h
  have hlength : 0 < key.path.length := Nat.lt_of_le_of_lt (Nat.zero_le n) (List.mem_range.1 hn)
  intro hnil
  rcases List.take_eq_nil_iff.1 hnil with h | h
  · exact Nat.succ_ne_zero n h
  · rw [h] at hlength
    exact Nat.lt_irrefl 0 hlength

/-- What is exported along its whole path is a fragment that is marked as exported at each step. -/
theorem Fetcher.Exports.exists_fragment {fetch : Fetcher} {key ancestor : ModuleKey}
    (h : fetch.Exports key) (hancestor : ancestor ∈ key.ancestry) :
    ∃ f : Fragment, fetch.declaration? ancestor = some (.fragment f) ∧ f.exported := by
  have hexported := h ancestor hancestor
  obtain ⟨declaration, hdeclaration, hmarked⟩ := (Option.any_eq_true _ _).1 hexported
  have hpath := ModuleKey.path_ne_nil_of_mem_ancestry hancestor
  have hresource := hdeclaration
  unfold Fetcher.declaration? at hresource
  cases hanswer : fetch ancestor.url with
  | error fault => simp [hanswer] at hresource
  | ok resource =>
      rw [hanswer] at hresource
      obtain ⟨f, rfl⟩ := Resource.exists_fragment hpath hresource
      exact ⟨f, hdeclaration, hmarked⟩

namespace Catalog

variable {importMap : ImportMap} {c : Catalog} {key d : ModuleKey}

/-- What a module depends on is declared, is no inline module, and is exported along its whole path
if it is of another resource. -/
theorem Sound.dependency_visible (h : c.Sound importMap)
    (hd : d ∈ (c.map.entry key).dependencies) :
    ∃ declaration, (c.map.entry d).declaration = some declaration ∧
      declaration.form? ≠ some .inline ∧
      (d.url ≠ key.url → ∀ ancestor ∈ d.ancestry,
        ∃ f : Fragment, (c.map.entry ancestor).declaration = some (.fragment f) ∧ f.exported) := by
  obtain ⟨fetch, hfetch⟩ := c.exists_answeredBy
  have hkey := Entry.isLoaded_of_mem_dependencies hd
  obtain ⟨-, htargets⟩ :=
    (h.loads fetch hfetch).loaded key _ (ModuleMap.dependencies?_of_isLoaded hkey)
  obtain ⟨hloaded, hallowed⟩ := htargets d hd
  obtain ⟨hdeclares, declaration, hdeclaration⟩ := h.declaration_of_isLoaded hfetch hloaded
  have hgraph : fetch.declaration? d = some declaration := (hdeclares d rfl).symm.trans hdeclaration
  refine ⟨declaration, hdeclaration, fun hinline => ?_, fun hurl ancestor hancestor => ?_⟩
  · exact hallowed ⟨declaration, hgraph, .inl hinline⟩
  · have hexports : fetch.Exports d := by
      by_contra hhidden
      exact hallowed ⟨declaration, hgraph, .inr ⟨hurl, hhidden⟩⟩
    obtain ⟨f, hf, hmarked⟩ := hexports.exists_fragment hancestor
    rw [hdeclares ancestor (ModuleKey.url_of_mem_ancestry hancestor)]
    exact ⟨f, hf, hmarked⟩

end Catalog

namespace Realm

variable {σ : Type} {h : Host σ} {r : Realm σ}

/-- No loaded module depends on an inline module, or on a fragment of another resource that is not
exported along its whole path. -/
theorem Reached.dependencies_visible (hr : Reached h r) :
    ∀ e ∈ r.map.entries, e.isLoaded → ∀ d ∈ e.dependencies,
      ∃ target declaration, r.map.get? d = some target ∧
        target.declaration = some declaration ∧ declaration.form? ≠ some .inline ∧
        (d.url ≠ e.key.url → r.map.isVisible d ∧ ∀ ancestor ∈ d.ancestry, ∃ enclosing f,
          r.map.get? ancestor = some enclosing ∧ enclosing.declaration = some (.fragment f) ∧
            f.exported) := by
  intro e he _ d hd
  obtain ⟨-, hentry⟩ := hr.mem_entries_iff.1 he
  rw [← hentry] at hd
  obtain ⟨declaration, hdeclaration, hform, hvisible⟩ := hr.sound.dependency_visible hd
  -- what has a declaration has an entry
  have hget : ∀ k declaration, (r.map.entry k).declaration = some declaration →
      r.map.get? k = some (r.map.entry k) := by
    intro k declaration hk
    refine ModuleMap.get?_eq_some_entry ?_
    by_contra hunknown
    simp [ModuleMap.entry_of_not_isKnown hunknown, Entry.ofKey] at hk
  refine ⟨_, declaration, hget d _ hdeclaration, hdeclaration, hform, fun hurl => ⟨?_, ?_⟩⟩
  · rw [ModuleMap.isVisible, List.all_eq_true]
    intro ancestor hancestor
    obtain ⟨f, hf, hmarked⟩ := hvisible hurl ancestor hancestor
    have hf' : (r.map.entry ancestor).declaration = some (.fragment f) := hf
    rw [ModuleMap.isExported_eq, hf']
    exact hmarked
  · intro ancestor hancestor
    obtain ⟨f, hf, hmarked⟩ := hvisible hurl ancestor hancestor
    exact ⟨_, f, hget ancestor _ hf, hf, hmarked⟩

/-! ## A library with a hidden fragment -/

/-- The address of a resource with exported and hidden fragments. -/
def sharedUrl : Url :=
  ⟨"file", none, .segments ["shared.js"], none, none⟩

instance : sharedUrl.IsBare :=
  ⟨rfl⟩

/-- A body that declares nothing but fragments. -/
def quietBody (scope : Scope) : Body :=
  ⟨[], [], [], [], [], scope, ""⟩

/-- A resource whose fragment `outer/inner` is exported at both steps, while `hidden` is not. -/
def sharedResource : Resource :=
  ⟨quietBody [("outer", ["outer"]), ("hidden", ["hidden"])],
    [⟨some "outer", ["outer"], true, .importable, quietBody [("inner", ["outer", "inner"])],
        ⟨0, 0⟩⟩,
      ⟨some "inner", ["outer", "inner"], true, .importable, quietBody [], ⟨0, 0⟩⟩,
      ⟨some "hidden", ["hidden"], false, .importable, quietBody [], ⟨0, 0⟩⟩]⟩

/-- A resource that requests one module. -/
def requestingResource (request : String) : Resource :=
  ⟨⟨[.url request], [], [], [], [], [], ""⟩, []⟩

/-- A host that knows both resources. -/
def sharingHost (request : String) : Host Unit :=
  ⟨cyclicUrl, ImportMap.empty,
    ⟨[(cyclicUrl, .ok (requestingResource request)), (sharedUrl, .ok sharedResource)],
      fun url => .notFound url.text⟩,
    fun _ host => (.ok (), host)⟩

/-- The realm that has loaded the hidden fragment by its key, and then a module that requests a
fragment of the same resource. -/
def sharingRealm (request : String) : Realm Unit :=
  Call.afterAll (sharingHost request) [.loadKey ⟨sharedUrl, ["hidden"]⟩, .loadKey ⟨cyclicUrl, []⟩]
    (fresh ())

/-- The realm is reached by these calls, whatever is requested. -/
theorem reached_sharingRealm (request : String) :
    Reached (sharingHost request) (sharingRealm request) :=
  .afterAll _ (.fresh ())

/-- The exported fragment is visible to the importer; the hidden one is not, though it has been
loaded. -/
theorem dependencies_visible_sharing :
    Reached (sharingHost "./shared.js#outer/inner") (sharingRealm "./shared.js#outer/inner") ∧
      ∃ e ∈ (sharingRealm "./shared.js#outer/inner").map.entries, e.isLoaded ∧
        ⟨sharedUrl, ["outer", "inner"]⟩ ∈ e.dependencies ∧ sharedUrl ≠ e.key.url ∧
        (sharingRealm "./shared.js#outer/inner").map.isVisible ⟨sharedUrl, ["outer", "inner"]⟩ ∧
        ¬ (sharingRealm "./shared.js#outer/inner").map.isVisible ⟨sharedUrl, ["hidden"]⟩ := by
  have hreached := reached_sharingRealm "./shared.js#outer/inner"
  refine ⟨hreached, (sharingRealm "./shared.js#outer/inner").map.entry ⟨cyclicUrl, []⟩,
    by decide +kernel, by decide +kernel, by decide +kernel, by decide +kernel, ?_,
    by decide +kernel⟩
  obtain ⟨-, -, -, -, -, hvisible⟩ := hreached.dependencies_visible
    ((sharingRealm "./shared.js#outer/inner").map.entry ⟨cyclicUrl, []⟩) (by decide +kernel)
    (by decide +kernel) ⟨sharedUrl, ["outer", "inner"]⟩ (by decide +kernel)
  exact (hvisible (by decide +kernel)).1

-- The hidden fragment has been loaded before, and is refused nevertheless.
example : (sharingRealm "./shared.js#hidden").map.status? ⟨cyclicUrl, []⟩ = some .failed := by
  decide +kernel

end Realm

end ModuleGraph
