import ModuleGraph.Loading
import ModuleGraph.Proofs.Catalogs

/-!
# What loading leaves in the map

`ModuleMap.LoadSound` says that a map agrees with the import graph: a loaded module has all its
dependencies loaded and may import them, and a module that failed to load leads to the faulty module
that its fault names. `LoadSound.not_faulty_of_reaches` is what this says of the graph.

Each lemma below says of one kind of change to a map that it keeps the agreement.
-/

namespace ModuleGraph

namespace ModuleMap

/-- What the map says of loading agrees with the import graph. -/
structure LoadSound (importMap : ImportMap) (fetch : Fetcher) (map : ModuleMap) : Prop where
  loaded : ∀ key dependencies, (map.entry key).progress.dependencies? = some dependencies →
    fetch.dependencies? importMap key = some dependencies ∧
      ∀ d ∈ dependencies, (map.entry d).isLoaded ∧ ¬ fetch.Barred key d
  raised : ∀ key fault, (map.entry key).failure = some (.load fault) →
    (map.entry key).isLoaded = false ∧ fetch.Raises importMap fault ∧
      fetch.Reaches importMap key fault.key ∧
      (map.entry fault.key).failure = some (.load fault)
  cause : ∀ key failure, (map.entry key).failure = some failure →
    (map.entry key).isLoaded = false → ∃ fault, failure = .load fault

variable {importMap : ImportMap} {fetch : Fetcher} {map map' : ModuleMap} {key target : ModuleKey}

/-- A loaded module has its dependencies. -/
theorem dependencies?_of_isLoaded {e : Entry} (h : e.isLoaded) :
    e.progress.dependencies? = some e.dependencies := by
  obtain ⟨dependencies, hdependencies⟩ := Option.isSome_iff_exists.1 h
  rw [Entry.dependencies, hdependencies, Option.getD_some]

namespace LoadSound

/-- A map in which nothing has been loaded and nothing has failed agrees with every graph. -/
theorem empty : LoadSound importMap fetch ModuleMap.empty := by
  have hentry : ∀ k, ModuleMap.empty.entry k = Entry.ofKey k := fun _ => rfl
  constructor <;> intro k <;> rw [hentry] <;>
    simp [Entry.ofKey, Progress.dependencies?]

/-- All that a loaded module leads to is loaded. -/
theorem isLoaded_of_reaches (h : LoadSound importMap fetch map) (hkey : (map.entry key).isLoaded)
    (hreaches : fetch.Reaches importMap key target) : (map.entry target).isLoaded := by
  induction hreaches with
  | refl => exact hkey
  | tail _ himports ih =>
      obtain ⟨hfetch, htargets⟩ := h.loaded _ _ (dependencies?_of_isLoaded ih)
      obtain ⟨dependencies, hdependencies, hmem⟩ := himports
      obtain rfl := Option.some.inj (hfetch.symm.trans hdependencies)
      exact (htargets _ hmem).1

/-- A loaded module leads to no faulty one. -/
theorem not_faulty_of_reaches (h : LoadSound importMap fetch map)
    (hkey : (map.entry key).isLoaded) (hreaches : fetch.Reaches importMap key target) :
    ¬ fetch.Faulty importMap target := by
  have hloaded := h.isLoaded_of_reaches hkey hreaches
  obtain ⟨hfetch, htargets⟩ := h.loaded _ _ (dependencies?_of_isLoaded hloaded)
  exact Fetcher.not_faulty hfetch fun d hd => (htargets d hd).2

/-- A module that failed to load leads to the faulty module of its fault. -/
theorem failed (h : LoadSound importMap fetch map) (key : ModuleKey) (fault : LoadFault)
    (hfailure : (map.entry key).failure = some (.load fault)) :
    (map.entry key).isLoaded = false ∧ fetch.Faulty importMap fault.key ∧
      fetch.Reaches importMap key fault.key ∧
      (map.entry fault.key).failure = some (.load fault) := by
  obtain ⟨hunloaded, hraises, hreaches, hrecord⟩ := h.raised key fault hfailure
  exact ⟨hunloaded, hraises.faulty, hreaches, hrecord⟩

/-- A module that has failed and is not loaded failed to load. -/
theorem exists_fault (h : LoadSound importMap fetch map)
    (hfailed : (map.entry key).status = .failed) (hkey : (map.entry key).isLoaded = false) :
    ∃ fault, (map.entry key).failure = some (.load fault) := by
  obtain ⟨failure, hfailure⟩ := Option.isSome_iff_exists.1 (Entry.status_eq_failed_iff.1 hfailed)
  obtain ⟨fault, rfl⟩ := h.cause key failure hfailure hkey
  exact ⟨fault, hfailure⟩

/-- The agreement is about dependencies and faults only, and what fails after it has been loaded is
not a matter of it. -/
theorem of_eq (h : LoadSound importMap fetch map)
    (hdependencies : ∀ k,
      (map'.entry k).progress.dependencies? = (map.entry k).progress.dependencies?)
    (hfailure : ∀ k, (map'.entry k).failure = (map.entry k).failure ∨
      (map.entry k).isLoaded ∧ ∀ fault, (map'.entry k).failure ≠ some (.load fault)) :
    LoadSound importMap fetch map' := by
  have hloaded : ∀ k, (map'.entry k).isLoaded = (map.entry k).isLoaded := by
    intro k
    rw [Entry.isLoaded, hdependencies k, Entry.isLoaded]
  constructor
  case loaded =>
    intro k dependencies hk
    rw [hdependencies] at hk
    obtain ⟨hfetch, htargets⟩ := h.loaded k dependencies hk
    exact ⟨hfetch, fun d hd => ⟨(hloaded d).trans (htargets d hd).1, (htargets d hd).2⟩⟩
  case raised =>
    intro k fault hk
    rcases hfailure k with hsame | ⟨-, hother⟩
    · obtain ⟨hunloaded, hraises, hreaches, hrecord⟩ := h.raised k fault (hsame ▸ hk)
      refine ⟨(hloaded k).trans hunloaded, hraises, hreaches, ?_⟩
      rcases hfailure fault.key with hrecord' | ⟨hwas, -⟩
      · exact hrecord'.trans hrecord
      · have hnot := (h.raised _ _ hrecord).1
        rw [hwas] at hnot
        simp at hnot
    · exact absurd hk (hother fault)
  case cause =>
    intro k failure hk hunloaded
    rw [hloaded] at hunloaded
    rcases hfailure k with hsame | ⟨hwas, -⟩
    · exact h.cause k failure (hsame ▸ hk) hunloaded
    · rw [hwas] at hunloaded
      simp at hunloaded

/-- A module fails to load: with a fault of its own, or with that of a faulty module to which it
leads and which has failed before. -/
theorem fail (h : LoadSound importMap fetch map) {fault : LoadFault}
    (halters : map.Alters key (fun e => { e with failure := some (.load fault) }) map')
    (hunfailed : (map.entry key).failure = none) (hunloaded : (map.entry key).isLoaded = false)
    (hraises : fetch.Raises importMap fault) (hreaches : fetch.Reaches importMap key fault.key)
    (hrecord : fault.key = key ∨ (map.entry fault.key).failure = some (.load fault)) :
    LoadSound importMap fetch map' := by
  have hprogress : ∀ k, (map'.entry k).progress = (map.entry k).progress := by
    intro k
    rw [halters.entry]
    split <;> rfl
  have hkey : (map'.entry key).failure = some (.load fault) := by rw [halters.entry, if_pos rfl]
  have hother : ∀ k, k ≠ key → (map'.entry k).failure = (map.entry k).failure := by
    intro k hk
    rw [halters.entry, if_neg hk]
  constructor
  case loaded =>
    intro k dependencies hk
    simp only [hprogress, Entry.isLoaded] at hk ⊢
    exact h.loaded k dependencies hk
  case raised =>
    intro k fault' hk
    rw [Entry.isLoaded, hprogress]
    by_cases hsame : k = key
    · rw [hsame, hkey] at hk
      cases hk
      rw [hsame]
      refine ⟨hunloaded, hraises, hreaches, ?_⟩
      by_cases hown : fault.key = key
      · rw [hown, hkey]
      · rw [hother _ hown]
        exact hrecord.resolve_left hown
    · rw [hother k hsame] at hk
      obtain ⟨hunloaded', hraises', hreaches', hrecord'⟩ := h.raised k fault' hk
      refine ⟨hunloaded', hraises', hreaches', ?_⟩
      rw [hother, hrecord']
      -- no fault is recorded with `key`, since it has not failed before
      rintro hown
      simp [hown, hunfailed] at hrecord'
  case cause =>
    intro k failure hk hk'
    rw [Entry.isLoaded, hprogress] at hk'
    by_cases hsame : k = key
    · rw [hsame, hkey] at hk
      exact ⟨fault, (Option.some.inj hk).symm⟩
    · rw [hother k hsame] at hk
      exact h.cause k failure hk hk'

/-- Modules are loaded together: each dependency of one of them has been loaded before, or is one of
them. -/
theorem load (h : LoadSound importMap fetch map) {members : List ModuleKey}
    {dependencies : ModuleKey → List ModuleKey}
    (hself : ∀ k ∈ members,
      map'.entry k = { map.entry k with progress := .loaded (dependencies k) })
    (hother : ∀ k, k ∉ members → map'.entry k = map.entry k)
    (hunfailed : ∀ k ∈ members, (map.entry k).failure = none)
    (hfetch : ∀ k ∈ members, fetch.dependencies? importMap k = some (dependencies k))
    (htargets : ∀ k ∈ members, ∀ d ∈ dependencies k,
      ((map.entry d).isLoaded ∨ d ∈ members) ∧ ¬ fetch.Barred k d) :
    LoadSound importMap fetch map' := by
  have hloaded : ∀ k, (map'.entry k).isLoaded ↔ (map.entry k).isLoaded ∨ k ∈ members := by
    intro k
    by_cases hk : k ∈ members
    · simp [hself k hk, hk, Entry.isLoaded, Progress.dependencies?]
    · simp [hother k hk, hk]
  have hfailure : ∀ k, (map'.entry k).failure = (map.entry k).failure := by
    intro k
    by_cases hk : k ∈ members
    · rw [hself k hk]
    · rw [hother k hk]
  -- what has failed is not among the members, so that its entry is kept
  have hunloaded : ∀ k failure, (map.entry k).failure = some failure → k ∉ members := by
    intro k failure hk hmem
    simp [hunfailed k hmem] at hk
  constructor
  case loaded =>
    intro k ds hk
    by_cases hmem : k ∈ members
    · obtain rfl : dependencies k = ds := by
        simpa [hself k hmem, Progress.dependencies?] using hk
      exact ⟨hfetch k hmem, fun d hd =>
        ⟨(hloaded d).2 (htargets k hmem d hd).1, (htargets k hmem d hd).2⟩⟩
    · rw [hother k hmem] at hk
      obtain ⟨hgraph, hloadeds⟩ := h.loaded k ds hk
      exact ⟨hgraph, fun d hd => ⟨(hloaded d).2 (.inl (hloadeds d hd).1), (hloadeds d hd).2⟩⟩
  case raised =>
    intro k fault hk
    rw [hfailure] at hk
    rw [hother k (hunloaded k _ hk), hfailure]
    exact h.raised k fault hk
  case cause =>
    intro k failure hk hk'
    rw [hfailure] at hk
    rw [hother k (hunloaded k _ hk)] at hk'
    exact h.cause k failure hk hk'

end LoadSound

end ModuleMap

/-! ## Imports that are refused -/

/-- The entries of a resource have the declarations that a fetcher gives to them. -/
def ModuleMap.DeclaresAt (map : ModuleMap) (fetch : Fetcher) (url : Url) : Prop :=
  ∀ key : ModuleKey, key.url = url → (map.entry key).declaration = fetch.declaration? key

/-- A module is exported if its declaration is. -/
theorem ModuleMap.isExported_eq {map : ModuleMap} {key : ModuleKey} :
    map.isExported key = (map.entry key).declaration.any Declaration.isExported := by
  unfold isExported entry
  cases map.get? key <;> rfl

/-- The keys on the path of a key are of the same resource. -/
theorem ModuleKey.url_of_mem_ancestry {key ancestor : ModuleKey} (h : ancestor ∈ key.ancestry) :
    ancestor.url = key.url := by
  obtain ⟨path, -, rfl⟩ := List.mem_map.1 h
  rfl

namespace LoadWalk

/-- Two kinds of modules are not to be imported. -/
theorem importFault?_cause {map : ModuleMap} {importer target : ModuleKey} {cause : UnboundCause}
    (h : importFault? map importer target = some cause) :
    cause = .inlineModule ∨ cause = .notExported := by
  unfold importFault? at h
  split at h
  · cases h
  · split at h
    · exact .inl (Option.some.inj h).symm
    · split at h
      · exact .inr (Option.some.inj h).symm
      · cases h

/-- An import is refused if the importer may not import the module. -/
theorem importFault?_eq_none_iff {map : ModuleMap} {fetch : Fetcher} {importer target : ModuleKey}
    (hdeclares : map.DeclaresAt fetch target.url) :
    importFault? map importer target = none ↔ ¬ fetch.Barred importer target := by
  have hdeclaration : (map.get? target).bind Entry.declaration = fetch.declaration? target := by
    rw [← hdeclares target rfl, ModuleMap.entry]
    cases map.get? target <;> rfl
  have hvisible : map.isVisible target = true ↔ fetch.Exports target := by
    rw [ModuleMap.isVisible, List.all_eq_true]
    refine forall₂_congr fun ancestor hancestor => ?_
    rw [ModuleMap.isExported_eq, hdeclares ancestor (ModuleKey.url_of_mem_ancestry hancestor)]
  unfold importFault? Fetcher.Barred
  rw [hdeclaration]
  cases fetch.declaration? target with
  | none => simp
  | some declaration =>
      simp only [Option.some.injEq, exists_eq_left', ← hvisible, ModuleKey.sameResource]
      by_cases hinline : declaration.form? = some .inline
      · simp [hinline]
      · by_cases hurl : target.url = importer.url <;> by_cases hseen : map.isVisible target <;>
          simp [hinline, hurl, hseen]

end LoadWalk

end ModuleGraph
