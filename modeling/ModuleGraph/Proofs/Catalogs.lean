import Mathlib.Algebra.BigOperators.Group.List.Basic
import Mathlib.Algebra.GroupWithZero.Nat
import ModuleGraph.Proofs.Entries
import ModuleGraph.Proofs.ImportGraph

/-!
# What a catalog holds

A catalog asks for each URL once and registers what a resource declares at the moment it is had, so
that the declaration of each entry follows from the answers (`Catalog.Declared`). `Catalog.Gathers`
collects what registering keys and asking for resources does to a catalog. In particular no module
takes a step. `Catalog.Gathers.requestCount_le` bounds the number of requests in all answers.
-/

namespace ModuleGraph

/-- A key is that of a bare address and a path just if it has both as its parts. -/
theorem ModuleKey.ofUrl_eq_iff {url : Url} [url.IsBare] {path : FragmentPath} {key : ModuleKey} :
    ModuleKey.ofUrl url path = key ↔ url = key.url ∧ path = key.path := by
  rw [ModuleKey.ext_iff]
  simp [ofUrl, Url.IsBare.withoutFragment_eq]

namespace ModuleMap

variable {map : ModuleMap} {key : ModuleKey} {url : Url} {resource : Resource}

/-- Fragments that are declared one after the other: the first one with a path counts. -/
theorem entry_declareFragments [url.IsBare] (fragments : List Fragment) :
    (fragments.foldl (fun map f => map.declare (ModuleKey.ofUrl url f.path) (.fragment f))
        map).entry key =
      { map.entry key with
        declaration := (map.entry key).declaration.or
          (if url = key.url then (fragments.find? (·.path == key.path)).map .fragment
          else none) } := by
  induction fragments generalizing map with
  | nil => simp only [List.foldl_nil, List.find?_nil, Option.map_none, ite_self, Option.or_none]
  | cons f fragments ih =>
      rw [List.foldl_cons, ih, entry_declare]
      by_cases hkey : key = ModuleKey.ofUrl url f.path
      · obtain ⟨hurl, hpath⟩ := ModuleKey.ofUrl_eq_iff.1 hkey.symm
        rw [if_pos hkey, ← hkey]
        simp only [Entry.attach, hurl, hpath, List.find?_cons, BEq.rfl, if_true, Option.map_some]
        cases (map.entry key).declaration <;> simp
      · rw [if_neg hkey]
        by_cases hurl : url = key.url
        · have hpath : f.path ≠ key.path := fun h => hkey (ModuleKey.ofUrl_eq_iff.2 ⟨hurl, h⟩).symm
          simp [hurl, hpath]
        · simp [hurl]

/-- Declaring the modules of a resource changes the declarations of entries and nothing else of
them. -/
theorem entry_declareAll [url.IsBare] :
    (map.declareAll url resource).entry key =
      { map.entry key with
        declaration := (map.entry key).declaration.or
          (if url = key.url then resource.declaration? key.path else none) } := by
  unfold declareAll ModuleKey.root
  rw [entry_declareFragments, entry_declare]
  unfold Resource.declaration? Resource.fragment?
  by_cases hkey : key = ModuleKey.ofUrl url []
  · obtain ⟨hurl, hpath⟩ := ModuleKey.ofUrl_eq_iff.1 hkey.symm
    rw [if_pos hkey, ← hkey]
    simp only [Entry.attach, hurl, ← hpath, List.isEmpty_nil, if_true]
    cases (map.entry key).declaration <;> simp
  · rw [if_neg hkey]
    by_cases hurl : url = key.url
    · have hpath : key.path ≠ [] := fun h => hkey (ModuleKey.ofUrl_eq_iff.2 ⟨hurl, h.symm⟩).symm
      simp [hurl, hpath]
    · simp [hurl]

/-- Declaring the modules of a resource leaves known what is known. -/
theorem isKnown_declareAll (h : map.IsKnown key) : (map.declareAll url resource).IsKnown key := by
  unfold declareAll
  generalize hroot : map.declare (ModuleKey.root url) (.module resource.root) = declared
  have hknown : declared.IsKnown key := by simp [← hroot, h]
  clear hroot
  induction resource.fragments generalizing declared with
  | nil => exact hknown
  | cons f fragments ih => exact ih _ (by simp [hknown])

/-- Declaring the modules of a resource gives no key a second entry. -/
theorem distinct_declareAll (h : map.Distinct) : (map.declareAll url resource).Distinct := by
  unfold declareAll
  generalize hroot : map.declare (ModuleKey.root url) (.module resource.root) = declared
  have hdistinct : declared.Distinct := hroot ▸ distinct_declare h
  clear hroot
  induction resource.fragments generalizing declared with
  | nil => exact hdistinct
  | cons f fragments ih => exact ih _ (distinct_declare hdistinct)

end ModuleMap

namespace Catalog

/-- The declaration that the answers had so far give to a key. -/
def declaration? (c : Catalog) (key : ModuleKey) : Option Declaration :=
  match c.answer? key.url with
  | some (.ok resource) => resource.declaration? key.path
  | _ => none

/-- Each entry has the declaration that the answers give to its key. -/
def Declared (c : Catalog) : Prop :=
  ∀ key, (c.map.entry key).declaration = c.declaration? key

/-- The answers of a catalog and more from a library. -/
def Asks (library : Library) (c c' : Catalog) : Prop :=
  ∃ new, c'.answers = c.answers ++ new ∧ ∀ a ∈ new, a.2 = library.fetch a.1

/-- One catalog becomes another by registering keys and asking a library for resources. -/
structure Gathers (library : Library) (c c' : Catalog) : Prop where
  known : ∀ key, c.map.IsKnown key → c'.map.IsKnown key
  progress : ∀ key, (c'.map.entry key).progress = (c.map.entry key).progress
  failure : ∀ key, (c'.map.entry key).failure = (c.map.entry key).failure
  answers : c.Asks library c'
  distinct : c.map.Distinct → c'.map.Distinct
  once : c.fetched.Nodup → c'.fetched.Nodup
  declared : c.Declared → c'.Declared

variable {library : Library} {c c' c'' : Catalog}

/-- A catalog with the same answers asks for nothing more. -/
theorem Asks.of_eq (h : c'.answers = c.answers) : Asks library c c' :=
  ⟨[], by simp [h]⟩

/-- A catalog has its own answers. -/
theorem Asks.refl : Asks library c c :=
  .of_eq rfl

/-- Asking goes on from the answers had. -/
theorem Asks.trans (h : Asks library c c') (h' : Asks library c' c'') : Asks library c c'' := by
  obtain ⟨new, hnew, hfetch⟩ := h
  obtain ⟨new', hnew', hfetch'⟩ := h'
  refine ⟨new ++ new', by simp [hnew', hnew], fun a ha => ?_⟩
  exact (List.mem_append.1 ha).elim (hfetch a) (hfetch' a)

/-- An answer is kept. -/
theorem Asks.answer? (h : Asks library c c') {url : Url} {answer : Except ResourceFault Resource}
    (hanswer : c.answer? url = some answer) : c'.answer? url = some answer := by
  obtain ⟨new, hnew, -⟩ := h
  simp only [Catalog.answer?] at hanswer ⊢
  rw [hnew, List.lookup_append, hanswer, Option.some_or]

/-- What has been answered stays answered. -/
theorem Asks.isSome_answer? (h : Asks library c c') {url : Url} (hsome : (c.answer? url).isSome) :
    (c'.answer? url).isSome := by
  obtain ⟨answer, hanswer⟩ := Option.isSome_iff_exists.1 hsome
  exact Option.isSome_of_eq_some (h.answer? hanswer)

/-- Gathering may be over before anything is gathered. -/
theorem Gathers.refl : Gathers library c c :=
  ⟨fun _ h => h, fun _ => rfl, fun _ => rfl, .refl, id, id, id⟩

/-- Gathering goes on from what has been gathered. -/
theorem Gathers.trans (h : Gathers library c c') (h' : Gathers library c' c'') :
    Gathers library c c'' where
  known key hkey := h'.known key (h.known key hkey)
  progress key := (h'.progress key).trans (h.progress key)
  failure key := (h'.failure key).trans (h.failure key)
  answers := h.answers.trans h'.answers
  distinct hdistinct := h'.distinct (h.distinct hdistinct)
  once honce := h'.once (h.once honce)
  declared hdeclared := h'.declared (h.declared hdeclared)

/-- Gathering loads no module. -/
theorem Gathers.isLoaded (h : Gathers library c c') (key : ModuleKey) :
    (c'.map.entry key).isLoaded = (c.map.entry key).isLoaded := by
  simp only [Entry.isLoaded, h.progress]

/-- Gathering leaves the status of every module as it is. -/
theorem Gathers.status (h : Gathers library c c') (key : ModuleKey) :
    (c'.map.entry key).status = (c.map.entry key).status := by
  simp only [Entry.status, h.progress, h.failure]

/-- Gathering leaves pending what is pending, and nothing else. -/
theorem Gathers.isPending (h : Gathers library c c') (key : ModuleKey) :
    c'.map.isPending key = c.map.isPending key := by
  simp only [ModuleMap.isPending, h.isLoaded, h.status]

/-- Registering a key gathers it. -/
theorem gathers_register (library : Library) (c : Catalog) (key : ModuleKey) :
    Gathers library c { c with map := c.map.register key } where
  known _ h := by simp [h]
  progress _ := by simp
  failure _ := by simp
  answers := .of_eq rfl
  distinct h := ModuleMap.distinct_register h
  once h := h
  declared h k := by simpa [declaration?, Catalog.answer?] using h k

/-- Registering several keys gathers them. -/
theorem gathers_registerAll (library : Library) (c : Catalog) (keys : List ModuleKey) :
    Gathers library c { c with map := keys.foldl ModuleMap.register c.map } := by
  induction keys generalizing c with
  | nil => exact .refl
  | cons key keys ih =>
      exact (gathers_register library c key).trans (ih { c with map := c.map.register key })

/-- Who asks for an address has an answer for it. -/
theorem answer?_obtain (library : Library) (c : Catalog) (url : Url) :
    ∃ answer, (c.obtain library url).answer? url = some answer := by
  unfold obtain
  cases h : c.answer? url with
  | some answer => exact ⟨answer, h⟩
  | none =>
      have hnone : c.answers.lookup url = none := h
      exact ⟨library.fetch url, by simp [answer?, List.lookup_append, hnone]⟩

/-- What asking for a new URL does: all that the resource declares is registered. -/
theorem obtain_of_new {url : Url} [url.IsBare] (h : c.answer? url = none) :
    ∃ map : ModuleMap, c.obtain library url = ⟨map, c.answers ++ [(url, library.fetch url)]⟩ ∧
      (∀ key, map.entry key =
        { c.map.entry key with
          declaration := (c.map.entry key).declaration.or
            (if url = key.url then (library.fetch url).toOption.bind (·.declaration? key.path)
            else none) }) ∧
      (∀ key, c.map.IsKnown key → map.IsKnown key) ∧ (c.map.Distinct → map.Distinct) := by
  unfold obtain
  rw [h]
  cases library.fetch url with
  | error fault =>
      refine ⟨_, rfl, fun key => ?_, fun _ => id, id⟩
      simp only [Except.toOption, Option.bind_none, ite_self, Option.or_none]
  | ok resource =>
      exact ⟨_, rfl, fun key => ModuleMap.entry_declareAll,
        fun _ => ModuleMap.isKnown_declareAll, ModuleMap.distinct_declareAll⟩

/-- Asking for a bare address gathers its resource. -/
theorem gathers_obtain {url : Url} [url.IsBare] : Gathers library c (c.obtain library url) := by
  cases hurl : c.answer? url with
  | some answer =>
      rw [obtain, hurl]
      exact .refl
  | none =>
      obtain ⟨map, hmap, hentry, hknown, hdistinct⟩ := obtain_of_new hurl
      have hnew : c.answers.lookup url = none := hurl
      rw [hmap]
      refine ⟨hknown, fun key => by rw [hentry], fun key => by rw [hentry],
        ⟨[(url, library.fetch url)], rfl, by simp⟩, hdistinct, fun honce => ?_,
        fun hdeclared key => ?_⟩
      · have hfresh : url ∉ c.fetched := by
          intro hmem
          obtain ⟨a, ha, rfl⟩ := List.mem_map.1 hmem
          simpa using List.lookup_eq_none_iff.1 hnew a ha
        simp only [fetched, List.map_append, List.map_cons, List.map_nil]
        rw [← List.concat_eq_append]
        exact honce.concat hfresh
      · have hold := hdeclared key
        simp only [declaration?, answer?] at hold ⊢
        rw [List.lookup_append, hentry]
        by_cases hkey : url = key.url
        · rw [← hkey, hnew] at hold ⊢
          cases library.fetch url <;> simp [hold, Except.toOption]
        · have hne : ¬ key.url = url := fun h => hkey h.symm
          have hother : List.lookup key.url [(url, library.fetch url)] = none := by simp [hne]
          rw [hother, Option.or_none, ← hold, if_neg hkey, Option.or_none]

/-- Asking for the addresses of several keys gathers their resources. -/
theorem gathers_obtainAll (keys : List ModuleKey) :
    Gathers library c ((keys.map ModuleKey.url).foldl (fun c url => c.obtain library url) c) := by
  induction keys generalizing c with
  | nil => exact .refl
  | cons key keys ih => exact gathers_obtain.trans ih

/-- Who asks for the addresses of several keys has an answer for each of them. -/
theorem answer?_obtainAll (library : Library) (c : Catalog) {keys : List ModuleKey}
    {key : ModuleKey} (h : key ∈ keys) : ∃ answer,
      ((keys.map ModuleKey.url).foldl (fun c url => c.obtain library url) c).answer? key.url =
        some answer := by
  induction keys generalizing c with
  | nil => simp at h
  | cons k keys ih =>
      rcases List.mem_cons.1 h with rfl | h
      · obtain ⟨answer, hanswer⟩ := answer?_obtain library c key.url
        exact ⟨answer, (gathers_obtainAll keys).answers.answer? hanswer⟩
      · exact ih _ h

end Catalog

/-! ## Counting requests -/

/-- What a table answers is in it. -/
theorem mem_of_lookup {α β : Type} [BEq α] [LawfulBEq α] {table : List (α × β)} {a : α} {b : β}
    (h : table.lookup a = some b) : (a, b) ∈ table := by
  obtain ⟨before, after, rfl, -⟩ := List.lookup_eq_some_iff.1 h
  simp

/-- A sum over distinct members, all of which that count stand in another list. -/
theorem sum_map_le_of_nodup {α : Type} (weight : α → Nat) {as bs : List α} (hnodup : as.Nodup)
    (hsub : ∀ a ∈ as, weight a ≠ 0 → a ∈ bs) : (as.map weight).sum ≤ (bs.map weight).sum := by
  classical
  induction as generalizing bs with
  | nil => simp
  | cons a as ih =>
      obtain ⟨ha, hnodup⟩ := List.nodup_cons.1 hnodup
      by_cases hweight : weight a = 0
      · simpa [hweight] using ih hnodup fun b hb => hsub b (List.mem_cons_of_mem a hb)
      · have hmem : a ∈ bs := hsub a List.mem_cons_self hweight
        have hrest : (as.map weight).sum ≤ ((bs.erase a).map weight).sum := by
          refine ih hnodup fun b hb hne => ?_
          have hba : b ≠ a := fun h => ha (h ▸ hb)
          exact (List.mem_erase_of_ne hba).2 (hsub b (List.mem_cons_of_mem a hb) hne)
        have hsum := ((List.perm_cons_erase hmem).map weight).sum_eq
        simp only [List.map_cons, List.sum_cons] at hsum ⊢
        omega

namespace ResourceTable

/-- All bodies of a table, by their places. -/
def bodies (table : ResourceTable) : List ((Url × FragmentPath) × Body) :=
  table.flatMap fun entry =>
    match entry.2 with
    | .ok resource =>
      ((entry.1, []), resource.root) :: resource.fragments.map fun f => ((entry.1, f.path), f.body)
    | .error _ => []

/-- The number of requests in one answer. -/
def answerCount (entry : Url × Except ResourceFault Resource) : Nat :=
  match entry.2 with
  | .ok resource => resource.requestCount
  | .error _ => 0

/-- The requests in a table are those of its answers, added up. -/
theorem requestCount_eq_sum (table : ResourceTable) :
    table.requestCount = (table.map answerCount).sum := by
  unfold requestCount
  induction table with
  | nil => rfl
  | cons entry table ih =>
      obtain ⟨url, answer⟩ := entry
      cases answer <;> simp [answerCount, ih]

/-- The requests of all bodies in a table are those that it counts. -/
theorem sum_bodies (table : ResourceTable) :
    (table.bodies.map fun b => b.2.requests.length).sum = table.requestCount := by
  have hfragments : ∀ (url : Url) (root : Nat) (fragments : List Fragment),
      fragments.foldr (fun f n => f.body.requests.length + n) root =
        root + ((fragments.map fun f => ((url, f.path), f.body)).map
          fun b => b.2.requests.length).sum := by
    intro url root fragments
    induction fragments with
    | nil => simp
    | cons f fragments ih => simp [ih]; omega
  rw [requestCount_eq_sum]
  induction table with
  | nil => rfl
  | cons entry table ih =>
      obtain ⟨url, answer⟩ := entry
      simp only [bodies, List.flatMap_cons, List.map_append, List.sum_append, List.map_cons,
        List.sum_cons] at ih ⊢
      rw [ih]
      cases answer with
      | error fault => simp [answerCount]
      | ok resource => simp [answerCount, Resource.requestCount, hfragments url]

end ResourceTable

/-- A declared module has its body in the table of answers. -/
theorem Catalog.mem_bodies_of_declaration? {c : Catalog} {key : ModuleKey}
    {declaration : Declaration} (h : c.declaration? key = some declaration) :
    ((key.url, key.path), declaration.body) ∈ c.answers.bodies := by
  unfold declaration? at h
  split at h
  · next resource hanswer =>
      refine List.mem_flatMap.2 ⟨_, mem_of_lookup hanswer, ?_⟩
      unfold Resource.declaration? at h
      split at h
      · next hpath =>
          obtain rfl := Option.some.inj h
          simp [List.isEmpty_iff.1 hpath, Declaration.body]
      · obtain ⟨f, hf, rfl⟩ := Option.map_eq_some_iff.1 h
        have hpath : f.path = key.path := by simpa using List.find?_some hf
        refine List.mem_cons_of_mem _ (List.mem_map.2 ⟨f, List.mem_of_find?_eq_some hf, ?_⟩)
        simp [hpath, Declaration.body]
  · simp at h

/-- Of the answers of a library only those have requests that it holds. -/
theorem Library.mem_held_of_answerCount {library : Library} {url : Url}
    (h : ResourceTable.answerCount (url, library.fetch url) ≠ 0) :
    (url, library.fetch url) ∈ library.held := by
  unfold Library.fetch at h ⊢
  cases hheld : library.held.lookup url with
  | none => simp [hheld, ResourceTable.answerCount] at h
  | some answer => exact mem_of_lookup hheld

/-- Answers of a library have no more requests than what it holds. -/
theorem Library.requestCount_le {library : Library} {answers : ResourceTable}
    (hnodup : (answers.map Prod.fst).Nodup) (hfetch : ∀ a ∈ answers, a.2 = library.fetch a.1) :
    answers.requestCount ≤ library.held.requestCount := by
  simp only [ResourceTable.requestCount_eq_sum]
  refine sum_map_le_of_nodup _ hnodup.of_map fun a ha hcount => ?_
  obtain ⟨url, answer⟩ := a
  obtain rfl : answer = library.fetch url := hfetch _ ha
  exact library.mem_held_of_answerCount hcount

/-- What a catalog gathers has no more requests than the library from which it comes. -/
theorem Catalog.Gathers.requestCount_le {library : Library} {c c' : Catalog}
    (h : Gathers library c c') (honce : c.fetched.Nodup) :
    c'.answers.requestCount ≤ c.answers.requestCount + library.held.requestCount := by
  obtain ⟨new, hnew, hfetch⟩ := h.answers
  have hnodup : (new.map Prod.fst).Nodup := by
    have hurls := h.once honce
    rw [fetched, hnew, List.map_append, List.nodup_append] at hurls
    exact hurls.2.1
  have hle := Library.requestCount_le hnodup hfetch
  simp only [ResourceTable.requestCount_eq_sum, hnew, List.map_append, List.sum_append] at hle ⊢
  omega

end ModuleGraph
