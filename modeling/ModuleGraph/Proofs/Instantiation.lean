import ModuleGraph.Proofs.LinkedModules

/-!
# What instantiation comes to

`Catalog.Sound.completes` and `Catalog.Sound.refuses` say what a call has found out when it ends: it
succeeds only if everything that the module depends on can be linked, and if it fails, there is a
module that cannot, on which the module and all others that fail depend. What the map says of
linking stays true in both cases (`Catalog.Sound.linkSound_instantiate`).
-/

namespace ModuleGraph

namespace ModuleMap

variable {map map' : ModuleMap} {key k culprit m : ModuleKey} {fault : LinkFault} {c : Collection}

/-- The modules that instantiating a module walks: those that have been met when the collection ends
or gets stuck. -/
def walked (map : ModuleMap) (key : ModuleKey) : List ModuleKey :=
  if (map.entry key).status = .loaded then
    match map.collect (map.entries.length + 1) key ⟨[], []⟩ with
    | .ok _ c | .error _ c => c.visited
  else []

/-- What is walked is what a collection that ends has met. -/
theorem walked_of_ok (hkey : map.IsReady key)
    (h : map.collect (map.entries.length + 1) key ⟨[], []⟩ = .ok () c) :
    map.walked key = c.visited := by
  have hstatus : (map.entry key).status = .loaded := hkey
  rw [walked, if_pos hstatus, h]

/-- What is walked is what a collection that gets stuck has met. -/
theorem walked_of_error {stop : ModuleKey × LinkFault} (hkey : map.IsReady key)
    (h : map.collect (map.entries.length + 1) key ⟨[], []⟩ = .error stop c) :
    map.walked key = c.visited := by
  have hstatus : (map.entry key).status = .loaded := hkey
  rw [walked, if_pos hstatus, h]

/-- With a module, everything that it depends on has an instance. -/
def InstancesClosed (map : ModuleMap) : Prop :=
  ∀ key, (map.entry key).instance?.isSome →
    ∀ d ∈ (map.entry key).dependencies, (map.entry d).instance?.isSome

/-- All that a module with an instance depends on has one. -/
theorem InstancesClosed.of_dependsOn (h : map.InstancesClosed)
    (hk : (map.entry k).instance?.isSome) (hdepends : map.DependsOn k m) :
    (map.entry m).instance?.isSome := by
  induction hdepends with
  | refl => exact hk
  | tail _ hd ih => exact h _ ih _ hd

/-! ## Who depends on the culprit -/

/-- A module that depends on the culprit by way of candidates depends on it. -/
theorem DependsVia.dependsOn {candidates avoided : List ModuleKey}
    (h : map.DependsVia candidates culprit avoided k) : map.DependsOn k culprit := by
  induction h with
  | culprit => exact .refl
  | step _ _ hd _ ih => exact .head hd ih

/-- What has been met and depends on a module without an instance leads to the culprit by way of
what has been met, if all that is not settled does. -/
theorem dependsVia_of_dependsOn (hinv : Collection.Inv map c) (hinstances : map.InstancesClosed)
    (hunsettled : ∀ k ∈ c.visited, k ∈ c.order ∨ map.DependsVia c.visited culprit [] k)
    (hm : (map.entry m).instance? = none) (hend : m = culprit ∨ m ∉ c.visited)
    (hk : k ∈ c.visited) (hdepends : map.DependsOn k m) :
    map.DependsVia c.visited culprit [] k := by
  induction hdepends using Relation.ReflTransGen.head_induction_on with
  | refl =>
      rcases hend with rfl | hnot
      · exact .culprit
      · exact absurd hk hnot
  | @head k d hd hrest ih =>
      rcases hunsettled k hk with hsettled | hvia
      · rcases hinv.closed k hsettled d hd with hinstance | hvisited
        · -- what has an instance does not depend on anything that has none
          have hsome := hinstances.of_dependsOn hinstance hrest
          simp [hm] at hsome
        · exact .step hk (by simp) hd (ih hvisited)
      · exact hvia

/-- The candidates that are the culprit or depend on it by way of candidates. -/
theorem mem_dependents_iff {candidates : List ModuleKey} :
    k ∈ map.dependents culprit candidates ↔
      k ∈ candidates ∧ map.DependsVia candidates culprit [] k := by
  classical
  simp [dependents_eq]

/-! ## Refusals -/

/-- Why instantiation fails, and what it leaves behind: a module cannot be linked. Either it has
been walked, or another module has failed because of it before. The walked modules that depend on
it fail, too, and nothing else changes. -/
structure Refuses (map : ModuleMap) (key : ModuleKey) (fault : LinkFault) (m culprit : ModuleKey)
    (map' : ModuleMap) : Prop where
  unlinked : ¬ map.Links m
  blames : map.Blames m fault
  depends : map.DependsOn key culprit
  leads : map.DependsOn culprit m
  origin : culprit = m ∧ m ∈ map.walked key ∨
    (map.entry culprit).failure = some (.link fault) ∧
      (map.entry m).failure = some (.link fault)
  ready : ∀ k ∈ map.walked key, map.IsReady k
  altered : map.AltersAll (map.dependents culprit (map.walked key)) (FailsWith (.link fault)) map'
  dependents : ∀ k ∈ map.walked key,
    (k ∈ map.dependents culprit (map.walked key) ↔ map.DependsOn k culprit) ∧
      (map.DependsOn k culprit ↔ map.DependsOn k m)
  self : map.IsReady key → key ∈ map.dependents culprit (map.walked key)

/-- What has been walked depends on the culprit by way of what has been walked, and so does it on
the module because of which the culprit has failed. -/
theorem refuses_of_walked (hinv : Collection.Inv map c) (hwalked : map.walked key = c.visited)
    (hinstances : map.InstancesClosed)
    (hunsettled : ∀ k ∈ c.visited, k ∈ c.order ∨ map.DependsVia c.visited culprit [] k)
    (hkey : key ∈ c.visited) (hdepends : map.DependsOn key culprit)
    (hculprit : (map.entry culprit).instance? = none) (hleads : map.DependsOn culprit m)
    (hm : (map.entry m).instance? = none) (hunlinked : ¬ map.Links m)
    (hblames : map.Blames m fault)
    (horigin : culprit = m ∧ m ∈ c.visited ∨ (map.entry culprit).failure = some (.link fault) ∧
      (map.entry m).failure = some (.link fault))
    (halters : map.AltersAll (map.dependents culprit c.visited) (FailsWith (.link fault)) map') :
    map.Refuses key fault m culprit map' := by
  have hend : m = culprit ∨ m ∉ c.visited := by
    rcases horigin with ⟨hsame, -⟩ | ⟨-, hfailed⟩
    · exact .inl hsame.symm
    · refine .inr fun hmem => ?_
      rw [(hinv.ready m hmem).facts.2.2.1] at hfailed
      cases hfailed
  -- a chain of dependencies stays among the collected modules, since the others have instances
  have hvia : ∀ k ∈ c.visited, map.DependsOn k culprit →
      map.DependsVia c.visited culprit [] k :=
    fun k hk => dependsVia_of_dependsOn hinv hinstances hunsettled hculprit (.inl rfl) hk
  constructor
  case unlinked => exact hunlinked
  case blames => exact hblames
  case depends => exact hdepends
  case leads => exact hleads
  case origin => exact hwalked ▸ horigin
  case ready => exact hwalked ▸ hinv.ready
  case altered => exact hwalked ▸ halters
  case dependents =>
    rw [hwalked]
    refine fun k hk => ⟨⟨fun hmem => ?_, fun hk' => mem_dependents_iff.2 ⟨hk, hvia k hk hk'⟩⟩,
      fun hk' => hk'.trans hleads, fun hk' => ?_⟩
    · exact (mem_dependents_iff.1 hmem).2.dependsOn
    · exact (dependsVia_of_dependsOn hinv hinstances hunsettled hm hend hk hk').dependsOn
  case self =>
    rw [hwalked]
    exact fun _ => mem_dependents_iff.2 ⟨hkey, hvia key hkey hdepends⟩

/-- A refusal changes nothing but failures. -/
theorem Refuses.fails {m : ModuleKey} (h : map.Refuses key fault m culprit map') :
    map.Fails map' :=
  LinkM.fails_of_failDependents h.ready h.altered

/-- A refusal leaves all instances as they are. -/
theorem Refuses.instance?_eq (h : map.Refuses key fault m culprit map') (k : ModuleKey) :
    (map'.entry k).instance? = (map.entry k).instance? :=
  h.fails.instance?_eq k

/-- What a refusal changes has failed, and nothing else of it has changed. -/
theorem Refuses.changed (h : map.Refuses key fault m culprit map')
    (hk : map'.entry k ≠ map.entry k) :
    map'.entry k = { map.entry k with failure := some (.link fault) } := by
  by_cases hmem : k ∈ map.dependents culprit (map.walked key)
  · exact h.altered.altered k hmem
  · exact absurd (h.altered.kept k hmem) hk

/-- A refusal leaves what has not been walked, or does not depend on the culprit. -/
theorem Refuses.kept (h : map.Refuses key fault m culprit map')
    (hk : k ∉ map.walked key ∨ ¬ map.DependsOn k culprit) : map'.entry k = map.entry k := by
  refine h.altered.kept k fun hmem => ?_
  have hwalked := (mem_dependents_iff.1 hmem).1
  exact hk.elim (fun hnot => hnot hwalked) fun hnot => hnot ((h.dependents k hwalked).1.1 hmem)

/-- Of the walked modules exactly those fail that are the culprit or depend on it. -/
theorem Refuses.failed_iff (h : map.Refuses key fault m culprit map')
    (hk : k ∈ map.walked key) : (map'.entry k).status = .failed ↔ map.DependsOn k culprit := by
  constructor
  · intro hfailed
    by_contra hnot
    have hready : (map.entry k).status = .loaded := h.ready k hk
    rw [h.kept (.inr hnot), hready] at hfailed
    cases hfailed
  · intro hdepends
    rw [h.altered.altered k ((h.dependents k hk).1.2 hdepends)]
    simp

/-- A module that cannot be linked has no instance. -/
theorem LinkSound.instance?_eq_none (h : map.LinkSound) (hm : ¬ map.Links m) :
    (map.entry m).instance? = none := by
  cases hinstance : (map.entry m).instance? with
  | none => rfl
  | some i => exact absurd (h.instances m i hinstance).links hm

/-- What the map says of linking stays true when instantiation is refused. -/
theorem LinkSound.refuses (h : map.LinkSound) (hclosed : map.Closed)
    (hrefuses : map.Refuses key fault m culprit map') : map'.LinkSound := by
  have hmember : ∀ k ∈ map.dependents culprit (map.walked key),
      k ∈ map.walked key ∧ map.IsReady k := by
    intro k hk
    have hwalked := (mem_dependents_iff.1 hk).1
    exact ⟨hwalked, hrefuses.ready k hwalked⟩
  refine h.fails hclosed hrefuses.fails hrefuses.altered (fun k hk => (hmember k hk).2.facts.2.2.1)
    (fun fault' hfault => ?_) (by simp)
  obtain rfl := ModuleFailure.link.inj hfault
  refine ⟨m, hrefuses.unlinked, hrefuses.blames, ?_, fun k hk => ?_⟩
  · rcases hrefuses.origin with ⟨rfl, hwalked⟩ | ⟨-, hfailed⟩
    · exact .inl (((hrefuses.dependents _ hwalked).1).2 .refl)
    · exact .inr hfailed
  · obtain ⟨hwalked, hready⟩ := hmember k hk
    obtain ⟨-, hloaded, -, hinstance⟩ := hready.facts
    exact ⟨hloaded, hinstance, ((hrefuses.dependents k hwalked).1.1 hk).trans hrefuses.leads⟩

end ModuleMap

namespace Catalog

open ModuleMap

variable {importMap : ImportMap} {c : Catalog} {map : ModuleMap} {key : ModuleKey}
  {fault : LinkFault}

/-- A loaded module has not failed to load. -/
theorem Sound.failure_of_isLoaded (h : c.Sound importMap) (hkey : (c.map.entry key).isLoaded)
    (fault : LoadFault) : (c.map.entry key).failure ≠ some (.load fault) := by
  intro hfailure
  obtain ⟨fetch, hfetch⟩ := c.exists_answeredBy
  have hunloaded := ((h.loads fetch hfetch).failed key fault hfailure).1
  rw [hkey] at hunloaded
  simp at hunloaded

/-- A loaded module that cannot be linked to has failed before, because of a culprit. -/
theorem Sound.failure_of_linkFault? (h : c.Sound importMap) (hlink : c.map.LinkSound)
    (hkey : (c.map.entry key).isLoaded) (hfault : c.map.linkFault? key = some fault) :
    (c.map.entry key).instance? = none ∧ (c.map.entry key).failure = some (.link fault) := by
  unfold linkFault? at hfault
  rw [get?_eq_some_entry (isKnown_of_isLoaded hkey)] at hfault
  dsimp only at hfault
  split at hfault
  · cases hfault
  next hinstance =>
  have hnone : (c.map.entry key).instance? = none := by simpa using hinstance
  refine ⟨hnone, ?_⟩
  cases hfailure : (c.map.entry key).failure with
  | none => simp [hfailure] at hfault
  | some failure =>
      cases failure with
      | load fault' => exact absurd hfailure (h.failure_of_isLoaded hkey fault')
      | link fault' => simpa [hfailure] using hfault
      | eval fault' =>
          have hsome := hlink.thrown key fault' hfailure
          simp [hnone] at hsome

/-- A loaded module has a body. -/
theorem Sound.linkView?_of_isLoaded (h : c.Sound importMap) (hkey : (c.map.entry key).isLoaded) :
    ∃ view, c.map.linkView? key = some view := by
  obtain ⟨fetch, hfetch⟩ := c.exists_answeredBy
  obtain ⟨-, declaration, hdeclaration⟩ := h.declaration_of_isLoaded hfetch hkey
  refine ⟨⟨declaration.body, (c.map.entry key).dependencies⟩, linkView?_eq_some_iff.2 ⟨?_, ?_⟩⟩
  · exact dependencies?_of_isLoaded hkey
  · rw [Entry.body?, hdeclaration, Option.map_some]

/-! ## Linking what has been collected -/

section Linking

variable {collection : Collection} {fresh : List Instance} {round : Nat}

/-- A collection that is settled is closed: what it depends on has an instance or is collected. -/
theorem Sound.collected (h : c.Sound importMap) (hinv : Collection.Inv c.map collection)
    (hsettled : collection.visited ⊆ collection.order) {k m : ModuleKey}
    (hk : (c.map.entry k).instance?.isSome ∨ k ∈ collection.order)
    (hdepends : c.map.DependsOn k m) :
    (c.map.entry m).instance?.isSome ∨ m ∈ collection.order := by
  induction hdepends with
  | refl => exact hk
  | @tail b d _ hd ih =>
      rcases ih with hinstance | hmem
      · exact .inl (h.instances b hinstance d hd)
      · exact (hinv.closed b hmem d hd).imp id fun hd => hsettled hd

/-- While the instances of a closed collection are linked, everything that they depend on has an
instance or one in the making. -/
theorem Sound.covers (h : c.Sound importMap) (hlink : c.map.LinkSound)
    (hinv : Collection.Inv c.map collection) (hsettled : collection.visited ⊆ collection.order)
    (hfresh : LinkM.Prepares c.map round collection.order fresh) {k m : ModuleKey}
    (hk : (c.map.entry k).instance?.isSome ∨ k ∈ collection.order)
    (hdepends : c.map.DependsOn k m) : Linker.Covers ⟨c.map, fresh⟩ m := by
  have hm := h.collected hinv hsettled hk hdepends
  unfold Linker.Covers Linker.instance?
  cases hfind : fresh.find? (·.key == m) with
  | some i =>
      obtain ⟨body, hbody, hi⟩ := hfresh.bodies i (List.mem_of_find?_eq_some hfind)
      obtain rfl : i.key = m := by simpa using List.find?_some hfind
      exact ⟨i, body, rfl, hbody, by rw [hi]; rfl⟩
  | none =>
      have hnot : m ∉ collection.order := by
        rw [← hfresh.keys]
        intro hmem
        obtain ⟨i, hi, rfl⟩ := List.mem_map.1 hmem
        simpa using List.find?_eq_none.1 hfind i hi
      obtain ⟨i, hi⟩ := Option.isSome_iff_exists.1 (hm.resolve_right hnot)
      obtain ⟨body, hbody, hlocals⟩ := (hlink.instances m i hi).locals
      refine ⟨i, body, ?_, hbody, hlocals⟩
      rw [Option.none_or, instance?_eq]
      exact hi

/-- Linking an instance of a closed collection decides whether its module can be linked. -/
theorem Sound.decides_link (h : c.Sound importMap) (hlink : c.map.LinkSound)
    (hinv : Collection.Inv c.map collection) (hsettled : collection.visited ⊆ collection.order)
    (hfresh : LinkM.Prepares c.map round collection.order fresh) {i : Instance} (hi : i ∈ fresh) :
    Decides (Linker.link ⟨c.map, fresh⟩ i) (c.map.Links i.key) (c.map.Blames i.key) := by
  have hmem : i.key ∈ collection.order := hfresh.keys ▸ List.mem_map_of_mem hi
  have hready := hinv.ready i.key (hinv.order_visited hmem)
  obtain ⟨view, hview⟩ := h.linkView?_of_isLoaded hready.facts.2.1
  exact Linker.decides_link (l := ⟨c.map, fresh⟩) (Option.isSome_of_eq_some hview)
    fun m hm => h.covers hlink hinv hsettled hfresh (.inr hmem) hm

/-- An instantiation that fails refuses the module because of another one that cannot be linked. -/
theorem Sound.refuses (h : c.Sound importMap) (hlink : c.map.LinkSound)
    (hkey : c.map.IsReady key) (hrejects : LinkM.Rejects c.map round key fault map) :
    ∃ m culprit, c.map.Refuses key fault m culprit map := by
  have hcollect := ends_collect_first hkey
  cases hrejects with
  | @stuck collection culprit _ _ hresult halters =>
      have hstuck := hcollect.of_error hresult
      have hdepends := hstuck.depends.dependsOn
      have hloaded := h.closed.isLoaded hkey.facts.2.1 hdepends
      obtain ⟨hinstance, hfailure⟩ := h.failure_of_linkFault? hlink hloaded hstuck.fault
      obtain ⟨-, -, m, hleads, hculprit⟩ := hlink.failed culprit fault hfailure
      have hmem : key ∈ collection.visited := by
        cases hstuck.depends with
        | culprit => simp [hkey.facts.2.2.1] at hfailure
        | step hmem => exact hmem
      exact ⟨m, culprit, refuses_of_walked hstuck.inv (walked_of_error hkey hresult) h.instances
        (fun k hk => (hstuck.unsettled k hk).resolve_left (by simp)) hmem hdepends hinstance hleads
        (hlink.instance?_eq_none hculprit.unlinked) hculprit.unlinked hculprit.blames
        (.inr ⟨hfailure, hculprit.failed⟩) halters⟩
  | bodiless hready hbody =>
      obtain ⟨view, hview⟩ := h.linkView?_of_isLoaded hready.facts.2.1
      rw [(linkView?_eq_some_iff.1 hview).2] at hbody
      cases hbody
  | @unlinked collection fresh i _ _ hresult hfresh hi hfault halters =>
      obtain ⟨hinv, hmem, hsettled, hreached⟩ := hcollect.of_ok hresult
      obtain ⟨hunlinked, hblames⟩ :=
        (h.decides_link hlink hinv hsettled hfresh hi).of_error hfault
      have hvisited : i.key ∈ collection.visited :=
        hinv.order_visited (hfresh.keys ▸ List.mem_map_of_mem hi)
      have hinstance := (hinv.ready i.key hvisited).facts.2.2.2
      exact ⟨i.key, i.key, refuses_of_walked hinv (walked_of_ok hkey hresult) h.instances
        (fun k hk => .inl (hsettled hk)) (hinv.order_visited hmem) (hreached i.key hvisited)
        hinstance .refl hinstance hunlinked hblames (.inl ⟨rfl, hvisited⟩) halters⟩

/-- What has been linked comes from one of the fresh instances. -/
theorem exists_of_links {l : Linker} {fresh linked : List Instance} {j : Instance}
    (h : List.Forall₂ (fun i j => l.link i = .ok j) fresh linked) (hj : j ∈ linked) :
    ∃ i ∈ fresh, l.link i = .ok j := by
  induction h with
  | nil => cases hj
  | cons hlink _ ih =>
      rcases List.mem_cons.1 hj with rfl | hj
      · exact ⟨_, List.mem_cons_self, hlink⟩
      · obtain ⟨i, hi, hij⟩ := ih hj
        exact ⟨i, List.mem_cons_of_mem _ hi, hij⟩

/-- A collected module has got the linked instance that had been made for it. -/
theorem exists_link {map map' : ModuleMap} {linked : List Instance}
    (h : LinkM.Completes map round key collection fresh linked map') {k : ModuleKey}
    (hk : k ∈ collection.order) :
    ∃ i ∈ fresh, ∃ j, Linker.link ⟨map, fresh⟩ i = .ok j ∧ i.key = k ∧
      map'.entry k =
        { map.entry k with progress := .instantiated (map.entry k).dependencies j } := by
  obtain ⟨j, hj, hjkey, hentry⟩ := h.altered.altered k hk
  obtain ⟨i, hi, hij⟩ := exists_of_links h.links hj
  have hsame := (LinkM.of_link hij).1
  have hikey : i.key = k := (congrArg InstanceId.key hsame).symm.trans (hjkey.trans entry_key)
  exact ⟨i, hi, j, hij, hikey, hentry⟩

/-- A collected module can be linked, and has got an instance with its exported locals. -/
theorem Sound.instantiated (h : c.Sound importMap) (hlink : c.map.LinkSound)
    {linked : List Instance}
    (hcompletes : LinkM.Completes c.map round key collection fresh linked map)
    (hinv : Collection.Inv c.map collection) (hsettled : collection.visited ⊆ collection.order)
    {k : ModuleKey} (hk : k ∈ collection.order) :
    ∃ j, c.map.Instantiated k j ∧ map.entry k =
      { c.map.entry k with progress := .instantiated (c.map.entry k).dependencies j } := by
  obtain ⟨i, hi, j, hij, rfl, hentry⟩ := exists_link hcompletes hk
  obtain ⟨body, hbody, hmade⟩ := hcompletes.prepared.bodies i hi
  have hlinks := (h.decides_link hlink hinv hsettled hcompletes.prepared hi).of_ok hij
  refine ⟨j, ⟨hlinks, body, hbody, ?_⟩, hentry⟩
  rw [(LinkM.of_link hij).2, hmade]
  rfl

/-- An instantiation that succeeds has found that everything the module depends on can be linked,
and has given instances to all that had none. -/
theorem Sound.completes (h : c.Sound importMap) (hlink : c.map.LinkSound) (hkey : c.map.IsReady key)
    {linked : List Instance}
    (hcompletes : LinkM.Completes c.map round key collection fresh linked map) :
    (∀ m, c.map.DependsOn key m → c.map.Links m ∧ (map.entry m).instance?.isSome) ∧
      map.LinkSound := by
  obtain ⟨hinv, hmem, hsettled, -⟩ := (ends_collect_first hkey).of_ok hcompletes.collected
  have hready : ∀ k ∈ collection.order, c.map.IsReady k :=
    fun k hk => hinv.ready k (hinv.order_visited hk)
  have hself := fun k hk => h.instantiated hlink hcompletes hinv hsettled (k := k) hk
  have hkept := hcompletes.altered.kept
  have hext := (Instantiates.advances (hcompletes.altered.mono fun _ _ he => he.instantiates)
    hready).extends
  have hfailure : ∀ k, (map.entry k).failure = (c.map.entry k).failure := by
    intro k
    by_cases hk : k ∈ collection.order
    · obtain ⟨j, -, hentry⟩ := hself k hk
      rw [hentry]
    · rw [hkept k hk]
  -- the collected modules have not failed, so that failures stay where they are
  have hunfailed : ∀ k failure, (c.map.entry k).failure = some failure → k ∉ collection.order := by
    intro k failure hk hmem
    simp [(hready k hmem).facts.2.2.1] at hk
  constructor
  · intro m hm
    by_cases hmem' : m ∈ collection.order
    · obtain ⟨j, hinstantiated, hentry⟩ := hself m hmem'
      exact ⟨hinstantiated.links, by rw [hentry]; rfl⟩
    · have hsome := (h.collected hinv hsettled (.inr hmem) hm).resolve_right hmem'
      obtain ⟨i, hi⟩ := Option.isSome_iff_exists.1 hsome
      exact ⟨(hlink.instances m i hi).links, by rw [hkept m hmem']; exact hsome⟩
  · refine hlink.of_extends h.closed hext (fun k fault hk => (hfailure k).trans hk)
      (fun k i hi => ?_) (fun k fault hk => ?_) fun k fault hk => ?_
    · by_cases hk : k ∈ collection.order
      · obtain ⟨j, hinstantiated, hentry⟩ := hself k hk
        rw [hentry] at hi
        obtain rfl : j = i := by simpa [Entry.instance?, Progress.instance?] using hi
        exact .inr (hinstantiated.extends hext h.closed (hready k hk).facts.2.1)
      · exact .inl (hkept k hk ▸ hi)
    · rw [hfailure] at hk
      rw [hkept k (hunfailed k _ hk)]
      exact ⟨(hlink.failed k fault hk).2.1, .inl hk⟩
    · rw [hfailure] at hk
      rw [hkept k (hunfailed k _ hk)]
      exact hlink.thrown k fault hk

end Linking

/-! ## Whole calls -/

/-- Instantiating a loaded module succeeds if everything that it depends on can be linked. It fails
because of a module that cannot be. What the map says of linking stays true. -/
theorem Sound.ends_instantiate_loaded (h : c.Sound importMap) (hlink : c.map.LinkSound)
    (round : Nat) (hloaded : (c.map.entry key).isLoaded) :
    Ends (ModuleMap.instantiate round key) c.map
      (fun _ map => map.LinkSound ∧
        ∀ m, c.map.DependsOn key m → c.map.Links m ∧ (map.entry m).instance?.isSome)
      fun halt map => map.LinkSound ∧ ∃ fault m culprit, halt = .fault fault ∧
        c.map.Refuses key fault m culprit map ∧ (map.entry key).failure = some (.link fault) := by
  refine (c.map.ends_instantiate round key).mono ?_ ?_
  · rintro i map (⟨rfl, hinstance⟩ | ⟨hready, collection, fresh, linked, hcompletes⟩)
    · rw [instance?_eq] at hinstance
      refine ⟨hlink, fun m hm => ?_⟩
      have hsome : (c.map.entry m).instance?.isSome :=
        InstancesClosed.of_dependsOn h.instances (Option.isSome_of_eq_some hinstance) hm
      obtain ⟨j, hj⟩ := Option.isSome_iff_exists.1 hsome
      exact ⟨(hlink.instances m j hj).links, hsome⟩
    · obtain ⟨hall, hlink'⟩ := h.completes hlink hready hcompletes
      exact ⟨hlink', hall⟩
  · rintro _ map ⟨fault, rfl, ⟨rfl, hfault⟩ | ⟨hready, hrejects⟩⟩
    -- `key` has failed before; what was recorded then still names the module to blame
    · obtain ⟨hinstance, hfailure⟩ := h.failure_of_linkFault? hlink hloaded hfault
      obtain ⟨-, -, m, hleads, hculprit⟩ := hlink.failed key fault hfailure
      have hwalked : c.map.walked key = [] := by
        rw [walked, if_neg]
        simp [Entry.status, hfailure]
      refine ⟨hlink, fault, m, key, rfl, ?_, hfailure⟩
      constructor
      case unlinked => exact hculprit.unlinked
      case blames => exact hculprit.blames
      case depends => exact .refl
      case leads => exact hleads
      case origin => exact .inr ⟨hfailure, hculprit.failed⟩
      case ready => simp [hwalked]
      case altered =>
        rw [hwalked]
        exact .nil
      case dependents => simp [hwalked]
      case self =>
        intro hready
        simp [hready.facts.2.2.1] at hfailure
    · obtain ⟨m, culprit, hrefuses⟩ := h.refuses hlink hready hrejects
      refine ⟨hlink.refuses h.closed hrefuses, fault, m, culprit, rfl, hrefuses, ?_⟩
      rw [hrefuses.altered.altered key (hrefuses.self hready)]

/-- Instantiating a module leaves what the map says of linking true. -/
theorem Sound.linkSound_instantiate (h : c.Sound importMap) (hlink : c.map.LinkSound)
    (round : Nat) (key : ModuleKey) :
    Ends (ModuleMap.instantiate round key) c.map (fun _ map => map.LinkSound)
      fun _ map => map.LinkSound := by
  refine (c.map.ends_instantiate round key).mono ?_ ?_
  · rintro i map (⟨rfl, -⟩ | ⟨hready, collection, fresh, linked, hcompletes⟩)
    · exact hlink
    · exact (h.completes hlink hready hcompletes).2
  · rintro _ map ⟨fault, -, ⟨rfl, -⟩ | ⟨hready, hrejects⟩⟩
    · exact hlink
    · obtain ⟨m, culprit, hrefuses⟩ := h.refuses hlink hready hrejects
      exact hlink.refuses h.closed hrefuses

end Catalog

end ModuleGraph
