import ModuleGraph.Proofs.Loading

/-!
# What holds of a catalog between calls

`Catalog.Sound` is the invariant of a realm: no module is loading, what the map says of loading
agrees with the import graph of every fetcher that gives the answers had so far, and with a module
everything it depends on is instantiated or evaluated. `Catalog.Sound.ends_load` says what loading a
module does to a sound catalog, and `Catalog.Sound.advance` which later steps keep it sound.
-/

namespace ModuleGraph

namespace Catalog

/-- The catalog has had the answers that the fetcher gives. -/
def AnsweredBy (c : Catalog) (fetch : Fetcher) : Prop :=
  ∀ url answer, c.answer? url = some answer → fetch url = answer

/-- What holds of a catalog between calls. -/
structure Sound (importMap : ImportMap) (c : Catalog) : Prop where
  distinct : c.map.Distinct
  once : c.fetched.Nodup
  declared : c.Declared
  idle : c.map.IsIdle
  answered : ∀ key, (c.map.entry key).status ≠ .registered → (c.answer? key.url).isSome
  loads : ∀ fetch, c.AnsweredBy fetch → c.map.LoadSound importMap fetch
  instances : ∀ key, (c.map.entry key).instance?.isSome →
    ∀ d ∈ (c.map.entry key).dependencies, (c.map.entry d).instance?.isSome
  evaluations : ∀ key, (c.map.entry key).status = .evaluated →
    ∀ d ∈ (c.map.entry key).dependencies, (c.map.entry d).status = .evaluated

variable {importMap : ImportMap} {library : Library} {c c' : Catalog} {fetch : Fetcher}
  {key : ModuleKey} {plan : Plan}

/-- The answers of a catalog belong to a fetcher if those of a later one do. -/
theorem AnsweredBy.of_asks (h : c'.AnsweredBy fetch) (hasks : c.Asks library c') :
    c.AnsweredBy fetch :=
  fun url answer hanswer => h url answer (hasks.answer? hanswer)

/-- A fetcher that has given all answers and gives some more. -/
theorem AnsweredBy.append (h : c.AnsweredBy fetch) {new : ResourceTable}
    (hanswers : c'.answers = c.answers ++ new) (hnew : ∀ a ∈ new, a.2 = fetch a.1) :
    c'.AnsweredBy fetch := by
  intro url answer hanswer
  rw [answer?, hanswers, List.lookup_append] at hanswer
  cases hold : c.answers.lookup url with
  | some old =>
      rw [hold, Option.some_or] at hanswer
      exact h url answer (hold.trans hanswer)
  | none =>
      rw [hold, Option.none_or] at hanswer
      exact (hnew _ (mem_of_lookup hanswer)).symm

/-- A library that has given all answers goes on to do so. -/
theorem AnsweredBy.asks (h : c.AnsweredBy library.fetch) (hasks : c.Asks library c') :
    c'.AnsweredBy library.fetch := by
  obtain ⟨new, hanswers, hnew⟩ := hasks
  exact h.append hanswers hnew

/-- Some fetcher has given the answers. -/
theorem exists_answeredBy (c : Catalog) : ∃ fetch, c.AnsweredBy fetch := by
  refine ⟨fun url => (c.answer? url).getD (.error (.fetch (.notFound ""))), fun url answer h => ?_⟩
  simp [h]

/-- The entries of a resource that has been asked for have the declarations of the fetcher. -/
theorem declaresAt (hdeclared : c.Declared) (hfetch : c.AnsweredBy fetch) {url : Url}
    (hurl : (c.answer? url).isSome) : c.map.DeclaresAt fetch url := by
  intro k hk
  subst hk
  obtain ⟨answer, hanswer⟩ := Option.isSome_iff_exists.1 hurl
  rw [hdeclared k, declaration?, Fetcher.declaration?, hanswer, hfetch _ _ hanswer]
  cases answer <;> rfl

/-- The catalog in which nothing is known is sound. -/
theorem Sound.empty : Catalog.empty.Sound importMap := by
  have hentry : ∀ k, Catalog.empty.map.entry k = Entry.ofKey k := fun _ => rfl
  constructor
  case distinct => exact List.nodup_nil
  case once => exact List.nodup_nil
  case declared => exact fun k => rfl
  case idle => exact fun k => by simp [hentry, Entry.ofKey, Entry.status, Progress.status]
  case answered =>
    intro k hk
    simp [hentry, Entry.ofKey, Entry.status, Progress.status] at hk
  case loads => exact fun _ _ => .empty
  case instances =>
    intro k hk
    simp [hentry, Entry.ofKey, Entry.instance?, Progress.instance?] at hk
  case evaluations =>
    intro k hk
    simp [hentry, Entry.ofKey, Entry.status, Progress.status] at hk

/-- What a module depends on is loaded, and has got as far as the module. -/
theorem Sound.dependency (h : c.Sound importMap) {d : ModuleKey}
    (hd : d ∈ (c.map.entry key).dependencies) :
    (c.map.entry d).isLoaded ∧
      ((c.map.entry key).instance?.isSome → (c.map.entry d).instance?.isSome) ∧
      ((c.map.entry key).status = .evaluated → (c.map.entry d).status = .evaluated) := by
  obtain ⟨fetch, hfetch⟩ := c.exists_answeredBy
  have hkey := ModuleMap.dependencies?_of_isLoaded (Entry.isLoaded_of_mem_dependencies hd)
  exact ⟨(((h.loads fetch hfetch).loaded key _ hkey).2 d hd).1,
    fun hinstance => h.instances key hinstance d hd,
    fun hevaluated => h.evaluations key hevaluated d hd⟩

/-- What a module leads to has got as far as the module. -/
theorem Sound.reaches (h : c.Sound importMap) (hfetch : c.AnsweredBy fetch) {target : ModuleKey}
    (hreaches : fetch.Reaches importMap key target) :
    ((c.map.entry key).isLoaded → (c.map.entry target).isLoaded) ∧
      ((c.map.entry key).instance?.isSome → (c.map.entry target).instance?.isSome) ∧
      ((c.map.entry key).status = .evaluated → (c.map.entry target).status = .evaluated) := by
  -- a loaded module depends on what it imports
  have hdepends : ∀ a b, (c.map.entry a).isLoaded → fetch.Imports importMap a b →
      b ∈ (c.map.entry a).dependencies := by
    rintro a b ha ⟨dependencies, hdependencies, hb⟩
    have hgraph := (h.loads fetch hfetch).loaded a _ (ModuleMap.dependencies?_of_isLoaded ha)
    obtain rfl := Option.some.inj (hdependencies.symm.trans hgraph.1)
    exact hb
  induction hreaches with
  | refl => exact ⟨id, id, id⟩
  | @tail a b _ himports ih =>
      obtain ⟨hloaded, hinstance, hevaluated⟩ := ih
      refine ⟨fun hk => ?_, fun hk => ?_, fun hk => ?_⟩
      · exact (h.dependency (hdepends a b (hloaded hk) himports)).1
      · have ha := hinstance hk
        have hmem := hdepends a b (Entry.isLoaded_of_instance ha) himports
        exact (h.dependency hmem).2.1 ha
      · have ha := hevaluated hk
        have hmem := hdepends a b
          (Entry.isLoaded_of_instance (Entry.instance_isSome_of_evaluated ha)) himports
        exact (h.dependency hmem).2.2 ha

/-- A loaded module has the declaration that each fetcher of the answers gives to it. -/
theorem Sound.declaration_of_isLoaded (h : c.Sound importMap) {fetch : Fetcher}
    (hfetch : c.AnsweredBy fetch) (hkey : (c.map.entry key).isLoaded) :
    c.map.DeclaresAt fetch key.url ∧
      ∃ declaration, (c.map.entry key).declaration = some declaration := by
  have hanswered := h.answered key (Entry.status_ne_registered_of_isLoaded hkey)
  have hdeclares := declaresAt h.declared hfetch hanswered
  refine ⟨hdeclares, ?_⟩
  obtain ⟨hgraph, -⟩ :=
    (h.loads fetch hfetch).loaded key _ (ModuleMap.dependencies?_of_isLoaded hkey)
  rw [hdeclares key rfl]
  unfold Fetcher.dependencies? at hgraph
  cases hdeclaration : fetch.declaration? key with
  | none => simp [hdeclaration] at hgraph
  | some declaration => exact ⟨declaration, rfl⟩

/-- A module that is settled has its resource in the catalog. -/
theorem Sound.answered_of_isPending (h : c.Sound importMap) (hkey : c.map.isPending key = false) :
    (c.answer? key.url).isSome := by
  refine h.answered key fun hregistered => ?_
  obtain ⟨-, hprogress⟩ := Entry.status_eq_registered_iff.1 hregistered
  simp [ModuleMap.isPending, hregistered, Entry.isLoaded, hprogress, Progress.dependencies?] at hkey

/-- Asking for resources leaves a catalog sound. -/
theorem Sound.gathers (h : c.Sound importMap) (hgathers : c.Gathers library c') :
    c'.Sound importMap := by
  constructor
  case distinct => exact hgathers.distinct h.distinct
  case once => exact hgathers.once h.once
  case declared => exact hgathers.declared h.declared
  case idle => exact fun k hk => h.idle k (hgathers.status k ▸ hk)
  case answered =>
    intro k hk
    rw [hgathers.status] at hk
    exact hgathers.answers.isSome_answer? (h.answered k hk)
  case loads =>
    intro fetch hfetch
    have hloads := h.loads fetch (hfetch.of_asks hgathers.answers)
    exact hloads.of_eq (fun k => by rw [hgathers.progress]) fun k => .inl (hgathers.failure k)
  case instances =>
    intro k
    simp only [Entry.instance?, Entry.dependencies, hgathers.progress]
    exact h.instances k
  case evaluations =>
    intro k
    simp only [hgathers.status, Entry.dependencies, hgathers.progress]
    exact h.evaluations k

/-- Asking for resources leaves the modules alone that are more than registered. -/
theorem Sound.entry_of_gathers (h : c.Sound importMap) (hgathers : c.Gathers library c')
    (hkey : (c.map.entry key).status ≠ .registered) : c'.map.entry key = c.map.entry key := by
  obtain ⟨answer, hanswer⟩ := Option.isSome_iff_exists.1 (h.answered key hkey)
  have hdeclaration : (c'.map.entry key).declaration = (c.map.entry key).declaration := by
    rw [hgathers.declared h.declared key, h.declared key, declaration?, declaration?, hanswer,
      hgathers.answers.answer? hanswer]
  have hprogress := hgathers.progress key
  have hfailure := hgathers.failure key
  have hsame : (c'.map.entry key).key = (c.map.entry key).key := by
    rw [ModuleMap.entry_key, ModuleMap.entry_key]
  generalize c.map.entry key = e, c'.map.entry key = e' at hsame hdeclaration hprogress hfailure
  cases e
  cases e'
  simp_all

/-- A complete plan agrees with the import graph of each fetcher that gives the answers. -/
theorem Sound.agrees (h : c.Sound importMap) (hplan : plan.Complete importMap c key)
    (hfetch : c.AnsweredBy fetch) : plan.Agrees importMap fetch c.map := by
  have hanswered : ∀ k, plan.Covers c.map k → (c.answer? k.url).isSome := by
    intro k hk
    rcases hk with hk | hk
    · obtain ⟨node, hnode⟩ := Option.isSome_iff_exists.1 hk
      obtain ⟨answer, hanswer, -⟩ := hplan.node k node hnode
      exact Option.isSome_iff_exists.2 ⟨answer, hanswer⟩
    · exact h.answered_of_isPending hk
  constructor
  case node =>
    intro k node hnode
    obtain ⟨answer, hanswer, rfl⟩ := hplan.node k node hnode
    rw [hfetch _ _ hanswer]
  case dependencies => exact hplan.dependencies
  case declares => exact fun k hk => declaresAt h.declared hfetch (hanswered k hk)

/-- The walk by a complete plan leaves a catalog sound. -/
theorem Sound.settle (h : c.Sound importMap) (hplan : plan.Complete importMap c key)
    {map : ModuleMap}
    (hmap : ∀ fetch, c.AnsweredBy fetch → LoadWalk.Settled importMap fetch plan c.map map) :
    ({ c with map } : Catalog).Sound importMap := by
  -- all but `loads` is the same for each fetcher that gives the answers
  obtain ⟨fetch, hfetch⟩ := c.exists_answeredBy
  obtain ⟨-, hgrows, hidle, hcovered⟩ := hmap fetch hfetch
  have hkept : ∀ k, (map.entry k).instance?.isSome → map.entry k = c.map.entry k := by
    intro k hk
    refine hgrows.kept k fun hregistered => ?_
    simp [(hgrows.fresh k hregistered).1] at hk
  constructor
  case distinct => exact hgrows.distinct h.distinct
  case once => exact h.once
  case declared => exact fun k => (hgrows.declaration k).trans (h.declared k)
  case idle => exact hidle
  case answered =>
    intro k hk
    rcases hcovered k hk with hk | hk
    · obtain ⟨node, hnode⟩ := Option.isSome_iff_exists.1 hk
      obtain ⟨answer, hanswer, -⟩ := hplan.node k node hnode
      exact Option.isSome_iff_exists.2 ⟨answer, hanswer⟩
    · exact h.answered_of_isPending hk
  case loads => exact fun fetch hfetch => (hmap fetch hfetch).sound
  case instances =>
    intro k hk d hd
    simp only [hkept k hk] at hk hd
    have hinstance := h.instances k hk d hd
    show (map.entry d).instance?.isSome
    rw [hgrows.kept d]
    · exact hinstance
    · exact Entry.status_ne_registered_of_isLoaded (Entry.isLoaded_of_instance hinstance)
  case evaluations =>
    intro k hk d hd
    simp only [hkept k (Entry.instance_isSome_of_evaluated hk)] at hk hd
    have hevaluated := h.evaluations k hk d hd
    show (map.entry d).status = .evaluated
    rw [hgrows.kept d]
    · exact hevaluated
    · simp [hevaluated]

/-- What a walk by a complete plan leaves behind: only modules change that are planned. -/
structure Walked (importMap : ImportMap) (plan : Plan) (c : Catalog) (map : ModuleMap) : Prop where
  sound : ({ c with map } : Catalog).Sound importMap
  grows : c.map.Grows map
  covered : ∀ key, (map.entry key).status ≠ .registered → plan.Covers c.map key

/-- The walk by a complete plan loads a module, or fails it with the fault that it reports. -/
theorem Sound.ends_walk (h : c.Sound importMap) (hplan : plan.Complete importMap c key) :
    Ends (LoadWalk.run plan key) ⟨c.map, []⟩
      (fun _ w => Walked importMap plan c w.map ∧ (w.map.entry key).isLoaded)
      fun halt w => ∃ fault, halt = .fault fault ∧ Walked importMap plan c w.map ∧
        (w.map.entry key).failure = some (.load fault) := by
  have hends : ∀ fetch, c.AnsweredBy fetch → _ := fun fetch hfetch =>
    LoadWalk.ends_run (h.agrees hplan hfetch) h.idle (h.loads fetch hfetch) hplan.root
  obtain ⟨fetch, hfetch⟩ := c.exists_answeredBy
  unfold Ends
  cases hrun : LoadWalk.run plan key ⟨c.map, []⟩ with
  | ok _ w =>
      have hok := fun fetch hfetch => (hends fetch hfetch).of_ok hrun
      obtain ⟨hsettled, hloaded⟩ := hok fetch hfetch
      exact ⟨⟨h.settle hplan fun fetch hfetch => (hok fetch hfetch).1, hsettled.grows,
        hsettled.covered⟩, hloaded⟩
  | error halt w =>
      have herror := fun fetch hfetch => (hends fetch hfetch).of_error hrun
      obtain ⟨fault, rfl, hsettled, hfailure⟩ := herror fetch hfetch
      refine ⟨fault, rfl, ⟨h.settle hplan fun fetch hfetch => ?_, hsettled.grows,
        hsettled.covered⟩, hfailure⟩
      obtain ⟨_, -, hsettled', -⟩ := herror fetch hfetch
      exact hsettled'

/-- What loading does to a catalog: resources are gathered, and then registered modules change. -/
def Loads (library : Library) (c c' : Catalog) : Prop :=
  ∃ map, c.Gathers library { c' with map } ∧ map.Grows c'.map

/-- Gathering is a load that changes no module. -/
theorem Gathers.loads (h : c.Gathers library c') : c.Loads library c' :=
  ⟨c'.map, h, .refl⟩

/-- A load leaves known what is known. -/
theorem Loads.known (h : c.Loads library c') (hkey : c.map.IsKnown key) : c'.map.IsKnown key := by
  obtain ⟨map, hgathers, hgrows⟩ := h
  exact hgrows.known key (hgathers.known key hkey)

/-- Loading takes no answers but those of the library. -/
theorem Loads.asks (h : c.Loads library c') : c.Asks library c' := by
  obtain ⟨map, hgathers, -⟩ := h
  exact hgathers.answers

/-- Loading leaves the modules alone that are more than registered. -/
theorem Sound.entry_of_loads (h : c.Sound importMap) (hloads : c.Loads library c')
    (hkey : (c.map.entry key).status ≠ .registered) : c'.map.entry key = c.map.entry key := by
  obtain ⟨map, hgathers, hgrows⟩ := hloads
  rw [hgrows.kept key (hgathers.status key ▸ hkey)]
  exact h.entry_of_gathers hgathers hkey

/-- Loading links no module. -/
theorem Loads.isUnlinked (h : c.Loads library c')
    (hkey : (c.map.entry key).status = .registered) : (c'.map.entry key).IsUnlinked := by
  obtain ⟨map, hgathers, hgrows⟩ := h
  exact hgrows.fresh key ((hgathers.status key).trans hkey)

/-- Loading a settled module does no more than register it. Any other module is walked by its
plan. -/
theorem ends_load_of {registered : Catalog} {ok : Unit → Catalog → Prop}
    {error : Halt LoadFault → Catalog → Prop}
    (hregistered : registered = { c with map := c.map.register key })
    (hloaded : (registered.map.entry key).isLoaded → ok () registered)
    (hfailed : ∀ fault, (registered.map.entry key).failure = some (.load fault) →
      error (.fault fault) registered)
    (hwalk : ∀ c' plan, discover importMap library registered key = (c', plan) →
      Ends (LoadWalk.run plan key) ⟨c'.map, []⟩ (fun _ w => ok () { c' with map := w.map })
        fun halt w => error halt { c' with map := w.map }) :
    Ends (Catalog.load importMap library key) c ok error := by
  unfold Ends Catalog.load
  rw [← hregistered]
  dsimp only
  by_cases hkey : (registered.map.entry key).isLoaded
  · rw [if_pos hkey]
    exact hloaded hkey
  rw [if_neg hkey]
  cases hfault : (registered.map.entry key).loadFault? with
  | some fault => exact hfailed fault (Entry.loadFault?_eq_some_iff.1 hfault)
  | none =>
      have hends := hwalk _ _ rfl
      dsimp only
      cases hrun : LoadWalk.run (discover importMap library registered key).2 key
          ⟨(discover importMap library registered key).1.map, []⟩ with
      | ok _ w => exact hends.of_ok hrun
      | error halt w => exact hends.of_error hrun

/-- Loading a module keeps a catalog sound. It ends with the module loaded, or failed with the fault
that the call reports. -/
theorem Sound.ends_load (h : c.Sound importMap) (library : Library) (key : ModuleKey) :
    Ends (Catalog.load importMap library key) c
      (fun _ c' => c'.Sound importMap ∧ c.Loads library c' ∧ (c'.map.entry key).isLoaded)
      fun halt c' => ∃ fault, halt = .fault fault ∧ c'.Sound importMap ∧
        c.Loads library c' ∧ (c'.map.entry key).failure = some (.load fault) := by
  have hgathers := gathers_register library c key
  have hsound := h.gathers hgathers
  refine ends_load_of rfl (fun hloaded => ⟨hsound, hgathers.loads, hloaded⟩)
    (fun fault hfailure => ⟨fault, rfl, hsound, hgathers.loads, hfailure⟩) fun c' plan hplan => ?_
  obtain ⟨hgathers', hcomplete⟩ := discover_complete importMap library key hsound.once
  rw [hplan] at hgathers' hcomplete
  have hboth := hgathers.trans hgathers'
  refine ((hsound.gathers hgathers').ends_walk hcomplete).mono ?_ ?_
  · rintro _ w ⟨hwalked, hloaded⟩
    exact ⟨hwalked.sound, ⟨c'.map, hboth, hwalked.grows⟩, hloaded⟩
  · rintro _ w ⟨fault, rfl, hwalked, hfailure⟩
    exact ⟨fault, rfl, hwalked.sound, ⟨c'.map, hboth, hwalked.grows⟩, hfailure⟩

/-- Loading a module succeeds if and only if the module leads to no faulty one. -/
theorem Sound.load_iff (h : c.Sound importMap) (hfetch : c.AnsweredBy library.fetch)
    (key : ModuleKey) : (∃ c', Catalog.load importMap library key c = .ok () c') ↔
      ∀ m, Fetcher.Reaches importMap library.fetch key m →
        ¬ Fetcher.Faulty importMap library.fetch m := by
  have hload := h.ends_load library key
  cases hresult : Catalog.load importMap library key c with
  | ok _ c' =>
      obtain ⟨hsound, hloads, hloaded⟩ := hload.of_ok hresult
      have hgraph := hsound.loads library.fetch (hfetch.asks hloads.asks)
      exact iff_of_true ⟨c', rfl⟩ fun m hm => hgraph.not_faulty_of_reaches hloaded hm
  | error halt c' =>
      obtain ⟨fault, rfl, hsound, hloads, hfailure⟩ := hload.of_error hresult
      have hgraph := hsound.loads library.fetch (hfetch.asks hloads.asks)
      obtain ⟨-, hfaulty, hreaches, -⟩ := hgraph.failed key fault hfailure
      refine iff_of_false ?_ fun hnone => hnone fault.key hreaches hfaulty
      rintro ⟨c'', ⟨⟩⟩

/-- A complete plan has a node for all that its root leads to, if nothing has been settled. -/
theorem isSome_node?_of_reaches {root m : ModuleKey} (hplan : plan.Complete importMap c root)
    (hpending : ∀ k, c.map.isPending k) (hfetch : c.AnsweredBy fetch)
    (hreaches : fetch.Reaches importMap root m) : (plan.node? m).isSome := by
  have hplanned : ∀ k, plan.Covers c.map k → (plan.node? k).isSome :=
    fun k hk => hk.resolve_right (by simp [hpending k])
  induction hreaches with
  | refl => exact hplanned root hplan.root
  | @tail a b _ himports ih =>
      obtain ⟨node, hnode⟩ := Option.isSome_iff_exists.1 ih
      obtain ⟨answer, hanswer, heq⟩ := hplan.node a node hnode
      rw [← hfetch _ _ hanswer] at heq
      refine hplanned b (hplan.dependencies a node hnode b ?_)
      exact heq ▸ Fetcher.mem_dependencies_ofAnswer.2 himports

/-- A module leads to finitely many modules in the import graph of a library. -/
theorem exists_reached (importMap : ImportMap) (library : Library) (root : ModuleKey) :
    ∃ keys : List ModuleKey, ∀ m, Fetcher.Reaches importMap library.fetch root m → m ∈ keys := by
  obtain ⟨hgathers, hcomplete⟩ :=
    discover_complete importMap library (c := Catalog.empty) root List.nodup_nil
  have hfetch : Catalog.empty.AnsweredBy library.fetch := fun url answer hanswer => by cases hanswer
  have hanswers := hfetch.asks hgathers.answers
  generalize discover importMap library Catalog.empty root = d at hgathers hcomplete hanswers
  refine ⟨d.2.map Prod.fst, fun m hm => ?_⟩
  obtain ⟨node, hnode⟩ := Option.isSome_iff_exists.1
    (isSome_node?_of_reaches hcomplete (fun k => hgathers.isPending k) hanswers hm)
  exact List.mem_map.2 ⟨(m, node), mem_of_lookup hnode, rfl⟩

end Catalog

/-! ## Steps after loading -/

/-- What linking and evaluation do to a map: modules that are not loaded stay as they are, and the
others keep their dependencies and do not become load failures. -/
structure ModuleMap.Advances (map map' : ModuleMap) : Prop where
  known : ∀ key, map'.IsKnown key ↔ map.IsKnown key
  distinct : map.Distinct → map'.Distinct
  unloaded : ∀ key, (map.entry key).isLoaded = false → map'.entry key = map.entry key
  declaration : ∀ key, (map'.entry key).declaration = (map.entry key).declaration
  dependencies : ∀ key,
    (map'.entry key).progress.dependencies? = (map.entry key).progress.dependencies?
  failure : ∀ key fault, (map'.entry key).failure = some (.load fault) →
    (map.entry key).failure = some (.load fault)

namespace ModuleMap.Advances

variable {map map' map'' : ModuleMap} {key : ModuleKey}

/-- Nothing advances in a map that is the same. -/
theorem refl : map.Advances map := by
  constructor <;> simp

/-- No module becomes loaded or ceases to be so. -/
theorem isLoaded (h : map.Advances map') (key : ModuleKey) :
    (map'.entry key).isLoaded = (map.entry key).isLoaded := by
  rw [Entry.isLoaded, h.dependencies key, Entry.isLoaded]

/-- Modules advance over any number of steps. -/
theorem trans (h : map.Advances map') (h' : map'.Advances map'') : map.Advances map'' := by
  constructor
  case known => exact fun k => (h'.known k).trans (h.known k)
  case distinct => exact fun hmap => h'.distinct (h.distinct hmap)
  case unloaded =>
    intro k hk
    rw [h'.unloaded k ((h.isLoaded k).trans hk), h.unloaded k hk]
  case declaration => exact fun k => (h'.declaration k).trans (h.declaration k)
  case dependencies => exact fun k => (h'.dependencies k).trans (h.dependencies k)
  case failure => exact fun k fault hk => h.failure k fault (h'.failure k fault hk)

/-- A step of several loaded modules. -/
theorem of_altersAll {keys : List ModuleKey} {change : Entry → Entry → Prop}
    (halters : map.AltersAll keys change map') (hloaded : ∀ k ∈ keys, (map.entry k).isLoaded)
    (hchange : ∀ e e', change e e' → e.isLoaded → e'.declaration = e.declaration ∧
      e'.progress.dependencies? = e.progress.dependencies? ∧ e'.failure = e.failure) :
    map.Advances map' := by
  have hsame : ∀ k, (map'.entry k).declaration = (map.entry k).declaration ∧
      (map'.entry k).progress.dependencies? = (map.entry k).progress.dependencies? ∧
      (map'.entry k).failure = (map.entry k).failure := by
    intro k
    by_cases hk : k ∈ keys
    · exact hchange _ _ (halters.altered k hk) (hloaded k hk)
    · rw [halters.kept k hk]
      exact ⟨rfl, rfl, rfl⟩
  constructor
  case known => exact halters.known
  case distinct => exact halters.distinct
  case unloaded =>
    intro k hk
    refine halters.kept k fun hmem => ?_
    rw [hloaded k hmem] at hk
    simp at hk
  case declaration => exact fun k => (hsame k).1
  case dependencies => exact fun k => (hsame k).2.1
  case failure => exact fun k fault hfault => (hsame k).2.2 ▸ hfault

end ModuleMap.Advances

/-- A catalog stays sound when loaded modules take steps, as long as instances and evaluations come
to everything that a module depends on. -/
theorem Catalog.Sound.advance {importMap : ImportMap} {c : Catalog} {map : ModuleMap}
    (h : c.Sound importMap) (hmap : c.map.Advances map)
    (hinstances : ∀ key, (map.entry key).instance?.isSome →
      ∀ d ∈ (map.entry key).dependencies, (map.entry d).instance?.isSome)
    (hevaluations : ∀ key, (map.entry key).status = .evaluated →
      ∀ d ∈ (map.entry key).dependencies, (map.entry d).status = .evaluated) :
    ({ c with map } : Catalog).Sound importMap := by
  -- only loaded modules advance, and what is said of loading is said of the others
  have hunloaded : ∀ k, (map.entry k).isLoaded = false → map.entry k = c.map.entry k := by
    intro k hk
    rw [hmap.isLoaded] at hk
    exact hmap.unloaded k hk
  constructor
  case distinct => exact hmap.distinct h.distinct
  case once => exact h.once
  case declared => exact fun k => (hmap.declaration k).trans (h.declared k)
  case idle =>
    intro k hk
    obtain ⟨-, hprogress⟩ := Entry.status_eq_loading_iff.1 hk
    rw [hunloaded k (by simp [Entry.isLoaded, hprogress, Progress.dependencies?])] at hk
    exact h.idle k hk
  case answered =>
    intro k hk
    refine h.answered k ?_
    cases hloaded : (c.map.entry k).isLoaded with
    | true => exact Entry.status_ne_registered_of_isLoaded hloaded
    | false => rwa [← hmap.unloaded k hloaded]
  case loads =>
    intro fetch hfetch
    have hloads := h.loads fetch hfetch
    refine hloads.of_eq hmap.dependencies fun k => ?_
    cases hloaded : (c.map.entry k).isLoaded with
    | false => exact .inl (by rw [hmap.unloaded k hloaded])
    | true =>
        refine .inr ⟨rfl, fun fault hfault => ?_⟩
        have hnot := (hloads.failed k fault (hmap.failure k fault hfault)).1
        rw [hloaded] at hnot
        simp at hnot
  case instances => exact hinstances
  case evaluations => exact hevaluations

end ModuleGraph
