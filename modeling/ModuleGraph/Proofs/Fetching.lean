import ModuleGraph.Proofs.SoundCatalogs

/-!
# What a load asks for and what it changes

A load goes from module to module by requests. `Catalog.Confined` says what follows for the catalog:
all URLs that are asked for are those of modules to which the root leads, and only such modules
change, each from where it is allowed to change. `Sound.ends_load_confined` is this statement for
loads, whether they succeed or fail, and `Sound.ends_load_asks` says that a load which finds nothing
settled asks for the URLs of all modules to which its root leads.

A plan in the making has seen what its root leads to and nothing else (`Discovery.Traced`), for each
fetcher that gives the answers which have been had at its end.
-/

namespace ModuleGraph

/-- The module has not moved: its progress and its failure are what they were, and so are its
status, its dependencies and its instance. -/
def Entry.Stays (e e' : Entry) : Prop :=
  e'.progress = e.progress ∧ e'.failure = e.failure

/-- An entry that is the same has not moved. -/
theorem Entry.Stays.of_eq {e e' : Entry} (h : e' = e) : e.Stays e' :=
  h ▸ ⟨rfl, rfl⟩

/-- A module that does not move in two steps does not move in both. -/
theorem Entry.Stays.trans {e e' e'' : Entry} (h : e.Stays e') (h' : e'.Stays e'') : e.Stays e'' :=
  ⟨h'.1.trans h.1, h'.2.trans h.2⟩

/-- A module that has not moved has its status. -/
theorem Entry.Stays.status_eq {e e' : Entry} (h : e.Stays e') : e'.status = e.status := by
  rw [Entry.status, h.1, h.2, Entry.status]

/-- A module that is still registered has not moved. -/
theorem Entry.Stays.of_registered {e e' : Entry} (h : e.status = .registered)
    (h' : e'.status = .registered) : e.Stays e' := by
  rw [Entry.status_eq_registered_iff] at h h'
  exact ⟨h'.2.trans h.2.symm, h'.1.trans h.1.symm⟩

/-- The URLs of the modules to which a module leads. -/
def Fetcher.ReachesUrl (importMap : ImportMap) (fetch : Fetcher) (root : ModuleKey) (url : Url) :
    Prop :=
  ∃ m, fetch.Reaches importMap root m ∧ m.url = url

namespace Catalog

variable {importMap : ImportMap} {library : Library} {fetch : Fetcher} {c c' c'' : Catalog}
  {wanted wanted' : Url → Prop} {movable : Status → Prop} {root key : ModuleKey}

/-- One catalog has the answers of another one, and besides only answers to some URLs. -/
def AsksFor (wanted : Url → Prop) (c c' : Catalog) : Prop :=
  ∃ new, c'.answers = c.answers ++ new ∧ ∀ a ∈ new, wanted a.1

/-- A catalog with the same answers has asked for nothing more. -/
theorem AsksFor.of_eq (h : c'.answers = c.answers) : c.AsksFor wanted c' :=
  ⟨[], by simp [h]⟩

/-- Asking for some of the wanted addresses twice asks for some of them. -/
theorem AsksFor.trans (h : c.AsksFor wanted c') (h' : c'.AsksFor wanted c'') :
    c.AsksFor wanted c'' := by
  obtain ⟨new, hnew, hwanted⟩ := h
  obtain ⟨new', hnew', hwanted'⟩ := h'
  refine ⟨new ++ new', by rw [hnew', hnew, List.append_assoc], fun a ha => ?_⟩
  exact (List.mem_append.1 ha).elim (hwanted a) (hwanted' a)

/-- What is asked for among some addresses is asked for among more. -/
theorem AsksFor.mono (h : c.AsksFor wanted c') (hwanted : ∀ url, wanted url → wanted' url) :
    c.AsksFor wanted' c' := by
  obtain ⟨new, hnew, hall⟩ := h
  exact ⟨new, hnew, fun a ha => hwanted a.1 (hall a ha)⟩

/-- The URLs that have been asked for since are wanted. -/
theorem AsksFor.fetched (h : c.AsksFor wanted c') :
    ∃ new, c'.fetched = c.fetched ++ new ∧ ∀ url ∈ new, wanted url := by
  obtain ⟨new, hnew, hwanted⟩ := h
  refine ⟨new.map Prod.fst, by rw [Catalog.fetched, hnew, List.map_append, Catalog.fetched],
    fun url hurl => ?_⟩
  obtain ⟨a, ha, rfl⟩ := List.mem_map.1 hurl
  exact hwanted a ha

/-- The answers of a catalog belong to a fetcher if those of a later one do. -/
theorem AnsweredBy.of_asksFor (h : c'.AnsweredBy fetch) (hasks : c.AsksFor wanted c') :
    c.AnsweredBy fetch := by
  intro url answer hanswer
  obtain ⟨new, hnew, -⟩ := hasks
  refine h url answer ?_
  rw [Catalog.answer?] at hanswer ⊢
  rw [hnew, List.lookup_append, hanswer, Option.some_or]

/-- The fetched addresses are those with an answer. -/
theorem mem_fetched_iff {url : Url} : url ∈ c.fetched ↔ (c.answer? url).isSome := by
  rw [Catalog.fetched, Catalog.answer?, List.lookup_isSome_iff, List.mem_map]
  refine exists_congr fun a => and_congr_right fun _ => ?_
  rw [beq_iff_eq, eq_comm]

/-- Obtaining a resource asks for its address only. -/
theorem asksFor_obtain (library : Library) (c : Catalog) (url : Url) :
    c.AsksFor (· = url) (c.obtain library url) := by
  unfold Catalog.obtain
  cases c.answer? url with
  | some answer => exact .of_eq rfl
  | none => exact ⟨[(url, library.fetch url)], rfl, by simp⟩

/-- Obtaining resources for several keys asks for their addresses only. -/
theorem asksFor_obtainAll (library : Library) (c : Catalog) (keys : List ModuleKey) :
    c.AsksFor (fun url => ∃ key ∈ keys, key.url = url)
      ((keys.map ModuleKey.url).foldl (fun c url => c.obtain library url) c) := by
  induction keys generalizing c with
  | nil => exact .of_eq rfl
  | cons key keys ih =>
      refine ((asksFor_obtain library c key.url).mono fun url hurl => ?_).trans
        ((ih (c.obtain library key.url)).mono fun url hurl => ?_)
      · exact ⟨key, List.mem_cons_self, hurl.symm⟩
      · obtain ⟨k, hk, hkurl⟩ := hurl
        exact ⟨k, List.mem_cons_of_mem key hk, hkurl⟩

end Catalog

/-! ## Plans follow requests -/

namespace Discovery

variable {importMap : ImportMap} {library : Library} {start : Catalog} {root : ModuleKey}
  {d : Discovery}

/-- A wave asks for the URLs of its keys only. -/
theorem asksFor_step (importMap : ImportMap) (library : Library) (d : Discovery) :
    d.catalog.AsksFor (fun url => ∃ key ∈ d.wave, key.url = url)
      (d.step importMap library).catalog := by
  obtain ⟨new, hnew, hwanted⟩ := Catalog.asksFor_obtainAll library
    { d.catalog with map := d.wave.foldl ModuleMap.register d.catalog.map }
    (d.wave.filter (d.wave.foldl ModuleMap.register d.catalog.map).isPending)
  refine ⟨new, hnew, fun a ha => ?_⟩
  obtain ⟨key, hkey, hurl⟩ := hwanted a ha
  exact ⟨key, List.mem_of_mem_filter hkey, hurl⟩

/-- A plan in the making has seen only what its root leads to, and has asked only for the URLs of
what it has seen. -/
structure Traced (importMap : ImportMap) (start : Catalog) (root : ModuleKey) (d : Discovery) :
    Prop where
  asks : start.AsksFor (fun url => ∃ key ∈ d.seen, key.url = url) d.catalog
  seen : ∀ fetch : Fetcher, d.catalog.AnsweredBy fetch →
    ∀ key ∈ d.seen, fetch.Reaches importMap root key

/-- Before the first wave only the root has been seen. -/
theorem traced_start : Traced importMap start root (Discovery.start start root) := by
  refine ⟨.of_eq rfl, fun fetch _ key hkey => ?_⟩
  obtain rfl : key = root := List.mem_singleton.1 hkey
  exact .refl

/-- What a wave sees is requested by a module that has been seen. -/
theorem traced_step (h : Inv importMap library start root d) (h' : Traced importMap start root d) :
    Traced importMap start root (d.step importMap library) := by
  have hasks := asksFor_step importMap library d
  obtain ⟨catalog, nodes, hstep, -, hkeys, hnodes⟩ := step_eq importMap library d
  rw [hstep] at hasks ⊢
  constructor
  case asks =>
    refine (h'.asks.mono fun url hurl => ?_).trans (hasks.mono fun url hurl => ?_)
    · obtain ⟨key, hkey, hkeyUrl⟩ := hurl
      exact ⟨key, List.mem_append_left _ hkey, hkeyUrl⟩
    · obtain ⟨key, hkey, hkeyUrl⟩ := hurl
      exact ⟨key, List.mem_append_left _ (h.growing.left_seen key hkey), hkeyUrl⟩
  case seen =>
    intro fetch hfetch key hkey
    have hold := h'.seen fetch (hfetch.of_asksFor hasks)
    rcases List.mem_append.1 hkey with hkey | hkey
    · exact hold key hkey
    · obtain ⟨n, hn, hdependency⟩ := List.mem_flatMap.1 (mem_unseen.1 hkey).1
      obtain ⟨answer, hanswer, hnode⟩ := hnodes n hn
      rw [← hfetch _ _ hanswer] at hnode
      rw [hnode, Fetcher.mem_dependencies_ofAnswer] at hdependency
      have hwave : n.1 ∈ d.wave := by
        have hmem : n.1 ∈ nodes.map Prod.fst := List.mem_map_of_mem hn
        rw [hkeys] at hmem
        exact List.mem_of_mem_filter hmem
      exact (hold n.1 (h.growing.left_seen n.1 hwave)).tail hdependency

/-- After any number of waves a plan has seen only what its root leads to. -/
theorem traced_run (n : Nat) (h : Inv importMap library start root d)
    (h' : Traced importMap start root d) :
    Traced importMap start root (d.run importMap library n) := by
  induction n generalizing d with
  | zero => exact h'
  | succ n ih =>
      unfold run
      split
      · exact h'
      · exact ih (inv_step h) (traced_step h h')

end Discovery

/-- The plan for a module has asked for nothing and has planned nothing but what the module leads
to. -/
theorem discover_traced (importMap : ImportMap) (library : Library) (c : Catalog) (root : ModuleKey)
    {fetch : Fetcher} (hfetch : (discover importMap library c root).1.AnsweredBy fetch) :
    c.AsksFor (fetch.ReachesUrl importMap root) (discover importMap library c root).1 ∧
      ∀ m, ((discover importMap library c root).2.node? m).isSome →
        fetch.Reaches importMap root m := by
  unfold discover at hfetch ⊢
  have hstart : Discovery.Inv importMap library c root (Discovery.start c root) :=
    Discovery.inv_start
  have hinv := Discovery.inv_run (Discovery.bound library c) hstart
  have htraced := Discovery.traced_run (Discovery.bound library c) hstart Discovery.traced_start
  generalize (Discovery.start c root).run importMap library (Discovery.bound library c) = d
    at hfetch hinv htraced
  refine ⟨htraced.asks.mono fun url hurl => ?_, fun m hm => ?_⟩
  · obtain ⟨key, hkey, hkeyUrl⟩ := hurl
    exact ⟨key, htraced.seen fetch hfetch key hkey, hkeyUrl⟩
  · obtain ⟨node, hnode⟩ := Option.isSome_iff_exists.1 hm
    have hplanned : m ∈ d.plan.map Prod.fst := List.mem_map.2 ⟨_, mem_of_lookup hnode, rfl⟩
    exact htraced.seen fetch hfetch m (hinv.growing.planned m hplanned).1

/-! ## Loads -/

namespace Catalog

variable {importMap : ImportMap} {library : Library} {fetch : Fetcher} {c c' c'' : Catalog}
  {wanted : Url → Prop} {movable movable' : Status → Prop} {root key : ModuleKey}

/-- What has happened to a catalog concerns only what a module leads to: the URLs that have been
asked for, and the modules that have moved, each from a status in which it may move. -/
structure Confined (importMap : ImportMap) (fetch : Fetcher) (movable : Status → Prop)
    (root : ModuleKey) (c c' : Catalog) : Prop where
  asks : c.AsksFor (fetch.ReachesUrl importMap root) c'
  moved : ∀ m, (c.map.entry m).Stays (c'.map.entry m) ∨
    movable (c.map.entry m).status ∧ fetch.Reaches importMap root m

/-- Nothing has happened to a catalog that is the same. -/
theorem Confined.refl : Confined importMap fetch movable root c c :=
  ⟨.of_eq rfl, fun _ => .inl (.of_eq rfl)⟩

/-- What has moved from a status in which it may move has done so when it may move from more. -/
theorem Confined.mono (h : Confined importMap fetch movable root c c')
    (hmovable : ∀ status, movable status → movable' status) :
    Confined importMap fetch movable' root c c' :=
  ⟨h.asks, fun m => (h.moved m).imp id fun hm => ⟨hmovable _ hm.1, hm.2⟩⟩

/-- What is confined in two steps is confined in both. -/
theorem Confined.trans (h : Confined importMap fetch movable root c c')
    (h' : Confined importMap fetch movable root c' c'') :
    Confined importMap fetch movable root c c'' := by
  refine ⟨h.asks.trans h'.asks, fun m => ?_⟩
  rcases h.moved m with hstays | hmoved
  · rcases h'.moved m with hstays' | hmoved'
    · exact .inl (hstays.trans hstays')
    · exact .inr ⟨hstays.status_eq ▸ hmoved'.1, hmoved'.2⟩
  · exact .inr hmoved

/-- Loading moves registered modules only, and only those to which the root leads. -/
theorem Sound.ends_load_confined (h : c.Sound importMap) (library : Library) (root : ModuleKey) :
    Ends (Catalog.load importMap library root) c
      (fun _ c' => ∀ fetch, c'.AnsweredBy fetch →
        c.Confined importMap fetch (· = .registered) root c')
      fun _ c' => ∀ fetch, c'.AnsweredBy fetch →
        c.Confined importMap fetch (· = .registered) root c' := by
  have hgathers := gathers_register library c root
  have hsound := h.gathers hgathers
  have hstays : ∀ fetch, c.Confined importMap fetch (· = .registered) root
      { c with map := c.map.register root } :=
    fun fetch => ⟨.of_eq rfl, fun m => .inl (.of_eq ModuleMap.entry_register)⟩
  refine ends_load_of rfl (fun _ fetch _ => hstays fetch) (fun _ _ fetch _ => hstays fetch)
    fun c' plan hplan => ?_
  obtain ⟨hgathers', hcomplete⟩ := discover_complete importMap library root hsound.once
  have htraced : ∀ fetch, c'.AnsweredBy fetch → c.AsksFor (fetch.ReachesUrl importMap root) c' ∧
      ∀ m, (plan.node? m).isSome → fetch.Reaches importMap root m := by
    intro fetch hfetch
    have hanswered : (discover importMap library { c with map := c.map.register root }
        root).1.AnsweredBy fetch := by
      rwa [hplan]
    have hlater := discover_traced importMap library _ root hanswered
    rwa [hplan] at hlater
  rw [hplan] at hgathers' hcomplete
  have hboth := hgathers.trans hgathers'
  -- what the walk leaves behind, whatever it answers
  have hwalk : ∀ map, Walked importMap plan c' map → ∀ fetch, c'.AnsweredBy fetch →
      c.Confined importMap fetch (· = .registered) root { c' with map } := by
    intro map hwalked fetch hfetch
    obtain ⟨hasks, hreaches⟩ := htraced fetch hfetch
    refine ⟨hasks, fun m => ?_⟩
    by_cases hregistered : (c.map.entry m).status = .registered
    · have hbefore : (c'.map.entry m).status = .registered := (hboth.status m).trans hregistered
      by_cases hstill : (map.entry m).status = .registered
      · exact .inl (.of_registered hregistered hstill)
      · refine .inr ⟨hregistered, hreaches m ((hwalked.covered m hstill).resolve_right ?_)⟩
        obtain ⟨-, hprogress⟩ := Entry.status_eq_registered_iff.1 hbefore
        simp [ModuleMap.isPending, hbefore, Entry.isLoaded, hprogress, Progress.dependencies?]
    · exact .inl (.of_eq (h.entry_of_loads ⟨c'.map, hboth, hwalked.grows⟩ hregistered))
  refine ((hsound.gathers hgathers').ends_walk hcomplete).mono ?_ ?_
  · intro _ w hend
    exact hwalk w.map hend.1
  · intro _ w hend
    obtain ⟨_, -, hwalked, -⟩ := hend
    exact hwalk w.map hwalked

/-- A load that finds nothing settled asks for the URLs of all that its root leads to, whether it
succeeds or fails. -/
theorem Sound.ends_load_asks (h : c.Sound importMap) (hfetch : c.AnsweredBy library.fetch)
    (hpending : ∀ k, c.map.isPending k) (root : ModuleKey) :
    Ends (Catalog.load importMap library root) c
      (fun _ c' => ∀ m, Fetcher.Reaches importMap library.fetch root m → m.url ∈ c'.fetched)
      fun _ c' => ∀ m, Fetcher.Reaches importMap library.fetch root m → m.url ∈ c'.fetched := by
  have hgathers := gathers_register library c root
  have hsound := h.gathers hgathers
  have hunsettled : (c.map.entry root).isLoaded = false ∧ (c.map.entry root).status ≠ .failed := by
    simpa [ModuleMap.isPending] using hpending root
  refine ends_load_of rfl (fun hloaded => ?loaded) (fun fault hfailure => ?failed)
    fun c' plan hplan => ?walked
  case loaded =>
    rw [hgathers.isLoaded, hunsettled.1] at hloaded
    cases hloaded
  case failed =>
    rw [hgathers.failure] at hfailure
    exact absurd (by simp [hfailure]) hunsettled.2
  case walked =>
    obtain ⟨hgathers', hcomplete⟩ := discover_complete importMap library root hsound.once
    rw [hplan] at hgathers' hcomplete
    have hboth := hgathers.trans hgathers'
    have hall : ∀ m, Fetcher.Reaches importMap library.fetch root m → m.url ∈ c'.fetched := by
      intro m hm
      obtain ⟨node, hnode⟩ := Option.isSome_iff_exists.1 (isSome_node?_of_reaches hcomplete
        (fun k => (hboth.isPending k).trans (hpending k)) (hfetch.asks hboth.answers) hm)
      obtain ⟨answer, hanswer, -⟩ := hcomplete.node m node hnode
      exact mem_fetched_iff.2 (Option.isSome_of_eq_some hanswer)
    exact ((hsound.gathers hgathers').ends_walk hcomplete).mono (fun _ _ _ => hall)
      fun _ _ _ => hall

end Catalog

end ModuleGraph
