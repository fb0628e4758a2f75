import ModuleGraph.Proofs.Fetching

/-!
# What a load makes of its library

A load uses its library for nothing but the answers that it asks for: two libraries that agree on
the URLs that are asked for lead to the same catalog, with the same answer
(`Catalog.Sound.ends_load_congr`). So the URLs that a catalog has on its list are all that its
library has been asked for.

The bound on the number of waves is computed from the whole library, but never reached.
-/

namespace ModuleGraph

namespace Catalog

variable {importMap : ImportMap} {library library' : Library} {c c' c'' : Catalog}
  {root : ModuleKey}

/-- Two libraries give the same answers for what has been asked for since. -/
def AgreeOn (library library' : Library) (c c' : Catalog) : Prop :=
  ∀ url ∈ c'.fetched, url ∉ c.fetched → library'.fetch url = library.fetch url

/-- What has been fetched stays fetched. -/
theorem Asks.subset (h : c.Asks library c') : c.fetched ⊆ c'.fetched := by
  obtain ⟨new, hnew, -⟩ := h
  rw [fetched, fetched, hnew, List.map_append]
  exact List.subset_append_left _ _

/-- Libraries that agree on all that has been asked for agree on the first part of it. -/
theorem AgreeOn.head (h : AgreeOn library library' c c'') (hlater : c'.Asks library c'') :
    AgreeOn library library' c c' :=
  fun url hurl => h url (hlater.subset hurl)

/-- Libraries that agree on all that has been asked for agree on what was asked for last. -/
theorem AgreeOn.tail (h : AgreeOn library library' c c'') (hbefore : c.Asks library c') :
    AgreeOn library library' c' c'' :=
  fun url hurl hnew => h url hurl fun hold => hnew (hbefore.subset hold)

/-- Libraries that agree give the same resource. -/
theorem obtain_congr {url : Url} (h : AgreeOn library library' c (c.obtain library url)) :
    c.obtain library' url = c.obtain library url := by
  unfold obtain
  cases hanswer : c.answer? url with
  | some answer => rfl
  | none =>
      have hnew : url ∉ c.fetched := by simp [mem_fetched_iff, hanswer]
      have hasked : url ∈ (c.obtain library url).fetched := by
        obtain ⟨answer, hlater⟩ := answer?_obtain library c url
        exact mem_fetched_iff.2 (Option.isSome_of_eq_some hlater)
      simp only [h url hasked hnew]

/-- Libraries that agree give the same resources for several keys. -/
theorem obtainAll_congr (keys : List ModuleKey)
    (h : AgreeOn library library' c
      ((keys.map ModuleKey.url).foldl (fun c url => c.obtain library url) c)) :
    (keys.map ModuleKey.url).foldl (fun c url => c.obtain library' url) c =
      (keys.map ModuleKey.url).foldl (fun c url => c.obtain library url) c := by
  induction keys generalizing c with
  | nil => rfl
  | cons key keys ih =>
      rw [List.map_cons, List.foldl_cons] at h ⊢
      rw [List.foldl_cons, obtain_congr (h.head (gathers_obtainAll keys).answers),
        ih (h.tail gathers_obtain.answers)]

end Catalog

namespace Discovery

variable {importMap : ImportMap} {library library' : Library} {start : Catalog} {root : ModuleKey}
  {d : Discovery}

/-- Libraries that agree lead to the same wave. -/
theorem step_congr (h : d.catalog.AgreeOn library library' (d.step importMap library).catalog) :
    d.step importMap library' = d.step importMap library := by
  unfold step at h ⊢
  dsimp only at h ⊢
  generalize hkeys : d.wave.filter
    (d.wave.foldl ModuleMap.register d.catalog.map).isPending = keys at h ⊢
  have hcatalog := Catalog.obtainAll_congr keys h
  have hanswered := fun key (hkey : key ∈ keys) => Catalog.answer?_obtainAll library
    { d.catalog with map := d.wave.foldl ModuleMap.register d.catalog.map } hkey
  rw [hcatalog]
  generalize (keys.map ModuleKey.url).foldl (fun c url => Catalog.obtain c library url)
    { d.catalog with map := d.wave.foldl ModuleMap.register d.catalog.map } = catalog
    at hanswered ⊢
  -- each key of the wave has an answer by now, so that no node is made from the library
  have hnodes : (keys.map fun key => (key, PlanNode.ofAnswer importMap key
        ((catalog.answer? key.url).getD (library'.fetch key.url)))) =
      keys.map fun key => (key, PlanNode.ofAnswer importMap key
        ((catalog.answer? key.url).getD (library.fetch key.url))) := by
    refine List.map_congr_left fun key hkey => ?_
    obtain ⟨answer, hanswer⟩ := hanswered key hkey
    rw [hanswer, Option.getD_some, Option.getD_some]
  rw [hnodes]

/-- A wave gathers keys and resources. -/
theorem gathers_step (importMap : ImportMap) (library : Library) (d : Discovery) :
    d.catalog.Gathers library (d.step importMap library).catalog := by
  obtain ⟨catalog, nodes, hstep, hgathers, -⟩ := step_eq importMap library d
  rw [hstep]
  exact hgathers

/-- All waves gather keys and resources. -/
theorem gathers_run (n : Nat) :
    d.catalog.Gathers library (d.run importMap library n).catalog := by
  induction n generalizing d with
  | zero => exact .refl
  | succ n ih =>
      unfold run
      split
      · exact .refl
      · exact (gathers_step importMap library d).trans ih

/-- The waves that one library leads to are those of the other one. -/
theorem run_congr (n : Nat)
    (h : d.catalog.AgreeOn library library' (d.run importMap library n).catalog) :
    d.run importMap library' n = d.run importMap library n := by
  induction n generalizing d with
  | zero => rfl
  | succ n ih =>
      unfold run at h ⊢
      split at h
      · next hwave => rw [if_pos hwave, if_pos hwave]
      · next hwave =>
          rw [if_neg hwave, if_neg hwave, step_congr (h.head (gathers_run n).answers),
            ih (h.tail (gathers_step importMap library d).answers)]

/-- When no wave is left, nothing more is planned. -/
theorem run_of_wave_eq_nil {n m : Nat} (hle : n ≤ m)
    (hwave : (d.run importMap library n).wave = []) :
    d.run importMap library m = d.run importMap library n := by
  induction n generalizing d m with
  | zero =>
      have hempty : d.wave.isEmpty := List.isEmpty_iff.2 hwave
      cases m with
      | zero => rfl
      | succ m => exact if_pos hempty
  | succ n ih =>
      cases m with
      | zero => omega
      | succ m =>
          unfold run at hwave ⊢
          split
          · rfl
          · next hbusy =>
              rw [if_neg hbusy] at hwave
              exact ih (Nat.le_of_succ_le_succ hle) hwave

end Discovery

/-- The plan that one library leads to is that of the other one. -/
theorem discover_congr {importMap : ImportMap} {library library' : Library} {c : Catalog}
    {root : ModuleKey} (honce : c.fetched.Nodup)
    (h : c.AgreeOn library library' (discover importMap library c root).1) :
    discover importMap library' c root = discover importMap library c root := by
  unfold discover at h ⊢
  have hwave := Discovery.wave_run_eq_nil importMap library root honce
  have hwave' := Discovery.wave_run_eq_nil importMap library' root honce
  dsimp only at h ⊢
  generalize Discovery.bound library c = n at h hwave ⊢
  generalize Discovery.bound library' c = n' at hwave' ⊢
  have hfirst := Discovery.run_of_wave_eq_nil (Nat.le_max_left n n') hwave
  have hsecond := Discovery.run_of_wave_eq_nil (Nat.le_max_right n n') hwave'
  rw [← hfirst] at h ⊢
  rw [← hsecond, Discovery.run_congr _ h]

namespace Catalog

variable {importMap : ImportMap} {library library' : Library} {c : Catalog} {root : ModuleKey}

/-- A load depends on its library by the answers only that it asks for. -/
theorem Sound.ends_load_congr (h : c.Sound importMap) (library library' : Library)
    (root : ModuleKey) :
    Ends (Catalog.load importMap library root) c
      (fun _ c' => c.AgreeOn library library' c' →
        Catalog.load importMap library' root c = Catalog.load importMap library root c)
      fun _ c' => c.AgreeOn library library' c' →
        Catalog.load importMap library' root c = Catalog.load importMap library root c := by
  have hgathers := gathers_register library c root
  have hsound := h.gathers hgathers
  refine ends_load_of rfl (fun hloaded _ => ?loaded) (fun fault hfailure _ => ?failed)
    fun c' plan hplan => ?walked
  case loaded => simp only [Catalog.load, hloaded, if_true]
  case failed =>
    have hfault := Entry.loadFault?_eq_some_iff.2 hfailure
    simp only [Catalog.load, hfault]
  case walked =>
    obtain ⟨hgathers', hcomplete⟩ := discover_complete importMap library root hsound.once
    rw [hplan] at hgathers' hcomplete
    have hall : c.AgreeOn library library' c' →
        Catalog.load importMap library' root c = Catalog.load importMap library root c := by
      intro hagree
      have hdiscover : discover importMap library' { c with map := c.map.register root } root =
          discover importMap library { c with map := c.map.register root } root :=
        discover_congr hsound.once (by rw [hplan]; exact hagree)
      simp only [Catalog.load, hdiscover]
    exact ((hsound.gathers hgathers').ends_walk hcomplete).mono (fun _ _ _ => hall)
      fun _ _ _ => hall

end Catalog

end ModuleGraph
