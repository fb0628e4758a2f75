import ModuleGraph.Proofs.Binding
import ModuleGraph.Proofs.Evaluation

/-!
# What the map says of linking

`ModuleMap.LinkSound` is the invariant: what has an instance can be linked, and what has failed to
be linked depends on a module that cannot, and keeps a fault about it. Whether a loaded module can
be linked is settled when it is loaded (`ModuleMap.Extends`), so that the invariant outlasts loading
and evaluation.
-/

namespace ModuleGraph

/-- Two relations that agree wherever one of them leads to from a point also do so over any number
of steps. -/
theorem reflTransGen_iff_of_closed {α : Type} {r r' : α → α → Prop} (p : α → Prop)
    (hclosed : ∀ a b, p a → r a b → p b) (hsame : ∀ a b, p a → (r' a b ↔ r a b)) {a b : α}
    (ha : p a) : Relation.ReflTransGen r' a b ↔ Relation.ReflTransGen r a b := by
  have hreached : ∀ b, Relation.ReflTransGen r a b → p b := by
    intro b h
    induction h with
    | refl => exact ha
    | tail _ hstep ih => exact hclosed _ _ ih hstep
  constructor
  · intro h
    induction h with
    | refl => exact .refl
    | tail _ hstep ih => exact ih.tail ((hsame _ _ (hreached _ ih)).1 hstep)
  · intro h
    induction h with
    | refl => exact .refl
    | tail hsteps hstep ih => exact ih.tail ((hsame _ _ (hreached _ hsteps)).2 hstep)

namespace ModuleMap

variable {map map' : ModuleMap} {key m : ModuleKey} {node : ExportNode} {t : ExportTarget}
  {fault : LinkFault}

/-- What loaded modules depend on is loaded. -/
def Closed (map : ModuleMap) : Prop :=
  ∀ key, ∀ d ∈ (map.entry key).dependencies, (map.entry d).isLoaded

/-- What has been loaded in one map is the same module in another one. -/
structure Extends (map map' : ModuleMap) : Prop where
  dependencies : ∀ key, (map.entry key).isLoaded →
    (map'.entry key).progress.dependencies? = (map.entry key).progress.dependencies?
  declaration : ∀ key, (map.entry key).isLoaded →
    (map'.entry key).declaration = (map.entry key).declaration

/-- Modules that only move forward stay the same. -/
theorem Advances.extends (h : map.Advances map') : map.Extends map' :=
  ⟨fun key _ => h.dependencies key, fun key _ => h.declaration key⟩

/-- All that a loaded module depends on is loaded. -/
theorem Closed.isLoaded (h : map.Closed) (hkey : (map.entry key).isLoaded)
    (hdepends : map.DependsOn key m) : (map.entry m).isLoaded := by
  induction hdepends with
  | refl => exact hkey
  | tail _ hd _ => exact h _ _ hd

namespace Extends

/-- What has been loaded stays loaded. -/
theorem isLoaded (h : map.Extends map') (hkey : (map.entry key).isLoaded) :
    (map'.entry key).isLoaded := by
  rw [Entry.isLoaded, h.dependencies key hkey]
  exact hkey

/-- What is seen of a loaded module for linking stays the same. -/
theorem linkView? (h : map.Extends map') (hkey : (map.entry key).isLoaded) :
    map'.linkView? key = map.linkView? key := by
  ext view
  rw [linkView?_eq_some_iff, linkView?_eq_some_iff, h.dependencies key hkey, Entry.body?,
    h.declaration key hkey, Entry.body?]

/-- What a node is stays the same once its module has been loaded. -/
theorem exportStep (h : map.Extends map') (hnode : (map.entry node.1).isLoaded) :
    map'.exportStep node = map.exportStep node := by
  rw [ModuleMap.exportStep, h.linkView? hnode, ModuleMap.exportStep]

/-- What a loaded module depends on stays the same. -/
theorem dependsOn_iff (h : map.Extends map') (hclosed : map.Closed)
    (hkey : (map.entry key).isLoaded) : map'.DependsOn key m ↔ map.DependsOn key m := by
  refine reflTransGen_iff_of_closed (fun k => (map.entry k).isLoaded)
    (fun a b _ hb => hclosed a b hb) (fun a b ha => ?_) hkey
  rw [Entry.dependencies, h.dependencies a ha, Entry.dependencies]

/-- A name of a loaded module keeps its targets. -/
theorem offers_iff (h : map.Extends map') (hclosed : map.Closed)
    (hnode : (map.entry node.1).isLoaded) : map'.Offers node t ↔ map.Offers node t := by
  have hleads : ∀ leaf, map'.Leads node leaf ↔ map.Leads node leaf := by
    intro leaf
    refine reflTransGen_iff_of_closed (fun n : ExportNode => (map.entry n.1).isLoaded)
      (fun a b _ hb => hclosed a.1 b.1 (mem_dependencies_of_edge hb)) (fun a b ha => ?_) hnode
    rw [exportEdges, h.exportStep ha, exportEdges]
  have hloaded : ∀ leaf, map.Leads node leaf → (map.entry leaf.1).isLoaded :=
    fun leaf hleaf => hclosed.isLoaded hnode (dependsOn_of_leads hleaf)
  constructor
  · rintro ⟨leaf, hleaf, htarget⟩
    have hleaf' := (hleads leaf).1 hleaf
    rw [exportLeaf?, h.exportStep (hloaded leaf hleaf')] at htarget
    exact ⟨leaf, hleaf', htarget⟩
  · rintro ⟨leaf, hleaf, htarget⟩
    refine ⟨leaf, (hleads leaf).2 hleaf, ?_⟩
    rw [exportLeaf?, h.exportStep (hloaded leaf hleaf)]
    exact htarget

/-- Whether a loaded module can be linked does not change. -/
theorem links_iff (h : map.Extends map') (hclosed : map.Closed)
    (hkey : (map.entry key).isLoaded) : map'.Links key ↔ map.Links key := by
  have hmeets : ∀ view, map.linkView? key = some view → ∀ request importName,
      map'.Meets view request importName ↔ map.Meets view request importName := by
    intro view hview request importName
    refine exists_congr fun target => and_congr_right fun htarget => ?_
    have hloaded : (map.entry target).isLoaded :=
      hclosed key target (dependencies_of_linkView? hview ▸ LinkView.mem_dependencies htarget)
    refine forall₂_congr fun name _ => existsUnique_congr fun t => h.offers_iff hclosed ?_
    exact hloaded
  unfold Links
  rw [h.linkView? hkey]
  refine exists_congr fun view => and_congr_right fun hview => and_congr ?_ ?_
  · exact forall₂_congr fun i _ => hmeets view hview _ _
  · exact forall₄_congr fun e _ name _ => hmeets view hview _ _

/-- A fault about a loaded module stays one. -/
theorem blames (h : map.Extends map') (hclosed : map.Closed) (hkey : (map.entry key).isLoaded)
    (hfault : map.Blames key fault) : map'.Blames key fault := by
  cases hfault with
  | unbound hview hasks hnone => exact .unbound ((h.linkView? hkey).trans hview) hasks hnone
  | @unresolved target name cause htarget hlacks =>
      refine .unresolved ?_ ?_
      · rw [Entry.dependencies, h.dependencies key hkey]
        exact htarget
      · have hoffers : ∀ t, map'.Offers (target, name) t ↔ map.Offers (target, name) t :=
          fun t => h.offers_iff hclosed (hclosed key target htarget)
        cases cause <;> simpa only [Lacks, hoffers] using hlacks

end Extends

/-- A module that cannot be linked and has failed with a fault about one of its requests. -/
structure Culprit (map : ModuleMap) (m : ModuleKey) (fault : LinkFault) : Prop where
  unlinked : ¬ map.Links m
  blames : map.Blames m fault
  failed : (map.entry m).failure = some (.link fault)

/-- An instance is that of a module that can be linked, and has its exported locals. -/
structure Instantiated (map : ModuleMap) (key : ModuleKey) (i : Instance) : Prop where
  links : map.Links key
  locals : ∃ body, (map.entry key).body? = some body ∧ i.locals = body.exportedLocals

/-- The instance of a module stays one of it. -/
theorem Instantiated.extends {i : Instance} (hi : map.Instantiated key i) (h : map.Extends map')
    (hclosed : map.Closed) (hkey : (map.entry key).isLoaded) : map'.Instantiated key i := by
  refine ⟨(h.links_iff hclosed hkey).2 hi.links, ?_⟩
  rw [Entry.body?, h.declaration key hkey]
  exact hi.locals

/-- What the map says of linking is true. -/
structure LinkSound (map : ModuleMap) : Prop where
  instances : ∀ key i, (map.entry key).instance? = some i → map.Instantiated key i
  failed : ∀ key fault, (map.entry key).failure = some (.link fault) →
    (map.entry key).isLoaded ∧ (map.entry key).instance? = none ∧
      ∃ m, map.DependsOn key m ∧ map.Culprit m fault
  thrown : ∀ key fault, (map.entry key).failure = some (.eval fault) →
    (map.entry key).instance?.isSome

/-- What the map without entries says is true. -/
theorem LinkSound.empty : LinkSound ModuleMap.empty := by
  have hentry : ∀ k, ModuleMap.empty.entry k = Entry.ofKey k := fun _ => rfl
  constructor <;> simp [hentry, Entry.ofKey, Entry.instance?, Progress.instance?]

/-- The invariant holds of a later map if each entry has kept its instance and link fault, or has
gained what is true of the later map. -/
theorem LinkSound.of_extends (h : map.LinkSound) (hclosed : map.Closed) (hext : map.Extends map')
    (hkept : ∀ key fault, (map.entry key).failure = some (.link fault) →
      (map'.entry key).failure = some (.link fault))
    (hinstances : ∀ key i, (map'.entry key).instance? = some i →
      (map.entry key).instance? = some i ∨ map'.Instantiated key i)
    (hfailed : ∀ key fault, (map'.entry key).failure = some (.link fault) →
      (map'.entry key).instance? = none ∧ ((map.entry key).failure = some (.link fault) ∨
        (map'.entry key).isLoaded ∧ ∃ m, map'.DependsOn key m ∧ map'.Culprit m fault))
    (hthrown : ∀ key fault, (map'.entry key).failure = some (.eval fault) →
      (map'.entry key).instance?.isSome) : map'.LinkSound := by
  constructor
  case instances =>
    intro k i hi
    rcases hinstances k i hi with hold | hnew
    · have hloaded := Entry.isLoaded_of_instance (Option.isSome_of_eq_some hold)
      exact (h.instances k i hold).extends hext hclosed hloaded
    · exact hnew
  case failed =>
    intro k fault hfault
    obtain ⟨hinstance, hold | ⟨hloaded, hculprit⟩⟩ := hfailed k fault hfault
    · obtain ⟨hloaded, -, m, hdepends, hculprit⟩ := h.failed k fault hold
      have hm := hclosed.isLoaded hloaded hdepends
      refine ⟨hext.isLoaded hloaded, hinstance, m, (hext.dependsOn_iff hclosed hloaded).2 hdepends,
        fun hlinks => hculprit.unlinked ((hext.links_iff hclosed hm).1 hlinks),
        hext.blames hclosed hm hculprit.blames, hkept m fault hculprit.failed⟩
    · exact ⟨hloaded, hinstance, hculprit⟩
  case thrown => exact hthrown

/-- The invariant holds of a later map that has the same modules, but for some that have not been
loaded and are not linked. -/
theorem LinkSound.grow (h : map.LinkSound) (hclosed : map.Closed)
    (hentry : ∀ key, map'.entry key = map.entry key ∨
      (map.entry key).isLoaded = false ∧ (map'.entry key).IsUnlinked) : map'.LinkSound := by
  have hkept : ∀ k, (map.entry k).isLoaded → map'.entry k = map.entry k := by
    intro k hk
    refine (hentry k).resolve_right fun hnew => ?_
    rw [hk] at hnew
    exact absurd hnew.1 (by simp)
  refine h.of_extends hclosed ⟨fun k hk => by rw [hkept k hk], fun k hk => by rw [hkept k hk]⟩
    (fun k fault hfault => hkept k (h.failed k fault hfault).1 ▸ hfault) (fun k i hi => ?_)
    (fun k fault hfault => ?_) fun k fault hfault => ?_
  · rcases hentry k with hsame | ⟨-, hinstance, -⟩
    · exact .inl (hsame ▸ hi)
    · simp [hinstance] at hi
  · rcases hentry k with hsame | ⟨-, -, hfailure⟩
    · rw [hsame] at hfault ⊢
      exact ⟨(h.failed k fault hfault).2.1, .inl hfault⟩
    · obtain ⟨_, hload⟩ := hfailure _ hfault
      cases hload
  · rcases hentry k with hsame | ⟨-, -, hfailure⟩
    · rw [hsame] at hfault ⊢
      exact h.thrown k fault hfault
    · obtain ⟨_, hload⟩ := hfailure _ hfault
      cases hload

/-- What is not loaded has no instance, and has failed for no other reason than a load fault. -/
theorem LinkSound.isUnlinked (h : map.LinkSound) (hkey : (map.entry key).isLoaded = false) :
    (map.entry key).IsUnlinked := by
  have hnone : (map.entry key).instance? = none := by
    cases hinstance : (map.entry key).instance? with
    | none => rfl
    | some i =>
        have hloaded := Entry.isLoaded_of_instance (Option.isSome_of_eq_some hinstance)
        rw [hkey] at hloaded
        cases hloaded
  refine ⟨hnone, fun failure hfailure => ?_⟩
  cases failure with
  | load fault => exact ⟨fault, rfl⟩
  | link fault =>
      have hloaded := (h.failed key fault hfailure).1
      rw [hkey] at hloaded
      cases hloaded
  | eval fault =>
      have hsome := h.thrown key fault hfailure
      rw [hnone] at hsome
      cases hsome

/-- The invariant outlasts a load walk. -/
theorem LinkSound.grows (h : map.LinkSound) (hclosed : map.Closed) (hgrows : map.Grows map') :
    map'.LinkSound := by
  refine h.grow hclosed fun k => ?_
  by_cases hk : (map.entry k).status = .registered
  · exact .inr ⟨(Entry.nothing_of_status (.inl hk)).2.1, hgrows.fresh k hk⟩
  · exact .inl (hgrows.kept k hk)

/-- The invariant outlasts failures of modules that have an instance, and link failures of modules
that have none and depend on a culprit. -/
theorem LinkSound.fails (h : map.LinkSound) (hclosed : map.Closed) (hfails : map.Fails map')
    {keys : List ModuleKey} {failure : ModuleFailure}
    (halters : map.AltersAll keys (FailsWith failure) map')
    (hunfailed : ∀ k ∈ keys, (map.entry k).failure = none)
    (hlink : ∀ fault, failure = .link fault → ∃ m, ¬ map.Links m ∧ map.Blames m fault ∧
      (m ∈ keys ∨ (map.entry m).failure = some (.link fault)) ∧
      ∀ k ∈ keys, (map.entry k).isLoaded ∧ (map.entry k).instance? = none ∧ map.DependsOn k m)
    (heval : ∀ fault, failure = .eval fault → ∀ k ∈ keys, (map.entry k).instance?.isSome) :
    map'.LinkSound := by
  have hext := hfails.advances.extends
  have hinstance := hfails.instance?_eq
  have hself : ∀ k ∈ keys, map'.entry k = { map.entry k with failure := some failure } :=
    halters.altered
  have hkept : ∀ k fault, (map.entry k).failure = some (.link fault) →
      (map'.entry k).failure = some (.link fault) := by
    intro k fault hfault
    rw [halters.kept k fun hk => by simp [hunfailed k hk] at hfault]
    exact hfault
  refine h.of_extends hclosed hext hkept (fun k i hi => .inl (hinstance k ▸ hi))
    (fun k fault hfault => ?_) fun k fault hfault => ?_ <;> rw [hinstance]
  -- a fault is either recorded now, for which `hlink` answers, or has been there before
  · by_cases hk : k ∈ keys
    · rw [hself k hk] at hfault
      obtain rfl := Option.some.inj hfault
      obtain ⟨m, hlinks, hblames, hm, hall⟩ := hlink fault rfl
      obtain ⟨hloaded, hnone, hdepends⟩ := hall k hk
      have hmloaded := hclosed.isLoaded hloaded hdepends
      refine ⟨hnone, .inr ⟨hext.isLoaded hloaded, m,
        (hext.dependsOn_iff hclosed hloaded).2 hdepends,
        fun hlinks' => hlinks ((hext.links_iff hclosed hmloaded).1 hlinks'),
        hext.blames hclosed hmloaded hblames, ?_⟩⟩
      rcases hm with hm | hm
      · rw [hself m hm]
      · exact hkept m fault hm
    · rw [halters.kept k hk] at hfault
      exact ⟨(h.failed k fault hfault).2.1, .inl hfault⟩
  · by_cases hk : k ∈ keys
    · rw [hself k hk] at hfault
      exact heval fault (Option.some.inj hfault) k hk
    · rw [halters.kept k hk] at hfault
      exact h.thrown k fault hfault

end ModuleMap

/-! ## Loading -/

namespace Catalog

open ModuleMap

variable {importMap : ImportMap} {library : Library} {c c' : Catalog} {key : ModuleKey}

/-- In a sound catalog all that loaded modules depend on is loaded. -/
theorem Sound.closed (h : c.Sound importMap) : c.map.Closed :=
  fun _ _ hd => (h.dependency hd).1

/-- Asking for resources leaves loaded modules as they are. -/
theorem Sound.linkSound_gathers (h : c.Sound importMap) (hlink : c.map.LinkSound)
    (hgathers : c.Gathers library c') : c'.map.LinkSound := by
  refine hlink.grow h.closed fun k => ?_
  cases hloaded : (c.map.entry k).isLoaded with
  | false =>
      obtain ⟨hinstance, hfailure⟩ := hlink.isUnlinked hloaded
      refine .inr ⟨rfl, ?_, ?_⟩
      · rw [Entry.instance?, hgathers.progress]
        exact hinstance
      · rw [hgathers.failure]
        exact hfailure
  | true =>
      exact .inl (h.entry_of_gathers hgathers (Entry.status_ne_registered_of_isLoaded hloaded))

/-- Loading leaves what the map says of linking true. -/
theorem Sound.linkSound_loads (h : c.Sound importMap) (hlink : c.map.LinkSound)
    (hloads : c.Loads library c') : c'.map.LinkSound := by
  obtain ⟨map, hgathers, hgrows⟩ := hloads
  exact (h.linkSound_gathers hlink hgathers).grows (h.gathers hgathers).closed hgrows

/-! ## Evaluation -/

/-- Evaluating modules leaves what the map says of linking true. -/
theorem Sound.linkSound_evaluate {σ : Type} (h : c.Sound importMap) (hlink : c.map.LinkSound)
    (execute : Executor σ) (key : ModuleKey) (ran : List ModuleKey) (host : σ) :
    Ends (EvalM.run execute key) ⟨c.map, [], ran, host⟩ (fun _ e => e.map.LinkSound)
      fun _ e => e.map.LinkSound := by
  have hevaluated : ∀ e : Evaluator σ,
      EvalM.Inv ⟨c.map, [], ran, host⟩ key e → e.map.LinkSound := by
    intro e hinv
    refine hlink.of_extends h.closed hinv.advances.extends
      (fun k fault hfault => (hinv.failures k).trans hfault)
      (fun k i hi => .inl (hinv.instances k ▸ hi)) (fun k fault hfault => ?_)
      fun k fault hfault => ?_ <;> rw [hinv.failures] at hfault <;> rw [hinv.instances]
    · exact ⟨(hlink.failed k fault hfault).2.1, .inl hfault⟩
    · exact hlink.thrown k fault hfault
  refine (EvalM.ends_run (s := ⟨c.map, [], ran, host⟩) execute key rfl h.evaluations).mono
    (fun _ e hend => hevaluated e hend.1.inv) ?_
  rintro _ e' ⟨fault, e, rfl, habandons⟩
  have hinv := habandons.inv
  have hwaiting := fun k hk => Entry.status_eq_instantiated_iff.1 (hinv.waiting k hk)
  refine (hevaluated e hinv).fails (hinv.sound rfl h).closed habandons.fails habandons.altered
    (fun k hk => (hwaiting k hk).1) (by simp) fun _ _ k hk => ?_
  obtain ⟨-, i, hprogress⟩ := hwaiting k hk
  simp [Entry.instance?, hprogress, Progress.instance?]

end Catalog

end ModuleGraph
