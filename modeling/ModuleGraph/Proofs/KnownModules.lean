import ModuleGraph.Proofs.EntryFields
import ModuleGraph.Proofs.LibraryUse
import ModuleGraph.Proofs.RealmRequests

/-!
# Which modules are known

A module is known because a call is about it, because a resource declares it, or because a known
module requests it. `Realm.Runs.within` states this as a rule of induction: what holds of the
modules of all calls and is passed on by the answers that have been had (`Catalog.Closed`) holds of
every known module.
-/

namespace ModuleGraph

/-- All known keys have a property. -/
def ModuleMap.Within (map : ModuleMap) (property : ModuleKey → Prop) : Prop :=
  ∀ key, map.IsKnown key → property key

/-- The answers of a catalog pass a property on: to the modules that a resource declares, and to
those that are requested by a module with the property. -/
structure Catalog.Closed (importMap : ImportMap) (property : ModuleKey → Prop) (c : Catalog) :
    Prop where
  declared : ∀ url resource, c.answer? url = some (.ok resource) →
    property (.root url) ∧ ∀ f ∈ resource.fragments, property (.ofUrl url f.path)
  requested : ∀ key answer, property key → c.answer? key.url = some answer →
    ∀ d ∈ (PlanNode.ofAnswer importMap key answer).dependencies, property d

/-! ## Maps -/

namespace ModuleMap

variable {map map' : ModuleMap} {property : ModuleKey → Prop} {key k : ModuleKey}

/-- Where nothing more is known, all known keys still have the property. -/
theorem Within.of_known (h : map.Within property) (hknown : ∀ k, map'.IsKnown k → map.IsKnown k) :
    map'.Within property :=
  fun k hk => h k (hknown k hk)

/-- A key with the property may be registered. -/
theorem Within.register (h : map.Within property) (hkey : property key) :
    (map.register key).Within property := by
  intro k hk
  rcases isKnown_register.1 hk with rfl | hk
  · exact hkey
  · exact h k hk

/-- A step is with a module that is known. -/
theorem isKnown_of_step {f : Entry → Except Violation Entry}
    (hf : ∀ e e', f e = .ok e' → e'.key = e.key) (h : map.step key f = .ok map')
    (hk : map'.IsKnown k) : map.IsKnown k := by
  obtain ⟨e, e', he, hresult, rfl⟩ := step_eq_ok_iff.1 h
  have hkey : e'.key = key := (hf e e' hresult).trans (key_of_get? he)
  rw [← mem_keys_iff] at hk ⊢
  obtain ⟨e₁, he₁, rfl⟩ := List.mem_map.1 hk
  obtain ⟨e₀, he₀, rfl⟩ := List.mem_map.1 he₁
  refine List.mem_map.2 ⟨e₀, he₀, ?_⟩
  split
  · next hsame => exact (beq_iff_eq.1 hsame).trans hkey.symm
  · rfl

/-- A failure makes no module known. -/
theorem isKnown_of_markFailed {failure : ModuleFailure} (h : map.markFailed key failure = .ok map')
    (hk : map'.IsKnown k) : map.IsKnown k := by
  rw [markFailed_eq] at h
  exact isKnown_of_step (fun e e' he => by rw [(failing_eq_ok he).2.2]) h hk

/-- Declaring a resource makes known its top-level module and its fragments, and no others. -/
theorem isKnown_declareAll_iff {url : Url} {resource : Resource} :
    (map.declareAll url resource).IsKnown key ↔ key = .root url ∨
      (∃ f ∈ resource.fragments, key = .ofUrl url f.path) ∨ map.IsKnown key := by
  have hfragments : ∀ (fragments : List Fragment) (map : ModuleMap),
      (fragments.foldl (fun map f => map.declare (.ofUrl url f.path) (.fragment f)) map).IsKnown key
        ↔ (∃ f ∈ fragments, key = .ofUrl url f.path) ∨ map.IsKnown key := by
    intro fragments
    induction fragments with
    | nil => simp
    | cons f fragments ih =>
        intro map
        rw [List.foldl_cons, ih, isKnown_declare, List.exists_mem_cons_iff]
        exact or_left_comm.trans or_assoc.symm
  rw [declareAll, hfragments, isKnown_declare]
  exact or_left_comm

end ModuleMap

/-! ## Plans -/

namespace Catalog

variable {importMap : ImportMap} {library : Library} {property : ModuleKey → Prop}
  {c c' : Catalog} {key : ModuleKey}

/-- What later answers pass on, the earlier ones do. -/
theorem Closed.of_asks (h : c'.Closed importMap property) (hasks : c.Asks library c') :
    c.Closed importMap property where
  declared url resource hanswer := h.declared url resource (hasks.answer? hanswer)
  requested key answer hkey hanswer := h.requested key answer hkey (hasks.answer? hanswer)

/-- What a resource declares has the property if the answers pass it on. -/
theorem within_obtain {url : Url} (h : c.map.Within property)
    (hclosed : (c.obtain library url).Closed importMap property) :
    (c.obtain library url).map.Within property := by
  cases hurl : c.answer? url with
  | some answer =>
      rw [obtain, hurl]
      exact h
  | none =>
      have hnew : c.answers.lookup url = none := hurl
      cases hfetch : library.fetch url with
      | error fault =>
          simp only [obtain, hurl, hfetch]
          exact h
      | ok resource =>
          have hanswer : (c.obtain library url).answer? url = some (.ok resource) := by
            simp [obtain, hfetch, answer?, List.lookup_append, hnew]
          obtain ⟨hroot, hfragments⟩ := hclosed.declared url resource hanswer
          simp only [obtain, hurl, hfetch]
          intro k hk
          rcases ModuleMap.isKnown_declareAll_iff.1 hk with rfl | ⟨f, hf, rfl⟩ | hk
          · exact hroot
          · exact hfragments f hf
          · exact h k hk

/-- What several resources declare has the property if the answers pass it on. -/
theorem within_obtainAll (keys : List ModuleKey) (h : c.map.Within property)
    (hclosed : ((keys.map ModuleKey.url).foldl (fun c url => c.obtain library url) c).Closed
      importMap property) :
    ((keys.map ModuleKey.url).foldl (fun c url => c.obtain library url) c).map.Within property := by
  induction keys generalizing c with
  | nil => exact h
  | cons key keys ih =>
      have hrest : (c.obtain library key.url).Asks library
          ((keys.map ModuleKey.url).foldl (fun c url => c.obtain library url)
            (c.obtain library key.url)) := (gathers_obtainAll keys).answers
      exact ih (within_obtain h (hclosed.of_asks hrest)) hclosed

end Catalog

namespace Discovery

variable {importMap : ImportMap} {library : Library} {property : ModuleKey → Prop} {d : Discovery}

/-- All that a plan in the making has come to has a property. -/
structure Within (property : ModuleKey → Prop) (d : Discovery) : Prop where
  known : d.catalog.map.Within property
  wave : ∀ key ∈ d.wave, property key
  plan : ∀ n ∈ d.plan, ∀ key ∈ n.2.dependencies, property key

/-- Keys with the property may be registered, one after the other. -/
theorem within_registerAll {map : ModuleMap} {keys : List ModuleKey} (h : map.Within property)
    (hkeys : ∀ key ∈ keys, property key) :
    (keys.foldl ModuleMap.register map).Within property := by
  induction keys generalizing map with
  | nil => exact h
  | cons key keys ih =>
      exact ih (h.register (hkeys key List.mem_cons_self)) fun k hk =>
        hkeys k (List.mem_cons_of_mem _ hk)

/-- A wave comes only to keys with the property. -/
theorem Within.step (h : d.Within property)
    (hclosed : (d.step importMap library).catalog.Closed importMap property) :
    (d.step importMap library).Within property := by
  have hregistered := within_registerAll h.known h.wave
  have hknown : (d.step importMap library).catalog.map.Within property :=
    Catalog.within_obtainAll _ hregistered hclosed
  obtain ⟨catalog, nodes, hstep, -, hkeys, hnodes⟩ := step_eq importMap library d
  rw [hstep] at hclosed hknown ⊢
  have hdependencies : ∀ n ∈ nodes, ∀ key ∈ n.2.dependencies, property key := by
    intro n hn key hkey
    obtain ⟨answer, hanswer, hnode⟩ := hnodes n hn
    have hwave : n.1 ∈ d.wave := by
      have hmem : n.1 ∈ nodes.map Prod.fst := List.mem_map_of_mem hn
      rw [hkeys] at hmem
      exact List.mem_of_mem_filter hmem
    exact hclosed.requested n.1 answer (h.wave n.1 hwave) hanswer key (hnode ▸ hkey)
  refine ⟨hknown, fun key hkey => ?_, fun n hn => ?_⟩
  · obtain ⟨n, hn, hdependency⟩ := List.mem_flatMap.1 (mem_unseen.1 hkey).1
    exact hdependencies n hn key hdependency
  · exact (List.mem_append.1 hn).elim (h.plan n) (hdependencies n)

/-- All waves come only to keys with the property. -/
theorem Within.run (n : Nat) (h : d.Within property)
    (hclosed : (d.run importMap library n).catalog.Closed importMap property) :
    (d.run importMap library n).Within property := by
  induction n generalizing d with
  | zero => exact h
  | succ n ih =>
      unfold Discovery.run at hclosed ⊢
      split at hclosed
      · next hwave => rwa [if_pos hwave]
      · next hwave =>
          rw [if_neg hwave]
          exact ih (h.step (hclosed.of_asks (gathers_run n).answers)) hclosed

end Discovery

/-! ## Walks -/

namespace LoadWalk

variable {plan : Plan} {property : ModuleKey → Prop} {key : ModuleKey} {w : Walk}

/-- All known keys still have a property at the end, whatever it is. -/
def EndsWithin {α : Type} (property : ModuleKey → Prop) (x : LoadWalk α) (w : Walk) : Prop :=
  Ends x w (fun _ w' => w'.map.Within property) fun _ w' => w'.map.Within property

/-- A step that makes no module known keeps the property. -/
theorem within_commit {f : ModuleMap → Except Violation ModuleMap} (h : w.map.Within property)
    (hf : ∀ map', f w.map = .ok map' → ∀ k, map'.IsKnown k → w.map.IsKnown k) :
    EndsWithin property (commit f) w := by
  unfold EndsWithin commit
  rw [ends_bind, ends_get]
  cases hresult : f w.map with
  | error violation => exact h
  | ok map' => exact h.of_known (hf map' hresult)

/-- A module that fails makes none known. -/
theorem within_fail {α : Type} (key : ModuleKey) (fault : LoadFault) (h : w.map.Within property) :
    EndsWithin property (fail key fault : LoadWalk α) w := by
  unfold EndsWithin fail
  rw [ends_bind]
  exact Ends.mono (within_commit h fun map' hmap k => ModuleMap.isKnown_of_markFailed hmap)
    (fun _ _ hw' => hw') fun _ _ hw' => hw'

/-- A part of a walk that fails its module makes none known. -/
theorem within_failing {α : Type} {x : LoadWalk α} (key : ModuleKey)
    (h : EndsWithin property x w) : EndsWithin property (failing key x) w := by
  unfold EndsWithin failing
  rw [ends_tryCatch]
  refine h.mono (fun _ _ hw' => hw') fun halt w' hw' => ?_
  cases halt with
  | fault fault => exact within_fail key fault hw'
  | violation violation => exact hw'

/-- Checking an import makes no module known. -/
theorem within_checkImport (importer target : ModuleKey) (h : w.map.Within property) :
    EndsWithin property (checkImport importer target) w := by
  unfold EndsWithin checkImport
  rw [ends_bind, ends_get]
  split
  · exact h
  · exact h

/-- Finishing a cycle makes no module known. -/
theorem within_finish (position : Nat) (h : w.map.Within property) :
    EndsWithin property (finish plan position) w := by
  unfold EndsWithin finish
  simp only [ends_bind, ends_get, ends_modify]
  refine ends_forM (fun _ _ (w' : Walk) => w'.map.Within property)
    (fun _ (w' : Walk) => w'.map.Within property) (fun _ member _ w' hw' => ?_) _ h
  exact within_commit hw' fun map' hmap k =>
    ModuleMap.isKnown_of_step (fun _ _ => ModuleMap.key_of_advance) hmap

/-- The imports of a module are checked and visited. -/
theorem within_dependencies {n : Nat} {dependencies : List ModuleKey} (position : Nat)
    (hvisit : ∀ d w, property d → w.map.Within property →
      EndsWithin property (visit plan n (some key) d) w)
    (hdependencies : ∀ d ∈ dependencies, property d) (h : w.map.Within property) :
    EndsWithin property (dependencies.foldlM (fun low d => do
      checkImport key d
      return lower low (← visit plan n (some key) d)) position) w := by
  refine (ends_foldlM (fun _ rest _ (w' : Walk) => (∀ d ∈ rest, property d) ∧
    w'.map.Within property) (fun _ (w' : Walk) => w'.map.Within property)
    (fun done d rest low w' hw' => ?_) ⟨hdependencies, h⟩).mono
    (fun _ _ hend => hend.2) fun _ _ hend => hend
  rw [List.forall_mem_cons] at hw'
  obtain ⟨⟨hd, hrest⟩, hmap⟩ := hw'
  simp only [ends_bind, ends_pure]
  refine (within_checkImport key d hmap).mono (fun _ w₁ hw₁ => ?_) fun _ _ hw₁ => hw₁
  exact (hvisit d w₁ hd hw₁).mono (fun _ _ hw₂ => ⟨hrest, hw₂⟩) fun _ _ hw₂ => hw₂

/-- A visit makes known what it visits, and what the plan has for it. -/
theorem within_visit (hplan : ∀ n ∈ plan, ∀ d ∈ n.2.dependencies, property d) (n : Nat)
    (referrer : Option ModuleKey) (hkey : property key) (h : w.map.Within property) :
    EndsWithin property (visit plan n referrer key) w := by
  induction n generalizing referrer key w with
  | zero => exact h
  | succ n ih =>
      have hregistered : (w.map.register key).Within property := h.register hkey
      unfold EndsWithin visit
      simp only [ends_bind, ends_modify, ends_get]
      split
      · exact hregistered
      split
      · exact hregistered
      split
      · exact hregistered
      split
      · exact within_fail key _ hregistered
      · exact within_fail key _ hregistered
      next dependencies hnode =>
      simp only [ends_bind, ends_modify]
      refine (within_commit (w := ⟨w.map.register key, w.stack ++ [key]⟩) hregistered
        fun map' hmap k => ModuleMap.isKnown_of_step (fun _ _ => ModuleMap.key_of_advance)
          hmap).mono (fun _ w' hw' => ?_) fun _ _ hw' => hw'
      have hloop := within_dependencies w.stack.length (fun d w hd hw => ih (some key) hd hw)
        (hplan _ (mem_of_lookup hnode)) hw'
      refine (within_failing key hloop).mono (fun low w'' hw'' => ?_) fun _ _ hw'' => hw''
      split
      · rw [ends_bind]
        exact (within_finish _ hw'').mono (fun _ _ hend => hend) fun _ _ hend => hend
      · exact hw''

/-- Giving up a walk makes no module known. -/
theorem within_abandon (fault : LoadFault) (h : w.map.Within property) :
    EndsWithin property (abandon fault) w := by
  unfold EndsWithin abandon
  rw [ends_bind, ends_get]
  refine ends_forM (fun _ _ (w' : Walk) => w'.map.Within property)
    (fun _ (w' : Walk) => w'.map.Within property) (fun _ member _ w' hw' => ?_) _ h
  rw [ends_bind, ends_get]
  split
  · exact within_commit hw' fun map' hmap k => ModuleMap.isKnown_of_markFailed hmap
  · exact hw'

/-- A walk makes known the module that it is for, and what the plan has for the modules. -/
theorem within_run (hplan : ∀ n ∈ plan, ∀ d ∈ n.2.dependencies, property d) (hkey : property key)
    (h : w.map.Within property) : EndsWithin property (run plan key) w := by
  unfold EndsWithin run
  simp only [ends_tryCatch, ends_discard]
  refine (within_visit hplan _ none hkey h).mono (fun _ _ hw' => hw') fun halt w' hw' => ?_
  cases halt with
  | violation violation => exact hw'
  | fault fault =>
      rw [ends_bind]
      exact (within_abandon fault hw').mono (fun _ _ hw'' => hw'') fun _ _ hw'' => hw''

end LoadWalk

/-! ## Calls -/

/-- An end may rest on a fact that does not depend on it. -/
theorem Ends.imp_of {ε τ α : Type} {x : EStateM ε τ α} {s : τ} {ok : α → τ → Prop}
    {error : ε → τ → Prop} {p : Prop} (h : p → Ends x s ok error) :
    Ends x s (fun a s' => p → ok a s') fun e s' => p → error e s' := by
  unfold Ends at h ⊢
  cases hx : x s <;> rw [hx] at h <;> exact h

/-- Loading a module makes known the module and what the answers have for it. -/
theorem Catalog.ends_load_within {property : ModuleKey → Prop} {c : Catalog} {key : ModuleKey}
    (importMap : ImportMap) (library : Library) (hkey : property key) (h : c.map.Within property) :
    Ends (Catalog.load importMap library key) c
      (fun _ c' => c'.Closed importMap property → c'.map.Within property)
      fun _ c' => c'.Closed importMap property → c'.map.Within property := by
  have hregistered : (c.map.register key).Within property := h.register hkey
  refine ends_load_of rfl (fun _ _ => hregistered) (fun _ _ _ => hregistered) ?_
  rintro c' plan hdiscover
  obtain ⟨rfl, rfl⟩ := Prod.mk.inj hdiscover
  have hstart : (Discovery.start { c with map := c.map.register key } key).Within property :=
    ⟨hregistered, by simpa [Discovery.start] using hkey, by simp [Discovery.start]⟩
  refine (Ends.imp_of (p := Catalog.Closed importMap property _) fun hclosed =>
    LoadWalk.within_run (hstart.run _ hclosed).plan hkey (hstart.run _ hclosed).known).mono
    (fun _ _ hend hclosed => hend ⟨hclosed.declared, hclosed.requested⟩)
    fun _ _ hend hclosed => hend ⟨hclosed.declared, hclosed.requested⟩

/-- Instantiating a module makes nothing known. -/
theorem ModuleMap.ends_instantiate_known (map : ModuleMap) (round : Nat) (key : ModuleKey) :
    Ends (ModuleMap.instantiate round key) map
      (fun _ map' => ∀ k, map'.IsKnown k → map.IsKnown k)
      fun _ map' => ∀ k, map'.IsKnown k → map.IsKnown k := by
  refine (map.ends_instantiate round key).mono ?_ ?_
  · intro i map' hend
    rcases hend with ⟨rfl, -⟩ | ⟨-, c, fresh, linked, hcompletes⟩
    · exact fun _ hk => hk
    · exact fun k => (hcompletes.altered.known k).1
  · intro halt map' hend
    obtain ⟨fault, -, ⟨rfl, -⟩ | ⟨-, hrejects⟩⟩ := hend
    · exact fun _ hk => hk
    cases hrejects with
    | stuck _ halters => exact fun k => (halters.known k).1
    | bodiless => exact fun _ hk => hk
    | unlinked _ _ _ _ halters => exact fun k => (halters.known k).1

namespace Realm

variable {σ : Type} {h : Host σ} {r : Realm σ} {keys : List ModuleKey} {key : ModuleKey}
  {property : ModuleKey → Prop}

/-- All known keys have a property that the answers pass on. -/
def Within (h : Host σ) (property : ModuleKey → Prop) (r : Realm σ) : Prop :=
  r.catalog.Closed h.importMap property → r.map.Within property

/-- A realm keeps the property if it has the same answers and knows no more modules. -/
theorem Within.of_known {r' : Realm σ} (hr : Within h property r)
    (hanswers : r'.catalog.answers = r.catalog.answers)
    (hknown : ∀ k, r'.map.IsKnown k → r.map.IsKnown k) : Within h property r' := fun hclosed =>
  have hasks : r.catalog.Asks h.library r'.catalog := .of_eq hanswers
  (hr (hclosed.of_asks hasks)).of_known hknown

/-- A load of a module with the property keeps it. -/
theorem preserves_within_loadKey (hkey : property key) :
    PreservesSoundly h (Within h property) (loadKey h key) := by
  intro r hr hwithin
  have hload : Ends (Catalog.load h.importMap h.library key) r.catalog
      (fun _ c => r.catalog.Closed h.importMap property → c.Closed h.importMap property →
        c.map.Within property)
      fun _ c => r.catalog.Closed h.importMap property → c.Closed h.importMap property →
        c.map.Within property :=
    Ends.imp_of fun hclosed =>
      Catalog.ends_load_within h.importMap h.library hkey (hwithin hclosed)
  refine ((keeps_loadKey key r hr).and (ends_loadKey_catalog hload)).mono ?_ ?_
  · rintro _ _ ⟨hkept, c, hc, rfl⟩ hclosed
    exact hc (hclosed.of_asks hkept.asks) hclosed
  · rintro _ _ ⟨⟨-, hkept⟩, c, hc, rfl⟩ hclosed
    exact hc (hclosed.of_asks hkept.asks) hclosed

/-- Instantiation keeps the property. -/
theorem preserves_within_instantiate (key : ModuleKey) :
    PreservesSoundly h (Within h property) (instantiate key : RealmM σ Instance) := by
  intro r _ hwithin
  refine (ends_instantiate_linked (r.map.ends_instantiate_known r.rounds key)).imp fun _ hend => ?_
  obtain ⟨map, hknown, rfl⟩ := hend
  exact hwithin.of_known rfl hknown

/-- Evaluation keeps the property. -/
theorem preserves_within_evaluate (key : ModuleKey) :
    PreservesSoundly h (Within h property) (evaluate h key) := by
  intro r hr hwithin
  refine (ends_evaluate_walk h key hr).mono ?_ ?_
  · rintro _ _ ⟨e, hpassed, -, -, rfl⟩
    exact hwithin.of_known rfl fun k => (hpassed.inv.advances.known k).1
  · rintro _ _ ⟨_, e, e', -, habandons, rfl⟩
    exact hwithin.of_known rfl fun k hk =>
      (habandons.inv.advances.known k).1 ((habandons.altered.known k).1 hk)

/-- A call makes known its own module and what the answers have for it. An import may ask for more
answers before it goes on, so that the answers that count are the last ones. -/
theorem within_after (call : Call) (hr : r.catalog.Sound h.importMap)
    (hkey : ∀ key, call.key? h = some key → property key) (hwithin : Within h property r) :
    Within h property (call.after h r) := by
  cases hcall : call.key? h with
  | none => rwa [Call.after_of_key?_eq_none hcall]
  | some key =>
      have hload : PreservesSoundly h (Within h property) (loadKey h key) :=
        preserves_within_loadKey (hkey key hcall)
      have hinstantiate : PreservesSoundly h (Within h property)
          (instantiate key : RealmM σ Instance) := preserves_within_instantiate key
      have hevaluate : PreservesSoundly h (Within h property) (evaluate h key) :=
        preserves_within_evaluate key
      rw [Call.after_keyed hcall]
      cases call with
      | load | loadKey =>
          have hend : Ends ((Call.loadKey key).run h) r _ _ := hload r hr hwithin
          exact Call.after_of_ends hend
      | importSpecifier | importKey =>
          have himport : Preserves (fun r' => r'.catalog.Sound h.importMap ∧ Within h property r')
              (importKey h key) :=
            (hload.preserves (keeps_loadKey key)).bind fun _ =>
              (hinstantiate.preserves (keeps_instantiate key)).bind fun i =>
                (hevaluate.preserves (keeps_evaluate key)).bind fun _ => .pure i
          have hend : Ends ((Call.importKey key).run h) r _ _ := (himport r ⟨hr, hwithin⟩).discard
          exact (Call.after_of_ends hend).2
      | instantiate =>
          have hend : Ends ((Call.instantiate key).run h) r _ _ :=
            (hinstantiate r hr hwithin).discard
          exact Call.after_of_ends hend
      | evaluate =>
          have hend : Ends ((Call.evaluate key).run h) r _ _ := hevaluate r hr hwithin
          exact Call.after_of_ends hend

/-- What holds of the modules that calls are about, and is passed on by the answers, holds of all
known modules. -/
theorem Runs.within {host : σ} (hruns : Runs h (Realm.fresh host) keys r)
    (hkeys : ∀ key ∈ keys, property key) (hclosed : r.catalog.Closed h.importMap property) :
    r.map.Within property := by
  suffices hwithin : Within h property r from hwithin hclosed
  clear hclosed
  induction hruns with
  | start =>
      intro _ k hk
      simp [ModuleMap.IsKnown, ModuleMap.get?, Realm.map, Realm.fresh, Catalog.empty,
        ModuleMap.empty] at hk
  | @call keys r library execute call hruns ih =>
      have hbefore := ih fun key hkey => hkeys key (List.mem_append_left _ hkey)
      exact within_after (h := { h with library, execute }) call (hruns.reached (.fresh host)).sound
        (fun key hkey => hkeys key (List.mem_append_right _ (Option.mem_toList.2 hkey))) hbefore

end Realm

end ModuleGraph
