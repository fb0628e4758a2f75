import ModuleGraph.Proofs.Instantiation

/-!
# What a module has reached is never taken back

`ModuleMap.Lasts` says that one map has come from another without loss: what has been loaded keeps
its dependencies, an instance is never replaced, and neither a failure nor an evaluation is undone.
Loading, instantiating and evaluating only lead to such maps, whether they succeed or fail, and only
evaluating adds to the modules that have been evaluated.
-/

namespace ModuleGraph

namespace ModuleMap

variable {map map' map'' : ModuleMap} {key : ModuleKey}

/-- What has been loaded stays the same module over any number of steps. -/
theorem Extends.trans (h : map.Extends map') (h' : map'.Extends map'') : map.Extends map'' where
  dependencies k hk := (h'.dependencies k (h.isLoaded hk)).trans (h.dependencies k hk)
  declaration k hk := (h'.declaration k (h.isLoaded hk)).trans (h.declaration k hk)

/-- What modules have reached in one map they have reached in another one, too. -/
structure Lasts (map map' : ModuleMap) : Prop where
  known : ∀ key, map.IsKnown key → map'.IsKnown key
  loaded : map.Extends map'
  instances : ∀ key i, (map.entry key).instance? = some i → (map'.entry key).instance? = some i
  failures : ∀ key failure, (map.entry key).failure = some failure →
    (map'.entry key).failure = some failure
  evaluated : ∀ key, (map.entry key).status = .evaluated → (map'.entry key).status = .evaluated

/-- No module has been evaluated since. -/
def EvaluatesNothing (map map' : ModuleMap) : Prop :=
  ∀ key, (map'.entry key).status = .evaluated → (map.entry key).status = .evaluated

/-- A map has lost nothing of itself. -/
theorem Lasts.refl : map.Lasts map :=
  ⟨fun _ hk => hk, ⟨fun _ _ => rfl, fun _ _ => rfl⟩, fun _ _ hi => hi, fun _ _ hk => hk,
    fun _ hk => hk⟩

/-- What lasts in two steps lasts in both. -/
theorem Lasts.trans (h : map.Lasts map') (h' : map'.Lasts map'') : map.Lasts map'' where
  known k hk := h'.known k (h.known k hk)
  loaded := h.loaded.trans h'.loaded
  instances k i hi := h'.instances k i (h.instances k i hi)
  failures k failure hk := h'.failures k failure (h.failures k failure hk)
  evaluated k hk := h'.evaluated k (h.evaluated k hk)

/-- A failed module stays failed. -/
theorem Lasts.failed (h : map.Lasts map') (hkey : (map.entry key).status = .failed) :
    (map'.entry key).status = .failed := by
  rw [Entry.status_eq_failed_iff] at hkey ⊢
  obtain ⟨failure, hfailure⟩ := Option.isSome_iff_exists.1 hkey
  exact Option.isSome_of_eq_some (h.failures key failure hfailure)

/-- What is settled stays settled. -/
theorem Lasts.isPending (h : map.Lasts map') (hkey : map.isPending key = false) :
    map'.isPending key = false := by
  unfold ModuleMap.isPending at hkey ⊢
  cases hloaded : (map.entry key).isLoaded with
  | true => simp [h.loaded.isLoaded hloaded]
  | false =>
      have hfailed : (map.entry key).status = .failed := by simpa [hloaded] using hkey
      simp [h.failed hfailed]

/-- Nothing is lost by a map that leaves alone what is more than registered. -/
theorem Lasts.of_kept (hknown : ∀ k, map.IsKnown k → map'.IsKnown k)
    (hkept : ∀ k, (map.entry k).status ≠ .registered → map'.entry k = map.entry k) :
    map.Lasts map' := by
  have hsame : ∀ k, (map.entry k).isLoaded → map'.entry k = map.entry k :=
    fun k hk => hkept k (Entry.status_ne_registered_of_isLoaded hk)
  constructor
  case known => exact hknown
  case loaded => exact ⟨fun k hk => by rw [hsame k hk], fun k hk => by rw [hsame k hk]⟩
  case instances =>
    intro k i hi
    rw [hsame k (Entry.isLoaded_of_instance (Option.isSome_of_eq_some hi)), hi]
  case failures =>
    intro k failure hk
    have hfailed : (map.entry k).status = .failed := by simp [hk]
    rw [hkept k (by simp [hfailed]), hk]
  case evaluated =>
    intro k hk
    rw [hkept k (by simp [hk]), hk]

/-- Modules that fail keep what they had reached. -/
theorem Fails.lasts (h : map.Fails map') : map.Lasts map' where
  known k hk := (h.advances.known k).2 hk
  loaded := h.advances.extends
  instances k _ hi := (h.instance?_eq k).trans hi
  failures := h.failure
  evaluated := h.evaluated

/-- Failing modules evaluates none. -/
theorem Fails.evaluatesNothing (h : map.Fails map') : map.EvaluatesNothing map' :=
  h.reflected

section Instantiates

variable {keys : List ModuleKey}

/-- The modules that get their instances had none and have not failed. -/
theorem lasts_of_instantiates (h : map.AltersAll keys Instantiates map')
    (hready : ∀ k ∈ keys, map.IsReady k) : map.Lasts map' where
  known k hk := (h.known k).2 hk
  loaded := (Instantiates.advances h hready).extends
  instances k i hi := by
    rw [h.kept k fun hmem => by simp [(hready k hmem).facts.2.2.2] at hi, hi]
  failures k failure hk := by
    rw [h.kept k fun hmem => by simp [(hready k hmem).facts.2.2.1] at hk, hk]
  evaluated k hk := by
    rw [h.kept k, hk]
    intro hmem
    have hstatus : (map.entry k).status = .loaded := hready k hmem
    rw [hstatus] at hk
    cases hk

/-- Giving instances to modules evaluates none. -/
theorem evaluatesNothing_of_instantiates (h : map.AltersAll keys Instantiates map')
    (hready : ∀ k ∈ keys, map.IsReady k) : map.EvaluatesNothing map' := by
  intro k hk
  by_cases hmem : k ∈ keys
  · obtain ⟨i, hi⟩ := h.altered k hmem
    simp [hi, Entry.status, (hready k hmem).facts.2.2.1, Progress.status] at hk
  · rwa [h.kept k hmem] at hk

end Instantiates

/-- Instantiating loses nothing and evaluates nothing. -/
theorem ends_instantiate_lasts (map : ModuleMap) (round : Nat) (key : ModuleKey) :
    Ends (ModuleMap.instantiate round key) map
      (fun _ map' => map.Lasts map' ∧ map.EvaluatesNothing map')
      fun _ map' => map.Lasts map' ∧ map.EvaluatesNothing map' := by
  have hnothing : map.Lasts map ∧ map.EvaluatesNothing map := ⟨.refl, fun _ hk => hk⟩
  refine (map.ends_instantiate round key).mono ?_ ?_
  · rintro i map' (⟨rfl, -⟩ | ⟨hready, c, fresh, linked, hcompletes⟩)
    · exact hnothing
    · obtain ⟨hreadies, -⟩ := hcompletes.collection hready
      have halters := hcompletes.altered.mono fun _ _ he => he.instantiates
      exact ⟨lasts_of_instantiates halters hreadies,
        evaluatesNothing_of_instantiates halters hreadies⟩
  · rintro _ map' ⟨fault, -, ⟨rfl, -⟩ | ⟨hready, hrejects⟩⟩
    · exact hnothing
    · have hfails := hrejects.fails hready
      exact ⟨hfails.lasts, hfails.evaluatesNothing⟩

end ModuleMap

/-- Loading loses nothing and evaluates nothing. -/
theorem Catalog.Sound.lasts_loads {importMap : ImportMap} {library : Library} {c c' : Catalog}
    (h : c.Sound importMap) (hloads : c.Loads library c') :
    c.map.Lasts c'.map ∧ c.map.EvaluatesNothing c'.map := by
  have hkept : ∀ k, (c.map.entry k).status ≠ .registered → c'.map.entry k = c.map.entry k :=
    fun _ hk => h.entry_of_loads hloads hk
  refine ⟨.of_kept (fun k hk => hloads.known hk) hkept, fun k hk => ?_⟩
  by_cases hregistered : (c.map.entry k).status = .registered
  · have hinstance := Entry.instance_isSome_of_evaluated hk
    simp [(hloads.isUnlinked hregistered).1] at hinstance
  · rwa [hkept k hregistered] at hk

/-- Loading neither gives nor takes instances. -/
theorem Catalog.Sound.instance?_of_loads {importMap : ImportMap} {library : Library}
    {c c' : Catalog} (h : c.Sound importMap) (hloads : c.Loads library c') (key : ModuleKey) :
    (c'.map.entry key).instance? = (c.map.entry key).instance? := by
  by_cases hregistered : (c.map.entry key).status = .registered
  · rw [(hloads.isUnlinked hregistered).1, (Entry.nothing_of_status (.inl hregistered)).2.2]
  · rw [h.entry_of_loads hloads hregistered]

/-- A walk that evaluates modules loses nothing. -/
theorem EvalM.Inv.lasts {σ : Type} {root : ModuleKey} {s e : Evaluator σ}
    (h : EvalM.Inv s root e) : s.map.Lasts e.map where
  known k hk := (h.advances.known k).2 hk
  loaded := h.advances.extends
  instances k _ hi := (h.instances k).trans hi
  failures k _ hk := (h.failures k).trans hk
  evaluated := h.kept

end ModuleGraph
