import ModuleGraph.Proofs.Binding
import ModuleGraph.Proofs.Dependents
import ModuleGraph.Proofs.Outcome
import ModuleGraph.Proofs.SoundCatalogs

/-!
# Instantiation

`Catalog.Sound.ends_instantiate` is the main statement: instantiating a module keeps a catalog
sound, whether or not it succeeds.

What is collected for a module is closed: each dependency of a collected module is collected, too,
or has an instance already (`ModuleMap.ends_collect`). All instances are made and linked before the
first of them is committed, so that either all collected modules get one or none does
(`Instantiates`), and a fault leaves nothing behind but failures (`ModuleMap.Fails`).
-/

namespace ModuleGraph

namespace ModuleMap

variable {map map' map'' : ModuleMap} {key : ModuleKey} {c c' c'' : Collection}

/-- A module that waits for its instance. -/
def IsReady (map : ModuleMap) (key : ModuleKey) : Prop :=
  (map.entry key).status = .loaded

/-- A module without a fault and without an instance waits for its instance. -/
theorem isReady_of_linkFault? (h : map.linkFault? key = none)
    (hinstance : map.instance? key = none) : map.IsReady key := by
  unfold linkFault? at h
  split at h
  · simp at h
  · next e he =>
      have hentry := entry_of_get? he
      simp only [instance?, he, Option.bind_some] at hinstance
      unfold IsReady
      rw [hentry, Entry.status_eq_loaded_iff]
      simp only [hinstance, Option.isSome_none, Bool.false_eq_true, if_false] at h
      split at h <;> try simp at h
      next hfailure =>
        refine ⟨hfailure, ?_⟩
        unfold Entry.instance? at hinstance
        unfold Entry.isLoaded at h
        unfold Entry.dependencies
        cases hprogress : e.progress <;>
          simp_all [Progress.dependencies?, Progress.instance?]

/-- The map has the instance that the entry has. -/
theorem instance?_eq (map : ModuleMap) (key : ModuleKey) :
    map.instance? key = (map.entry key).instance? := by
  unfold instance? entry
  cases map.get? key <;> rfl

/-- A module that waits for its instance is loaded, and has neither an instance nor failed. -/
theorem IsReady.facts (h : map.IsReady key) :
    map.IsKnown key ∧ (map.entry key).isLoaded ∧ (map.entry key).failure = none ∧
      (map.entry key).instance? = none := by
  obtain ⟨hfailure, hprogress⟩ := Entry.status_eq_loaded_iff.1 h
  refine ⟨isKnown_of_status_ne (by rw [h]; decide), ?_, hfailure, ?_⟩
  · rw [Entry.isLoaded, hprogress]
    rfl
  · rw [Entry.instance?, hprogress]
    rfl

end ModuleMap

/-! ## Collecting -/

namespace Collection

variable {map : ModuleMap} {key : ModuleKey} {c c' c'' : Collection}

/-- What holds of a collection: the collected modules wait for their instances, and what a settled
one depends on is collected or has an instance. -/
structure Inv (map : ModuleMap) (c : Collection) : Prop where
  ready : ∀ key ∈ c.visited, map.IsReady key
  visited_nodup : c.visited.Nodup
  order_nodup : c.order.Nodup
  order_visited : c.order ⊆ c.visited
  closed : ∀ key ∈ c.order, ∀ d ∈ (map.entry key).dependencies,
    (map.entry d).instance?.isSome ∨ d ∈ c.visited

/-- One collection grows to another: all that has been met on the way has been settled. -/
structure Grows (c c' : Collection) : Prop where
  visited : c.visited ⊆ c'.visited
  length : c.visited.length ≤ c'.visited.length
  order : c.order ⊆ c'.order
  settled : ∀ key ∈ c'.visited, key ∈ c.visited ∨ key ∈ c'.order
  fresh : ∀ key ∈ c'.order, key ∈ c.visited → key ∈ c.order

/-- A collection that meets nothing more grows to itself. -/
theorem Grows.refl : c.Grows c :=
  ⟨fun _ hk => hk, Nat.le_refl _, fun _ hk => hk, fun _ hk => .inl hk, fun _ hk _ => hk⟩

/-- A collection grows over any number of steps. -/
theorem Grows.trans (h : c.Grows c') (h' : c'.Grows c'') : c.Grows c'' := by
  refine ⟨List.Subset.trans h.visited h'.visited, Nat.le_trans h.length h'.length,
    List.Subset.trans h.order h'.order, fun k hk => ?_, fun k hk hold => ?_⟩
  · rcases h'.settled k hk with hk | hk
    · exact (h.settled k hk).imp id fun hk => h'.order hk
    · exact .inr hk
  · exact h.fresh k (h'.fresh k hk (h.visited hold)) hold

/-- A module is met. -/
theorem Inv.push (h : Inv map c) (hkey : map.IsReady key) (hnew : key ∉ c.visited) :
    Inv map { c with visited := c.visited ++ [key] } := by
  refine ⟨fun k hk => ?_, ?_, h.order_nodup, fun k hk => ?_, fun k hk d hd => ?_⟩
  · rcases List.mem_append.1 hk with hk | hk
    · exact h.ready k hk
    · exact List.mem_singleton.1 hk ▸ hkey
  · rw [← List.concat_eq_append]
    exact h.visited_nodup.concat hnew
  · exact List.mem_append_left _ (h.order_visited hk)
  · exact (h.closed k hk d hd).imp id fun hd => List.mem_append_left _ hd

/-- A module is settled after all that it depends on has been collected. -/
theorem Inv.settle (h : Inv map c) (hnew : key ∉ c.visited)
    (hgrows : Grows { c with visited := c.visited ++ [key] } c') (h' : Inv map c')
    (hdependencies : ∀ d ∈ (map.entry key).dependencies,
      (map.entry d).instance?.isSome ∨ d ∈ c'.visited) :
    Inv map { c' with order := c'.order ++ [key] } ∧
      c.Grows { c' with order := c'.order ++ [key] } := by
  have hkey : key ∈ c'.visited := hgrows.visited (by simp)
  have hunsettled : key ∉ c'.order := by
    intro hmem
    have hold := hgrows.fresh key hmem (by simp)
    exact hnew (h.order_visited hold)
  have hlength := hgrows.length
  rw [List.length_append, List.length_singleton] at hlength
  refine ⟨⟨h'.ready, h'.visited_nodup, ?_, ?_, ?_⟩, ⟨?_, Nat.le_of_succ_le hlength, ?_, ?_, ?_⟩⟩
  · rw [← List.concat_eq_append]
    exact h'.order_nodup.concat hunsettled
  · intro k hk
    rcases List.mem_append.1 hk with hk | hk
    · exact h'.order_visited hk
    · exact List.mem_singleton.1 hk ▸ hkey
  · intro k hk
    rcases List.mem_append.1 hk with hk | hk
    · exact h'.closed k hk
    · rw [List.mem_singleton.1 hk]
      exact hdependencies
  · exact fun k hk => hgrows.visited (List.mem_append_left _ hk)
  · exact fun k hk => List.mem_append_left _ (hgrows.order hk)
  · intro k hk
    rcases hgrows.settled k hk with hk | hk
    · rcases List.mem_append.1 hk with hk | hk
      · exact .inl hk
      · exact .inr (List.mem_append_right _ hk)
    · exact .inr (List.mem_append_left _ hk)
  · intro k hk hold
    rcases List.mem_append.1 hk with hk | hk
    · exact hgrows.fresh k hk (List.mem_append_left _ hold)
    · exact absurd (List.mem_singleton.1 hk ▸ hold) hnew

/-- No more modules are collected than there are entries. -/
theorem Inv.length_visited_le (h : Inv map c) : c.visited.length ≤ map.entries.length := by
  have hsub : c.visited ⊆ map.entries.map Entry.key :=
    fun k hk => ModuleMap.mem_keys_iff.2 (h.ready k hk).facts.1
  simpa using (List.subperm_of_subset h.visited_nodup hsub).length_le

end Collection

/-- A collection stops at a module that cannot be linked to. All that has been met and is not
settled depends on it by way of what has been met, and nothing has been met but what the module
depends on. -/
structure Collection.Stuck (map : ModuleMap) (key : ModuleKey) (c : Collection)
    (culprit : ModuleKey) (fault : LinkFault) (c' : Collection) : Prop where
  inv : Collection.Inv map c'
  fault : map.linkFault? culprit = some fault
  visited : c.visited ⊆ c'.visited
  order : c.order ⊆ c'.order
  depends : map.DependsVia c'.visited culprit [] key
  unsettled : ∀ m ∈ c'.visited,
    m ∈ c.visited ∨ m ∈ c'.order ∨ map.DependsVia c'.visited culprit [] m
  reached : ∀ m ∈ c'.visited, m ∈ c.visited ∨ map.DependsOn key m

/-- A module that was met before the one that is stuck is stuck with it, if it depends on it. -/
theorem Collection.Stuck.of_dependency {map : ModuleMap} {key d culprit : ModuleKey}
    {fault : LinkFault} {c c' c'' : Collection} (h : Stuck map d c' culprit fault c'')
    (hgrows : Grows { c with visited := c.visited ++ [key] } c')
    (hreached : ∀ m ∈ c'.visited, m ∈ c.visited ∨ map.DependsOn key m)
    (hd : d ∈ (map.entry key).dependencies) : Stuck map key c culprit fault c'' := by
  have hkey : key ∈ c''.visited := h.visited (hgrows.visited (by simp))
  have hdepends : map.DependsVia c''.visited culprit [] key := .step hkey (by simp) hd h.depends
  refine ⟨h.inv, h.fault, fun k hk => ?_, fun k hk => h.order (hgrows.order hk), hdepends,
    fun m hm => ?_, fun m hm => ?_⟩
  · exact h.visited (hgrows.visited (List.mem_append_left _ hk))
  · rcases h.unsettled m hm with hold | hrest
    · rcases hgrows.settled m hold with hbefore | hsettled
      · rcases List.mem_append.1 hbefore with hbefore | hsame
        · exact .inl hbefore
        · exact .inr (.inr (List.mem_singleton.1 hsame ▸ hdepends))
      · exact .inr (.inl (h.order hsettled))
    · exact .inr hrest
  · rcases h.reached m hm with hold | hdepends'
    · exact hreached m hold
    · exact .inr (.head hd hdepends')

/-- The state of collecting a module after some of its dependencies have been dealt with. -/
structure Collection.Gathers (map : ModuleMap) (key : ModuleKey) (c : Collection)
    (done : List ModuleKey) (c' : Collection) : Prop where
  inv : Collection.Inv map c'
  grows : Collection.Grows { c with visited := c.visited ++ [key] } c'
  done : ∀ d ∈ done, (map.entry d).instance?.isSome ∨ d ∈ c'.visited
  reached : ∀ m ∈ c'.visited, m ∈ c.visited ∨ map.DependsOn key m

namespace Collection.Gathers

variable {map : ModuleMap} {key d : ModuleKey} {done : List ModuleKey} {c c' c'' : Collection}

/-- A module is collected with none of its dependencies dealt with. -/
theorem start (h : Collection.Inv map c) (hkey : map.IsReady key) (hnew : key ∉ c.visited) :
    Gathers map key c [] { c with visited := c.visited ++ [key] } := by
  refine ⟨h.push hkey hnew, .refl, by simp, fun m hm => ?_⟩
  rcases List.mem_append.1 hm with hm | hm
  · exact .inl hm
  · exact .inr (List.mem_singleton.1 hm ▸ .refl)

/-- A dependency that has an instance is not collected again. -/
theorem found (h : Gathers map key c done c') (hinstance : (map.entry d).instance?.isSome) :
    Gathers map key c (done ++ [d]) c' where
  inv := h.inv
  grows := h.grows
  reached := h.reached
  done k hk := by
    rcases List.mem_append.1 hk with hk | hk
    · exact h.done k hk
    · exact .inl (List.mem_singleton.1 hk ▸ hinstance)

/-- A dependency has been collected. -/
theorem collected (h : Gathers map key c done c') (hd : d ∈ (map.entry key).dependencies)
    (hinv : Collection.Inv map c'') (hgrows : c'.Grows c'') (hmem : d ∈ c''.visited)
    (hreached : ∀ m ∈ c''.visited, m ∈ c'.visited ∨ map.DependsOn d m) :
    Gathers map key c (done ++ [d]) c'' where
  inv := hinv
  grows := h.grows.trans hgrows
  done k hk := by
    rcases List.mem_append.1 hk with hk | hk
    · exact (h.done k hk).imp id fun hk => hgrows.visited hk
    · exact .inr (List.mem_singleton.1 hk ▸ hmem)
  reached m hm := by
    rcases hreached m hm with hold | hdepends
    · exact h.reached m hold
    · exact .inr (.head hd hdepends)

end Collection.Gathers

/-- Collecting a module collects or finds instantiated all that it depends on, and nothing else,
unless it gets stuck. -/
theorem ModuleMap.ends_collect (map : ModuleMap) (n : Nat) :
    ∀ (key : ModuleKey) (c : Collection), Collection.Inv map c → map.IsReady key →
      map.entries.length < n + c.visited.length →
      Ends (map.collect n key) c
        (fun _ c' => Collection.Inv map c' ∧ c.Grows c' ∧ key ∈ c'.visited ∧
          ∀ m ∈ c'.visited, m ∈ c.visited ∨ map.DependsOn key m)
        fun stop c' => Collection.Stuck map key c stop.1 stop.2 c' := by
  induction n with
  | zero =>
      intro key c h _ hfuel
      -- all that has been met is known, so that the budget is never spent
      have hlength := h.length_visited_le
      omega
  | succ n ih =>
      intro key c h hkey hfuel
      unfold collect
      simp only [ends_bind, ends_get]
      split
      · next hmem => exact ⟨h, .refl, hmem, fun m hm => .inl hm⟩
      next hnew =>
      simp only [ends_bind, ends_modify]
      refine (ends_forM (fun done rest c' => done ++ rest = (map.entry key).dependencies ∧
          Collection.Gathers map key c done c')
        (fun stop c' => Collection.Stuck map key c stop.1 stop.2 c') ?step _
        ⟨rfl, .start h hkey hnew⟩).mono ?last fun _ _ hend => hend
      -- a dependency gets the collection stuck, is collected itself, or has an instance already
      case step =>
        rintro done d rest c' ⟨hsplit, h'⟩
        have hd : d ∈ (map.entry key).dependencies := by simp [← hsplit]
        have hlength := h'.grows.length
        rw [List.length_append, List.length_singleton] at hlength
        split
        · next fault hfault =>
            have hstuck : Collection.Stuck map d c' d fault c' :=
              ⟨h'.inv, hfault, fun _ hk => hk, fun _ hk => hk, .culprit, fun m hm => .inl hm,
                fun m hm => .inl hm⟩
            exact hstuck.of_dependency h'.grows h'.reached hd
        · next hfault =>
            split
            · next hinstance =>
                have hready := isReady_of_linkFault? hfault (by simpa using hinstance)
                refine (ih d c' h'.inv hready (by omega)).mono ?_
                  fun _ _ hstuck => hstuck.of_dependency h'.grows h'.reached hd
                rintro - c'' ⟨h'', hgrows, hmem, hreached⟩
                exact ⟨by simpa using hsplit, h'.collected hd h'' hgrows hmem hreached⟩
            · next hinstance =>
                refine ⟨by simpa using hsplit, h'.found ?_⟩
                rw [← instance?_eq]
                simpa [Option.isSome_iff_ne_none] using hinstance
      case last =>
        rintro - c' ⟨-, h'⟩
        obtain ⟨hsettled, hgrows⟩ := h.settle hnew h'.grows h'.inv h'.done
        exact ⟨hsettled, hgrows, h'.grows.visited (by simp), h'.reached⟩

/-- Collecting a module that is the first. -/
theorem ModuleMap.ends_collect_first {map : ModuleMap} {key : ModuleKey} (hkey : map.IsReady key) :
    Ends (map.collect (map.entries.length + 1) key) ⟨[], []⟩
      (fun _ c => Collection.Inv map c ∧ key ∈ c.order ∧ c.visited ⊆ c.order ∧
        ∀ m ∈ c.visited, map.DependsOn key m)
      fun stop c => Collection.Stuck map key ⟨[], []⟩ stop.1 stop.2 c := by
  refine (map.ends_collect (map.entries.length + 1) key ⟨[], []⟩ (by constructor <;> simp) hkey
    (by simp)).mono ?_ fun _ _ hstuck => hstuck
  rintro - c ⟨hinv, hgrows, hmem, hreached⟩
  have hsettled : c.visited ⊆ c.order :=
    fun k hk => (hgrows.settled k hk).resolve_left (by simp)
  exact ⟨hinv, hsettled hmem, hsettled, fun m hm => (hreached m hm).resolve_left (by simp)⟩

/-! ## Failing -/

/-- Only candidates depend on the culprit, and each of them once. -/
theorem ModuleMap.dependents_sublist (map : ModuleMap) (culprit : ModuleKey)
    (candidates : List ModuleKey) : (map.dependents culprit candidates).Sublist candidates := by
  classical
  rw [dependents_eq]
  exact List.filter_sublist

/-- What a failed instantiation does to a map: loaded modules fail, and none of them makes
progress. -/
structure ModuleMap.Fails (map map' : ModuleMap) : Prop where
  advances : map.Advances map'
  progress : ∀ key, (map'.entry key).progress = (map.entry key).progress
  failure : ∀ key failure, (map.entry key).failure = some failure →
    (map'.entry key).failure = some failure
  evaluated : ∀ key, (map.entry key).status = .evaluated → (map'.entry key).status = .evaluated
  reflected : ∀ key, (map'.entry key).status = .evaluated → (map.entry key).status = .evaluated

/-- A map in which nothing more fails. -/
theorem ModuleMap.Fails.refl {map : ModuleMap} : map.Fails map :=
  ⟨.refl, fun _ => rfl, fun _ _ hk => hk, fun _ hk => hk, fun _ hk => hk⟩

/-- Failing changes no instance. -/
theorem ModuleMap.Fails.instance?_eq {map map' : ModuleMap} (h : map.Fails map') (key : ModuleKey) :
    (map'.entry key).instance? = (map.entry key).instance? := by
  rw [Entry.instance?, h.progress, Entry.instance?]

/-- A module fails. -/
def FailsWith (failure : ModuleFailure) (e e' : Entry) : Prop :=
  e' = { e with failure := some failure }

/-- Several loaded modules fail that have neither failed nor been evaluated. -/
theorem ModuleMap.Fails.of_altersAll {map map' : ModuleMap} {keys : List ModuleKey}
    {failure : ModuleFailure} (h : map.AltersAll keys (FailsWith failure) map')
    (hfailure : ∀ fault, failure ≠ .load fault) (hloaded : ∀ k ∈ keys, (map.entry k).isLoaded)
    (hunfailed : ∀ k ∈ keys, (map.entry k).failure = none)
    (hevaluated : ∀ k ∈ keys, (map.entry k).status ≠ .evaluated) : map.Fails map' := by
  have hself : ∀ k ∈ keys, map'.entry k = { map.entry k with failure := some failure } := h.altered
  have hprogress : ∀ k, (map'.entry k).progress = (map.entry k).progress := by
    intro k
    by_cases hk : k ∈ keys
    · rw [hself k hk]
    · rw [h.kept k hk]
  refine ⟨⟨h.known, h.distinct, fun k hk => ?_, fun k => ?_, fun k => by rw [hprogress],
    fun k fault hk => ?_⟩, hprogress, fun k failure hk => ?_, fun k hk => ?_, fun k hk => ?_⟩
  · refine h.kept k fun hmem => ?_
    rw [hloaded k hmem] at hk
    simp at hk
  · by_cases hk : k ∈ keys
    · rw [hself k hk]
    · rw [h.kept k hk]
  · by_cases hmem : k ∈ keys
    · rw [hself k hmem] at hk
      exact absurd (Option.some.inj hk) (hfailure fault)
    · rwa [h.kept k hmem] at hk
  · rw [h.kept k fun hmem => by simp [hunfailed k hmem] at hk]
    exact hk
  · rw [h.kept k fun hmem => hevaluated k hmem hk]
    exact hk
  · by_cases hmem : k ∈ keys
    · simp [hself k hmem, Entry.status] at hk
    · rwa [h.kept k hmem] at hk

/-- A catalog stays sound when loaded modules fail. -/
theorem Catalog.Sound.fails {importMap : ImportMap} {c : Catalog} {map : ModuleMap}
    (h : c.Sound importMap) (hmap : c.map.Fails map) :
    ({ c with map } : Catalog).Sound importMap := by
  refine h.advance hmap.advances (fun k hk d hd => ?_) fun k hk d hd => ?_
  · simp only [Entry.instance?, Entry.dependencies, hmap.progress] at hk hd ⊢
    exact h.instances k hk d hd
  · simp only [Entry.dependencies, hmap.progress] at hd
    exact hmap.evaluated d (h.evaluations k (hmap.reflected k hk) d hd)

namespace LinkM

variable {map : ModuleMap} {key culprit : ModuleKey} {candidates : List ModuleKey}
  {fault : LinkFault}

/-- Committing a step that is possible changes the map. -/
theorem ends_commit {f : ModuleMap → Except Violation ModuleMap} {g : Entry → Entry}
    {ok : Unit → ModuleMap → Prop} {error : Halt LinkFault → ModuleMap → Prop}
    (h : ∃ map', f map = .ok map' ∧ map.Alters key g map')
    (hok : ∀ map', map.Alters key g map' → ok () map') : Ends (commit f) map ok error := by
  obtain ⟨map', hf, halters⟩ := h
  unfold commit
  simp only [ends_bind, ends_get, hf, ends_set]
  exact hok map' halters

/-- Of modules that wait for their instances, those that depend on the culprit fail. -/
theorem ends_failDependents {α : Type} {ok : α → ModuleMap → Prop} (hnodup : candidates.Nodup)
    (h : ∀ k ∈ candidates, map.IsReady k) :
    Ends (failDependents culprit candidates fault : LinkM α) map ok
      fun halt map' => halt = .fault fault ∧
        map.AltersAll (map.dependents culprit candidates) (FailsWith (.link fault)) map' := by
  have hsublist := map.dependents_sublist culprit candidates
  unfold failDependents
  rw [ends_bind, ends_get, ends_bind]
  have hloop := ModuleMap.ends_alterAll (s := map) id id (fun _ => ()) (FailsWith (.link fault))
    (fun key => do
      if (← get).status? key ≠ some .failed then commit (·.markFailed key (.link fault)))
    (map.dependents culprit candidates)
  rw [List.map_id] at hloop
  refine (hloop (hnodup.sublist hsublist) fun k hk map' hentry => ?_).mono
    (fun _ _ hend => ⟨rfl, hend.2⟩) fun _ _ hfalse => hfalse.elim
  have hready : (map'.entry k).status = .loaded :=
    (congrArg Entry.status hentry).trans (h k (hsublist.subset hk))
  have hunfailed : map'.status? k ≠ some .failed := by
    rw [ne_eq, ModuleMap.status?_eq_some_iff (by simp), hready]
    simp
  rw [ends_bind, ends_get, if_pos hunfailed]
  refine ends_commit (ModuleMap.markFailed_ok (ModuleMap.isKnown_of_status_ne (by simp [hready]))
    (by simp [hready]) (by simp [hready])) fun map'' halters => ?_
  exact ⟨rfl, _, halters, rfl⟩

/-- The modules that fail have been loaded and have not been evaluated. -/
theorem fails_of_failDependents {map' : ModuleMap} (h : ∀ k ∈ candidates, map.IsReady k)
    (halters : map.AltersAll (map.dependents culprit candidates) (FailsWith (.link fault)) map') :
    map.Fails map' := by
  have hready : ∀ k ∈ map.dependents culprit candidates, map.IsReady k :=
    fun k hk => h k ((map.dependents_sublist culprit candidates).subset hk)
  refine .of_altersAll halters (by simp) (fun k hk => (hready k hk).facts.2.1)
    (fun k hk => (hready k hk).facts.2.2.1) fun k hk => ?_
  rw [show (map.entry k).status = .loaded from hready k hk]
  simp

/-! ## Instances -/

/-- Instances in the making are those of some modules, in their order, and of one round. -/
structure Prepares (map : ModuleMap) (round : Nat) (keys : List ModuleKey)
    (fresh : List Instance) : Prop where
  keys : fresh.map Instance.key = keys
  bodies : ∀ i ∈ fresh, ∃ body, (map.entry i.key).body? = some body ∧
    i = Instance.ofBody round i.key body

/-- Preparing modules makes an instance for each of them, unless one has no body. -/
theorem ends_prepare (round : Nat) (keys : List ModuleKey) :
    Ends (prepare round keys) map (fun fresh map' => map' = map ∧ Prepares map round keys fresh)
      fun halt map' => map' = map ∧
        ∃ k ∈ keys, (map.entry k).body? = none ∧ halt = .fault (.notLoaded k) := by
  unfold prepare
  rw [ends_bind, ends_get]
  refine (ends_mapM (fun done fresh rest map' => map' = map ∧ done ++ rest = keys ∧
      Prepares map round done fresh)
    (fun halt map' => map' = map ∧
      ∃ k ∈ keys, (map.entry k).body? = none ∧ halt = .fault (.notLoaded k)) ?_
    ⟨rfl, rfl, rfl, by simp⟩).mono (fun _ _ hend => ⟨hend.1, hend.2.2⟩) fun _ _ hend => hend
  rintro done fresh k rest map' ⟨hmap, hsplit, hkeys, hbodies⟩
  split
  · next body hbody =>
      refine ⟨hmap, by simpa using hsplit, by simp [hkeys, Instance.ofBody], fun i hi => ?_⟩
      rcases List.mem_append.1 hi with hi | hi
      · exact hbodies i hi
      · obtain rfl := List.mem_singleton.1 hi
        exact ⟨body, hbody, rfl⟩
  · next hbody => exact ⟨hmap, k, by simp [← hsplit], hbody, rfl⟩

/-- Linking an instance leaves its identity and its locals. -/
theorem of_link {l : Linker} {i linked : Instance} (h : l.link i = .ok linked) :
    linked.id = i.id ∧ linked.locals = i.locals := by
  unfold Linker.link at h
  cases hview : l.map.linkView? i.key with
  | none => simp [hview] at h
  | some view =>
      simp only [hview, bind, Except.bind] at h
      split at h <;> try simp at h
      split at h <;> try simp at h
      split at h <;> try simp at h
      rw [← h]
      exact ⟨rfl, rfl⟩

/-- Linking leaves instances those of their modules. -/
theorem keys_of_links {l : Linker} {fresh linked : List Instance}
    (h : List.Forall₂ (fun i j => l.link i = .ok j) fresh linked) :
    linked.map Instance.key = fresh.map Instance.key := by
  induction h with
  | nil => rfl
  | @cons i j _ _ hlink _ ih =>
      have hkey : j.key = i.key := congrArg InstanceId.key (of_link hlink).1
      rw [List.map_cons, List.map_cons, ih, hkey]

/-- Either all instances are linked, or the modules that depend on the first one that cannot be
linked fail. -/
theorem ends_linkAll (hnodup : candidates.Nodup) (h : ∀ k ∈ candidates, map.IsReady k)
    (fresh : List Instance) :
    Ends (linkAll candidates fresh) map
      (fun linked map' => map' = map ∧
        List.Forall₂ (fun i j => Linker.link ⟨map, fresh⟩ i = .ok j) fresh linked)
      fun halt map' => ∃ i ∈ fresh, ∃ fault, Linker.link ⟨map, fresh⟩ i = .error fault ∧
        halt = .fault fault ∧
        map.AltersAll (map.dependents i.key candidates) (FailsWith (.link fault)) map' := by
  unfold linkAll
  simp only [ends_bind, ends_get]
  refine (ends_mapM (fun done linked rest map' => map' = map ∧ done ++ rest = fresh ∧
      List.Forall₂ (fun i j => Linker.link ⟨map, fresh⟩ i = .ok j) done linked)
    (fun halt map' => ∃ i ∈ fresh, ∃ fault, Linker.link ⟨map, fresh⟩ i = .error fault ∧
      halt = .fault fault ∧
      map.AltersAll (map.dependents i.key candidates) (FailsWith (.link fault)) map') ?_
    ⟨rfl, rfl, .nil⟩).mono (fun _ _ hend => ⟨hend.1, hend.2.2⟩) fun _ _ hend => hend
  rintro done linked i rest map' ⟨rfl, hsplit, hlinked⟩
  split
  · next j hj =>
      exact ⟨rfl, by simpa using hsplit, List.rel_append hlinked (.cons hj .nil)⟩
  · next fault hfault =>
      refine (ends_failDependents hnodup h).mono (fun _ _ hend => hend) ?_
      rintro _ map'' ⟨rfl, halters⟩
      exact ⟨i, by simp [← hsplit], fault, hfault, rfl, halters⟩

end LinkM

/-- A module gets its instance. -/
def Instantiates (e e' : Entry) : Prop :=
  ∃ i, e' = { e with progress := .instantiated e.dependencies i }

/-- Modules that get their instances move forward. -/
theorem Instantiates.advances {map map' : ModuleMap} {keys : List ModuleKey}
    (h : map.AltersAll keys Instantiates map') (hready : ∀ k ∈ keys, map.IsReady k) :
    map.Advances map' := by
  refine .of_altersAll h (fun k hk => (hready k hk).facts.2.1) ?_
  rintro e _ ⟨i, rfl⟩ hloaded
  exact ⟨rfl, (ModuleMap.dependencies?_of_isLoaded hloaded).symm, rfl⟩

/-- A catalog stays sound when all modules of a closed collection get their instances. -/
theorem Catalog.Sound.instantiates {importMap : ImportMap} {c : Catalog} {map : ModuleMap}
    {keys : List ModuleKey} (h : c.Sound importMap) (hmap : c.map.AltersAll keys Instantiates map)
    (hready : ∀ k ∈ keys, c.map.IsReady k)
    (hclosed : ∀ k ∈ keys, ∀ d ∈ (c.map.entry k).dependencies,
      (c.map.entry d).instance?.isSome ∨ d ∈ keys) :
    ({ c with map } : Catalog).Sound importMap := by
  have hadvances := Instantiates.advances hmap hready
  have hdependencies : ∀ k, (map.entry k).dependencies = (c.map.entry k).dependencies := by
    intro k
    rw [Entry.dependencies, hadvances.dependencies k, Entry.dependencies]
  have hinstance : ∀ k, (c.map.entry k).instance?.isSome ∨ k ∈ keys →
      (map.entry k).instance?.isSome := by
    intro k hk
    by_cases hmem : k ∈ keys
    · obtain ⟨i, hi⟩ := hmap.altered k hmem
      rw [hi]
      rfl
    · rw [hmap.kept k hmem]
      exact hk.resolve_right hmem
  refine h.advance hadvances (fun k hk d hd => ?_) fun k hk d hd => ?_
  · rw [hdependencies] at hd
    by_cases hmem : k ∈ keys
    · exact hinstance d (hclosed k hmem d hd)
    · rw [hmap.kept k hmem] at hk
      exact hinstance d (.inl (h.instances k hk d hd))
  · rw [hdependencies] at hd
    -- the altered modules were waiting for their instances, so that none of them has been evaluated
    have hunready : ∀ j, (c.map.entry j).status = .evaluated → j ∉ keys := by
      intro j hj hmem
      have hstatus : (c.map.entry j).status = .loaded := hready j hmem
      simp [hj] at hstatus
    have hold : k ∉ keys := by
      intro hmem
      obtain ⟨i, hi⟩ := hmap.altered k hmem
      simp [hi, Entry.status, (hready k hmem).facts.2.2.1, Progress.status] at hk
    rw [hmap.kept k hold] at hk
    have hevaluated := h.evaluations k hk d hd
    rw [hmap.kept d (hunready d hevaluated)]
    exact hevaluated

/-- A module gets one of the given instances. -/
def InstantiatesFrom (linked : List Instance) (e e' : Entry) : Prop :=
  ∃ i ∈ linked, i.key = e.key ∧ e' = { e with progress := .instantiated e.dependencies i }

/-- A module that gets one of some instances gets an instance. -/
theorem InstantiatesFrom.instantiates {linked : List Instance} {e e' : Entry}
    (h : InstantiatesFrom linked e e') : Instantiates e e' := by
  obtain ⟨i, -, -, he⟩ := h
  exact ⟨i, he⟩

namespace LinkM

/-- Instances with different keys are committed one after the other. -/
theorem ends_commitAll {map : ModuleMap} (linked : List Instance)
    (hnodup : (linked.map Instance.key).Nodup)
    (hready : ∀ k ∈ linked.map Instance.key, map.IsReady k) :
    Ends (linked.forM fun i => commit (·.markInstantiated i.key i)) map
      (fun _ map' => map.AltersAll (linked.map Instance.key) (InstantiatesFrom linked) map')
      fun _ _ => False := by
  refine (ModuleMap.ends_alterAll Instance.key id (fun _ => ()) (InstantiatesFrom linked)
    (fun i => commit (·.markInstantiated i.key i)) linked hnodup fun i hi map' hentry => ?_).mono
    (fun _ _ hend => hend.2) fun _ _ hfalse => hfalse
  have hkey := hready i.key (List.mem_map_of_mem hi)
  have hstatus : (map'.entry i.key).status = .loaded := (congrArg Entry.status hentry).trans hkey
  refine ends_commit (ModuleMap.markInstantiated_ok
    (ModuleMap.isKnown_of_status_ne (by simp [hstatus])) hstatus) fun map'' halters => ?_
  exact ⟨rfl, _, halters, i, hi, ModuleMap.entry_key.symm, rfl⟩

/-- What an instantiation that succeeds has done: all collected modules have got their instances,
which have been linked with each other. -/
structure Completes (map : ModuleMap) (round : Nat) (key : ModuleKey) (c : Collection)
    (fresh linked : List Instance) (map' : ModuleMap) : Prop where
  collected : map.collect (map.entries.length + 1) key ⟨[], []⟩ = .ok () c
  prepared : Prepares map round c.order fresh
  links : List.Forall₂ (fun i j => Linker.link ⟨map, fresh⟩ i = .ok j) fresh linked
  altered : map.AltersAll c.order (InstantiatesFrom linked) map'

/-- What an instantiation that fails has done: the collection has got stuck, a module has no body,
or an instance could not be linked. -/
inductive Rejects (map : ModuleMap) (round : Nat) (key : ModuleKey) : LinkFault → ModuleMap → Prop
  | stuck {c : Collection} {culprit : ModuleKey} {fault : LinkFault} {map' : ModuleMap} :
      map.collect (map.entries.length + 1) key ⟨[], []⟩ = .error (culprit, fault) c →
      map.AltersAll (map.dependents culprit c.visited) (FailsWith (.link fault)) map' →
      Rejects map round key fault map'
  | bodiless {k : ModuleKey} : map.IsReady k → (map.entry k).body? = none →
      Rejects map round key (.notLoaded k) map
  | unlinked {c : Collection} {fresh : List Instance} {i : Instance} {fault : LinkFault}
      {map' : ModuleMap} :
      map.collect (map.entries.length + 1) key ⟨[], []⟩ = .ok () c →
      Prepares map round c.order fresh → i ∈ fresh → Linker.link ⟨map, fresh⟩ i = .error fault →
      map.AltersAll (map.dependents i.key c.visited) (FailsWith (.link fault)) map' →
      Rejects map round key fault map'

/-- Nothing is committed before all instances have been made and linked. -/
theorem ends_instantiate {map : ModuleMap} (round : Nat) {key : ModuleKey}
    (hkey : map.IsReady key) :
    Ends (LinkM.instantiate round key) map
      (fun _ map' => ∃ c fresh linked, Completes map round key c fresh linked map')
      fun halt map' => ∃ fault, halt = .fault fault ∧ Rejects map round key fault map' := by
  have hcollect := ModuleMap.ends_collect_first hkey
  unfold LinkM.instantiate
  rw [ends_bind, ends_get]
  split
  · next culprit fault c hresult =>
      have hinv := (hcollect.of_error hresult).inv
      refine (ends_failDependents hinv.visited_nodup hinv.ready).mono (fun _ _ hend => hend) ?_
      rintro _ map' ⟨rfl, halters⟩
      exact ⟨fault, rfl, .stuck hresult halters⟩
  · next c hresult =>
      obtain ⟨hinv, hmem, -, -⟩ := hcollect.of_ok hresult
      have hready : ∀ k ∈ c.order, map.IsReady k :=
        fun k hk => hinv.ready k (hinv.order_visited hk)
      rw [ends_bind]
      refine (ends_prepare round c.order).mono ?_ ?_
      · rintro fresh _ ⟨rfl, hfresh⟩
        rw [ends_bind]
        refine (ends_linkAll hinv.visited_nodup hinv.ready fresh).mono ?_ ?_
        · rintro linked _ ⟨rfl, hlinked⟩
          have hkeys : linked.map Instance.key = c.order :=
            (keys_of_links hlinked).trans hfresh.keys
          rw [ends_bind]
          refine (ends_commitAll linked (hkeys ▸ hinv.order_nodup) (hkeys ▸ hready)).mono ?_
            fun _ _ hfalse => hfalse.elim
          intro _ map' halters
          rw [hkeys] at halters
          split
          · exact ⟨c, fresh, linked, hresult, hfresh, hlinked, halters⟩
          · next hnone =>
              -- `key` has been collected itself, so that its instance is among the linked ones
              obtain ⟨i, hi, hsame⟩ := List.mem_map.1 (hkeys ▸ hmem)
              simpa [hsame] using List.find?_eq_none.1 hnone i hi
        · rintro _ map' ⟨i, hi, fault, hfault, rfl, halters⟩
          exact ⟨fault, rfl, .unlinked hresult hfresh hi hfault halters⟩
      · rintro _ _ ⟨rfl, k, hk, hbody, rfl⟩
        exact ⟨_, rfl, .bodiless (hready k hk) hbody⟩

end LinkM

/-- Instantiating a module finds that it has an instance or cannot get one, or collects and links
what it depends on. -/
theorem ModuleMap.ends_instantiate (map : ModuleMap) (round : Nat) (key : ModuleKey) :
    Ends (ModuleMap.instantiate round key) map
      (fun i map' => (map' = map ∧ map.instance? key = some i) ∨
        map.IsReady key ∧ ∃ c fresh linked, LinkM.Completes map round key c fresh linked map')
      fun halt map' => ∃ fault, halt = .fault fault ∧
        ((map' = map ∧ map.linkFault? key = some fault) ∨
          map.IsReady key ∧ LinkM.Rejects map round key fault map') := by
  unfold ModuleMap.instantiate
  rw [ends_bind, ends_get]
  cases hfault : map.linkFault? key with
  | some fault => exact ⟨fault, rfl, .inl ⟨rfl, rfl⟩⟩
  | none =>
      cases hinstance : map.instance? key with
      | some i => exact .inl ⟨rfl, rfl⟩
      | none =>
          have hready := isReady_of_linkFault? hfault hinstance
          refine (LinkM.ends_instantiate round hready).mono (fun _ _ hend => .inr ⟨hready, hend⟩) ?_
          intro halt map' hend
          obtain ⟨fault, hhalt, hrejects⟩ := hend
          exact ⟨fault, hhalt, .inr ⟨hready, hrejects⟩⟩

/-- What is collected for an instantiation that succeeds is closed and ready. -/
theorem LinkM.Completes.collection {map map' : ModuleMap} {round : Nat} {key : ModuleKey}
    {c : Collection} {fresh linked : List Instance} (hkey : map.IsReady key)
    (h : LinkM.Completes map round key c fresh linked map') :
    (∀ k ∈ c.order, map.IsReady k) ∧
      ∀ k ∈ c.order, ∀ d ∈ (map.entry k).dependencies,
        (map.entry d).instance?.isSome ∨ d ∈ c.order := by
  obtain ⟨hinv, -, hsettled, -⟩ := (ModuleMap.ends_collect_first hkey).of_ok h.collected
  exact ⟨fun k hk => hinv.ready k (hinv.order_visited hk),
    fun k hk d hd => (hinv.closed k hk d hd).imp id fun hd => hsettled hd⟩

/-- An instantiation that fails only makes modules fail. -/
theorem LinkM.Rejects.fails {map map' : ModuleMap} {round : Nat} {key : ModuleKey}
    {fault : LinkFault} (hkey : map.IsReady key) (h : LinkM.Rejects map round key fault map') :
    map.Fails map' := by
  have hcollect := ModuleMap.ends_collect_first hkey
  cases h with
  | stuck hresult halters =>
      exact fails_of_failDependents (hcollect.of_error hresult).inv.ready halters
  | bodiless => exact .refl
  | unlinked hresult _ _ _ halters =>
      exact fails_of_failDependents (hcollect.of_ok hresult).1.ready halters

/-- Instantiating a module keeps a catalog sound, and ends in no other way than with a fault if it
fails. -/
theorem Catalog.Sound.ends_instantiate {importMap : ImportMap} {c : Catalog} (h : c.Sound importMap)
    (round : Nat) (key : ModuleKey) :
    Ends (ModuleMap.instantiate round key) c.map
      (fun _ map => ({ c with map } : Catalog).Sound importMap)
      fun halt map => (∃ fault, halt = .fault fault) ∧
        ({ c with map } : Catalog).Sound importMap := by
  refine (c.map.ends_instantiate round key).mono ?_ ?_
  · rintro i map (⟨rfl, -⟩ | ⟨hready, collection, fresh, linked, hcompletes⟩)
    · exact h
    · obtain ⟨hreadies, hclosed⟩ := hcompletes.collection hready
      exact h.instantiates (hcompletes.altered.mono fun _ _ he => he.instantiates) hreadies hclosed
  · rintro _ map ⟨fault, rfl, ⟨rfl, -⟩ | ⟨hready, hrejects⟩⟩
    · exact ⟨⟨fault, rfl⟩, h⟩
    · exact ⟨⟨fault, rfl⟩, h.fails (hrejects.fails hready)⟩

end ModuleGraph
