import Mathlib.Data.List.Nodup
import ModuleGraph.Library
import ModuleGraph.Proofs.Outcome

/-!
# Entries of the module map

What the operations on the map do to the entry of each key. `ModuleMap.entry` is total, so that most
statements are equations between entries; `ModuleMap.IsKnown` says which keys have one. The steps of
a module are given by `markLoading_ok` and its companions: a step that is possible alters one
entry. `isOk_markLoading_iff` and its companions say when a step is possible. `ends_alterAll` is the
rule of loops that take a step with each of several modules.
-/

namespace ModuleGraph

namespace Entry

variable {e : Entry}

@[simp] theorem status_eq_failed_iff : e.status = .failed ↔ e.failure.isSome := by
  unfold status
  cases e.failure with
  | none => cases e.progress <;> simp [Progress.status]
  | some failure => simp

/-- An entry has a status other than failed just if it has not failed and its progress is there. -/
theorem status_eq_iff {s : Status} (hs : s ≠ .failed) :
    e.status = s ↔ e.failure = none ∧ e.progress.status = s := by
  unfold status
  cases e.failure with
  | none => simp
  | some failure => simpa using hs.symm

/-- A registered entry has made no progress. -/
theorem status_eq_registered_iff :
    e.status = .registered ↔ e.failure = none ∧ e.progress = .registered := by
  rw [status_eq_iff (by decide)]
  cases e.progress <;> simp [Progress.status]

/-- A loading entry has started to load. -/
theorem status_eq_loading_iff :
    e.status = .loading ↔ e.failure = none ∧ e.progress = .loading := by
  rw [status_eq_iff (by decide)]
  cases e.progress <;> simp [Progress.status]

/-- A loaded entry has its dependencies, and no instance. -/
theorem status_eq_loaded_iff :
    e.status = .loaded ↔ e.failure = none ∧ e.progress = .loaded e.dependencies := by
  rw [status_eq_iff (by decide)]
  cases h : e.progress <;> simp [Progress.status, dependencies, Progress.dependencies?, h]

/-- An instantiated entry has its dependencies and an instance. -/
theorem status_eq_instantiated_iff :
    e.status = .instantiated ↔
      e.failure = none ∧ ∃ i, e.progress = .instantiated e.dependencies i := by
  rw [status_eq_iff (by decide)]
  cases h : e.progress <;> simp [Progress.status, dependencies, Progress.dependencies?, h]

/-- An evaluated entry has its dependencies and an instance. -/
theorem status_eq_evaluated_iff :
    e.status = .evaluated ↔ e.failure = none ∧ ∃ i, e.progress = .evaluated e.dependencies i := by
  rw [status_eq_iff (by decide)]
  cases h : e.progress <;> simp [Progress.status, dependencies, Progress.dependencies?, h]

/-- A module that is still to be loaded has gained nothing. -/
theorem nothing_of_status (h : e.status = .registered ∨ e.status = .loading) :
    e.failure = none ∧ e.isLoaded = false ∧ e.instance? = none := by
  rcases h with h | h
  · obtain ⟨hfailure, hprogress⟩ := status_eq_registered_iff.1 h
    simp [hfailure, isLoaded, instance?, hprogress, Progress.dependencies?, Progress.instance?]
  · obtain ⟨hfailure, hprogress⟩ := status_eq_loading_iff.1 h
    simp [hfailure, isLoaded, instance?, hprogress, Progress.dependencies?, Progress.instance?]

/-- A loaded module has got beyond loading. -/
theorem status_ne_registered_of_isLoaded (h : e.isLoaded) : e.status ≠ .registered := by
  rw [ne_eq, status_eq_registered_iff]
  rintro ⟨-, hprogress⟩
  simp [isLoaded, hprogress, Progress.dependencies?] at h

/-- Only loaded modules have dependencies. -/
theorem isLoaded_of_mem_dependencies {d : ModuleKey} (h : d ∈ e.dependencies) : e.isLoaded := by
  unfold dependencies at h
  unfold isLoaded
  cases hd : e.progress.dependencies? with
  | none => simp [hd] at h
  | some dependencies => rfl

/-- Only loaded modules have an instance. -/
theorem isLoaded_of_instance (h : e.instance?.isSome) : e.isLoaded := by
  unfold instance? at h
  unfold isLoaded
  cases hp : e.progress <;> simp [hp, Progress.instance?] at h <;> rfl

/-- An evaluated module has an instance. -/
theorem instance_isSome_of_evaluated (h : e.status = .evaluated) : e.instance?.isSome := by
  obtain ⟨-, i, hprogress⟩ := status_eq_evaluated_iff.1 h
  simp [instance?, hprogress, Progress.instance?]

/-- The load fault of an entry is the fault that its failure holds. -/
theorem loadFault?_eq_some_iff {fault : LoadFault} :
    e.loadFault? = some fault ↔ e.failure = some (.load fault) := by
  unfold loadFault?
  cases e.failure with
  | none => simp
  | some failure => cases failure <;> simp

/-- An entry that is given the key it has is the same entry. -/
theorem with_key {key : ModuleKey} (h : e.key = key) : { e with key := key } = e := by
  subst h
  rfl

@[simp] theorem attach_key (d : Declaration) : (e.attach d).key = e.key := rfl

end Entry

namespace ModuleMap

variable {map : ModuleMap} {key k : ModuleKey} {e : Entry}

/-- A key that has an entry. -/
def IsKnown (map : ModuleMap) (key : ModuleKey) : Prop :=
  (map.get? key).isSome

/-- No key has two entries. -/
def Distinct (map : ModuleMap) : Prop :=
  (map.entries.map Entry.key).Nodup

/-- The entry of a key has this key. -/
theorem key_of_get? (h : map.get? key = some e) : e.key = key := by
  simpa using List.find?_some h

@[simp] theorem entry_key : (map.entry key).key = key := by
  unfold entry
  cases h : map.get? key with
  | none => rfl
  | some e => exact key_of_get? h

/-- A known key has its entry in the map. -/
theorem get?_eq_some_entry (h : map.IsKnown key) : map.get? key = some (map.entry key) := by
  obtain ⟨e, he⟩ := Option.isSome_iff_exists.1 h
  simp [entry, he]

/-- The entry of a key is the one that the map has for it. -/
theorem entry_of_get? (h : map.get? key = some e) : map.entry key = e := by
  simp [entry, h]

/-- Of a key without an entry nothing is known. -/
theorem entry_of_not_isKnown (h : ¬ map.IsKnown key) : map.entry key = Entry.ofKey key := by
  have hnone : map.get? key = none := by simpa [IsKnown] using h
  simp [entry, hnone]

/-- A module that has made a step is known. -/
theorem isKnown_of_status_ne (h : (map.entry key).status ≠ .registered) : map.IsKnown key := by
  by_contra hunknown
  rw [entry_of_not_isKnown hunknown] at h
  exact h rfl

/-- A loaded module is known. -/
theorem isKnown_of_isLoaded (h : (map.entry key).isLoaded) : map.IsKnown key :=
  isKnown_of_status_ne (Entry.status_ne_registered_of_isLoaded h)

/-- A failed module is known. -/
theorem isKnown_of_failure {failure : ModuleFailure}
    (h : (map.entry key).failure = some failure) : map.IsKnown key := by
  refine isKnown_of_status_ne fun hregistered => ?_
  rw [(Entry.status_eq_registered_iff.1 hregistered).1] at h
  cases h

/-- The map says of a module what its entry says. -/
theorem isLoaded_eq : map.isLoaded key = (map.entry key).isLoaded := by
  unfold isLoaded entry
  cases map.get? key <;> rfl

/-- The map has a status for a module just if its entry has it, where new entries are registered. -/
theorem status?_eq_some_iff {status : Status} (h : status ≠ .registered) :
    map.status? key = some status ↔ (map.entry key).status = status := by
  unfold status? entry
  cases map.get? key with
  | none => simpa [Entry.ofKey, Entry.status, Progress.status] using h.symm
  | some e => simp

/-- With distinct keys the entries are those that are found. -/
theorem mem_entries_iff (hdistinct : map.Distinct) :
    e ∈ map.entries ↔ map.get? e.key = some e := by
  obtain ⟨entries⟩ := map
  unfold Distinct at hdistinct
  unfold get?
  induction entries with
  | nil => simp
  | cons a entries ih =>
      simp only [List.map_cons, List.nodup_cons, List.mem_map, not_exists, not_and] at hdistinct
      by_cases h : a.key = e.key
      · have hnot : e ∉ entries := fun he => hdistinct.1 e he h.symm
        simp only [List.mem_cons, hnot, or_false, List.find?_cons, h, BEq.rfl, Option.some.injEq]
        exact eq_comm
      · have hne : e ≠ a := fun he => h (he ▸ rfl)
        simp [hne, h, ih hdistinct.2]

/-- The keys of the entries are the known ones. -/
theorem mem_keys_iff : key ∈ map.entries.map Entry.key ↔ map.IsKnown key := by
  simp [IsKnown, get?, List.find?_isSome]

/-! ## Registering -/

/-- Registering gives a key an entry and changes no other one. -/
theorem get?_register :
    (map.register k).get? key = if key = k then some (map.entry k) else map.get? key := by
  unfold register
  split
  · next hknown =>
      by_cases h : key = k
      · subst h
        simp [get?_eq_some_entry hknown]
      · simp [h]
  · next hunknown =>
      have hentry : map.entry k = Entry.ofKey k := entry_of_not_isKnown hunknown
      by_cases h : key = k
      · subst h
        have hnone : map.entries.find? (·.key == key) = none :=
          Option.not_isSome_iff_eq_none.1 hunknown
        simp [get?, hnone, hentry, Entry.ofKey]
      · have hne : k ≠ key := fun he => h he.symm
        simp [get?, h, hne, Entry.ofKey]

/-- Registering a known key changes nothing. -/
theorem register_of_isKnown (h : map.IsKnown key) : map.register key = map :=
  if_pos h

@[simp] theorem entry_register : (map.register k).entry key = map.entry key := by
  unfold entry
  rw [get?_register]
  split
  · next h => simp [h, entry]
  · rfl

@[simp] theorem isKnown_register : (map.register k).IsKnown key ↔ key = k ∨ map.IsKnown key := by
  unfold IsKnown
  rw [get?_register]
  by_cases h : key = k <;> simp [h]

/-- Registering a key gives none a second entry. -/
theorem distinct_register (h : map.Distinct) : (map.register k).Distinct := by
  unfold register
  split
  · exact h
  · next hunknown =>
      have hnew : k ∉ map.entries.map Entry.key := fun hmem => hunknown (mem_keys_iff.1 hmem)
      rw [Distinct, List.map_append, List.nodup_append]
      refine ⟨h, by simp, ?_⟩
      rintro a ha b hb rfl
      obtain rfl : a = k := by simpa [Entry.ofKey] using hb
      exact hnew ha

/-! ## Changing entries -/

/-- An update changes the entry of its key and no other one. -/
theorem get?_update {f : Entry → Entry} (hf : ∀ e, (f e).key = e.key) :
    (map.update k f).get? key = (map.get? key).map fun e => if key = k then f e else e := by
  have hkey : ∀ e : Entry, (if e.key == k then f e else e).key = e.key := by
    intro e
    split <;> simp [hf]
  unfold get? update
  rw [List.find?_map]
  simp only [Function.comp_def, hkey]
  cases h : map.entries.find? (·.key == key) with
  | none => rfl
  | some e =>
      obtain rfl : e.key = key := by simpa using List.find?_some h
      simp

/-- An update gives no key a second entry. -/
theorem distinct_update {f : Entry → Entry} (hf : ∀ e, (f e).key = e.key) (h : map.Distinct) :
    (map.update k f).Distinct := by
  have hkeys : ((map.update k f).entries.map Entry.key) = map.entries.map Entry.key := by
    simp only [update, List.map_map]
    refine List.map_congr_left fun e _ => ?_
    simp only [Function.comp]
    split <;> simp [hf]
  rwa [Distinct, hkeys]

@[simp] theorem isKnown_update {f : Entry → Entry} (hf : ∀ e, (f e).key = e.key) :
    (map.update k f).IsKnown key ↔ map.IsKnown key := by
  simp [IsKnown, get?_update hf]

/-- The entry of a known key is updated, and all others stay. -/
theorem entry_update {f : Entry → Entry} (hf : ∀ e, (f e).key = e.key) (h : map.IsKnown k) :
    (map.update k f).entry key = if key = k then f (map.entry k) else map.entry key := by
  unfold entry
  rw [get?_update hf]
  by_cases he : key = k
  · subst he
    simp [get?_eq_some_entry h]
  · cases map.get? key <;> simp [he]

/-- One map differs from another in the entry of a key. -/
structure Alters (map : ModuleMap) (key : ModuleKey) (f : Entry → Entry) (map' : ModuleMap) :
    Prop where
  entry : ∀ k, map'.entry k = if k = key then f (map.entry k) else map.entry k
  known : ∀ k, map'.IsKnown k ↔ map.IsKnown k
  distinct : map.Distinct → map'.Distinct

/-- One map differs from another in the entries of some keys, all of which change in one way. -/
structure AltersAll (map : ModuleMap) (keys : List ModuleKey) (change : Entry → Entry → Prop)
    (map' : ModuleMap) : Prop where
  altered : ∀ k ∈ keys, change (map.entry k) (map'.entry k)
  kept : ∀ k, k ∉ keys → map'.entry k = map.entry k
  known : ∀ k, map'.IsKnown k ↔ map.IsKnown k
  distinct : map.Distinct → map'.Distinct

/-- No entries change when there are no keys. -/
theorem AltersAll.nil {change : Entry → Entry → Prop} : map.AltersAll [] change map :=
  ⟨by simp, fun _ _ => rfl, fun _ => Iff.rfl, id⟩

/-- Entries that change in one way change in every weaker way. -/
theorem AltersAll.mono {keys : List ModuleKey} {change change' : Entry → Entry → Prop}
    {map' : ModuleMap} (h : map.AltersAll keys change map')
    (hchange : ∀ e e', change e e' → change' e e') : map.AltersAll keys change' map' :=
  ⟨fun k hk => hchange _ _ (h.altered k hk), h.kept, h.known, h.distinct⟩

/-- One more entry is altered. -/
theorem AltersAll.snoc {keys : List ModuleKey} {change : Entry → Entry → Prop} {f : Entry → Entry}
    {map' map'' : ModuleMap} (h : map.AltersAll keys change map') (hkey : key ∉ keys)
    (h' : map'.Alters key f map'') (hchange : change (map.entry key) (f (map.entry key))) :
    map.AltersAll (keys ++ [key]) change map'' := by
  refine ⟨fun k hk => ?_, fun k hk => ?_, fun k => (h'.known k).trans (h.known k),
    fun hmap => h'.distinct (h.distinct hmap)⟩
  · by_cases hsame : k = key
    · rw [h'.entry, if_pos hsame, hsame, h.kept key hkey]
      exact hchange
    · rw [h'.entry, if_neg hsame]
      exact h.altered k (by simpa [hsame] using hk)
  · have hnot : k ∉ keys ∧ k ≠ key := by simpa using hk
    rw [h'.entry, if_neg hnot.2, h.kept k hnot.1]

/-! ## Declaring -/

/-- Declaring a module attaches the declaration to its entry and changes no other one. -/
theorem entry_declare {d : Declaration} :
    (map.declare k d).entry key = if key = k then (map.entry k).attach d else map.entry key := by
  unfold declare
  rw [entry_update (fun e => e.attach_key d) (by simp)]
  simp

@[simp] theorem isKnown_declare {d : Declaration} :
    (map.declare k d).IsKnown key ↔ key = k ∨ map.IsKnown key := by
  simp [declare, isKnown_update fun e : Entry => e.attach_key d]

/-- Declaring a module gives no key a second entry. -/
theorem distinct_declare {d : Declaration} (h : map.Distinct) : (map.declare k d).Distinct :=
  distinct_update (fun e => e.attach_key d) (distinct_register h)

/-! ## Steps -/

/-- A step that is possible alters the entry. -/
theorem step_ok {f : Entry → Except Violation Entry} {g : Entry → Entry} (hknown : map.IsKnown key)
    (hf : f (map.entry key) = .ok (g (map.entry key))) (hg : ∀ e, (g e).key = e.key) :
    ∃ map', map.step key f = .ok map' ∧ map.Alters key g map' := by
  have hreplace : ∀ e : Entry, ({ g (map.entry key) with key := e.key } : Entry).key = e.key :=
    fun _ => rfl
  refine ⟨map.update key fun e => { g (map.entry key) with key := e.key }, ?_, ?_, ?_, ?_⟩
  · simp only [step, get?_eq_some_entry hknown, hf, Except.map, update]
    refine congrArg (fun entries => Except.ok (ModuleMap.mk entries)) (List.map_congr_left ?_)
    intro e _
    by_cases he : e.key = key
    · have hkey : (g (map.entry key)).key = e.key := by rw [hg, entry_key, he]
      rw [Entry.with_key hkey]
    · simp [he]
  · intro k
    rw [entry_update hreplace hknown]
    by_cases hk : k = key
    · subst hk
      rw [if_pos rfl, if_pos rfl]
      exact Entry.with_key (hg _)
    · simp [hk]
  · exact fun k => isKnown_update hreplace
  · exact distinct_update hreplace

/-- A step that is possible changes the progress of an entry. -/
theorem advance_eq {next : Status} {f : Progress → Option Progress} {progress : Progress}
    (hfailure : e.failure = none) (hf : f e.progress = some progress) :
    advance next f e = .ok { e with progress } := by
  simp [advance, hfailure, hf]

/-- A registered module can start to load. -/
theorem markLoading_ok (hknown : map.IsKnown key) (h : (map.entry key).status = .registered) :
    ∃ map', map.markLoading key = .ok map' ∧
      map.Alters key (fun e => { e with progress := .loading }) map' := by
  obtain ⟨hfailure, hprogress⟩ := Entry.status_eq_registered_iff.1 h
  exact step_ok hknown (advance_eq hfailure (by rw [hprogress])) fun _ => rfl

/-- A loading module can be loaded with any dependencies. -/
theorem markLoaded_ok {dependencies : List ModuleKey} (hknown : map.IsKnown key)
    (h : (map.entry key).status = .loading) :
    ∃ map', map.markLoaded key dependencies = .ok map' ∧
      map.Alters key (fun e => { e with progress := .loaded dependencies }) map' := by
  obtain ⟨hfailure, hprogress⟩ := Entry.status_eq_loading_iff.1 h
  exact step_ok hknown (advance_eq hfailure (by rw [hprogress])) fun _ => rfl

/-- A loaded module can be instantiated with any instance. -/
theorem markInstantiated_ok {i : Instance} (hknown : map.IsKnown key)
    (h : (map.entry key).status = .loaded) :
    ∃ map', map.markInstantiated key i = .ok map' ∧
      map.Alters key (fun e => { e with progress := .instantiated e.dependencies i }) map' := by
  obtain ⟨hfailure, hprogress⟩ := Entry.status_eq_loaded_iff.1 h
  exact step_ok hknown (advance_eq hfailure (by rw [hprogress])) fun _ => rfl

/-- An instantiated module can be evaluated, and keeps its instance. -/
theorem markEvaluated_ok {i : Instance} (hknown : map.IsKnown key)
    (h : (map.entry key).status = .instantiated) (hi : (map.entry key).instance? = some i) :
    ∃ map', map.markEvaluated key = .ok map' ∧
      map.Alters key (fun e => { e with progress := .evaluated e.dependencies i }) map' := by
  obtain ⟨hfailure, j, hprogress⟩ := Entry.status_eq_instantiated_iff.1 h
  obtain rfl : j = i := by simpa [Entry.instance?, hprogress, Progress.instance?] using hi
  exact step_ok hknown (advance_eq hfailure (by rw [hprogress])) fun _ => rfl

/-- A module can fail unless it has failed or has been evaluated. -/
theorem markFailed_ok {failure : ModuleFailure} (hknown : map.IsKnown key)
    (hfailed : (map.entry key).status ≠ .failed)
    (hevaluated : (map.entry key).status ≠ .evaluated) :
    ∃ map', map.markFailed key failure = .ok map' ∧
      map.Alters key (fun e => { e with failure := some failure }) map' := by
  refine step_ok hknown ?_ fun _ => rfl
  cases h : (map.entry key).status <;> simp_all

/-! ## Which steps are possible -/

/-- A step that advances a module is possible at one status only. -/
theorem isOk_advance_iff {next before : Status} {f : Progress → Option Progress}
    (hbefore : before ≠ .failed) (hf : ∀ p, (f p).isSome ↔ p.status = before) :
    (map.step key (advance next f)).isOk ↔ map.status? key = some before := by
  unfold step status?
  cases map.get? key with
  | none => simp [Except.isOk, Except.toBool]
  | some e =>
      have hfound : (f e.progress).isSome ↔ e.progress.status = before := hf e.progress
      simp only [Option.map_some, Option.some.injEq, Entry.status_eq_iff hbefore, ← hfound, advance]
      cases e.failure with
      | some failure => simp [Except.map, Except.isOk, Except.toBool]
      | none => cases f e.progress <;> simp [Except.map, Except.isOk, Except.toBool]

/-- Just registered modules can start to load. -/
theorem isOk_markLoading_iff :
    (map.markLoading key).isOk ↔ map.status? key = some .registered :=
  isOk_advance_iff (by decide) fun p => by cases p <;> simp [Progress.status]

/-- Just loading modules can be loaded. -/
theorem isOk_markLoaded_iff {dependencies : List ModuleKey} :
    (map.markLoaded key dependencies).isOk ↔ map.status? key = some .loading :=
  isOk_advance_iff (by decide) fun p => by cases p <;> simp [Progress.status]

/-- Just loaded modules can be instantiated. -/
theorem isOk_markInstantiated_iff {i : Instance} :
    (map.markInstantiated key i).isOk ↔ map.status? key = some .loaded :=
  isOk_advance_iff (by decide) fun p => by cases p <;> simp [Progress.status]

/-- Just instantiated modules can be evaluated. -/
theorem isOk_markEvaluated_iff :
    (map.markEvaluated key).isOk ↔ map.status? key = some .instantiated :=
  isOk_advance_iff (by decide) fun p => by cases p <;> simp [Progress.status]

/-- A module can fail unless it has failed or has been evaluated. -/
theorem isOk_markFailed_iff {failure : ModuleFailure} :
    (map.markFailed key failure).isOk ↔
      ∃ status, map.status? key = some status ∧ status ≠ .failed ∧ status ≠ .evaluated := by
  unfold markFailed step status?
  cases map.get? key with
  | none => simp [Except.isOk, Except.toBool]
  | some e => cases h : e.status <;> simp [h, Except.map, Except.isOk, Except.toBool]

/-! ## Loops of steps -/

/-- The rule of loops that alter the entries of different keys, each of them in a way that depends
on what the entry was before. `rest` is what the loop leaves alone. -/
theorem ends_alterAll {ε σ α κ : Type} (keyOf : α → ModuleKey) (mapOf : σ → ModuleMap)
    (rest : σ → κ) (change : Entry → Entry → Prop) (f : α → EStateM ε σ PUnit) (as : List α) {s : σ}
    (hnodup : (as.map keyOf).Nodup)
    (hstep : ∀ a ∈ as, ∀ s',
      (mapOf s').entry (keyOf a) = (mapOf s).entry (keyOf a) → Ends (f a) s'
        (fun _ s'' => rest s'' = rest s' ∧ ∃ g, (mapOf s').Alters (keyOf a) g (mapOf s'') ∧
          change ((mapOf s).entry (keyOf a)) (g ((mapOf s).entry (keyOf a))))
        fun _ _ => False) :
    Ends (as.forM f) s
      (fun _ s' => rest s' = rest s ∧ (mapOf s).AltersAll (as.map keyOf) change (mapOf s'))
      fun _ _ => False := by
  refine (ends_forM (fun done left s' => done ++ left = as ∧ rest s' = rest s ∧
    (mapOf s).AltersAll (done.map keyOf) change (mapOf s')) (fun _ _ => False) ?_ as
    ⟨rfl, rfl, .nil⟩).mono (fun _ _ hend => hend.2) fun _ _ hfalse => hfalse
  rintro done a left s' ⟨rfl, hrest, halters⟩
  have hnew : keyOf a ∉ done.map keyOf := by
    rw [List.map_append, List.nodup_append] at hnodup
    exact fun hmem => hnodup.2.2 (keyOf a) hmem (keyOf a) (by simp) rfl
  refine (hstep a (by simp) s' (halters.kept (keyOf a) hnew)).mono ?_ fun _ _ hfalse => hfalse
  rintro - s'' ⟨hrest', g, halters', hchange⟩
  refine ⟨by simp, hrest'.trans hrest, ?_⟩
  rw [List.map_append]
  exact halters.snoc hnew halters' hchange

end ModuleMap

end ModuleGraph
