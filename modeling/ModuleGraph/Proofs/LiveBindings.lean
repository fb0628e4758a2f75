import ModuleGraph.Proofs.LastingProgress
import ModuleGraph.Proofs.RealmLinking
import ModuleGraph.Script

/-!
# Live bindings

`Realm.Reached.imports_live` is the main statement: what a module imports is the cell, or the
namespace, of the very instance that the map holds for the exporter, so that all importers of a
binding see what the exporter assigns.

Instances are linked with each other before the first of them is committed, and are thrown away if
one of them cannot be linked. The invariant (`ModuleMap.Binds`) therefore speaks of committed
instances only. It holds of what has been linked because all that has been linked is committed under
the identity that it had while it was linked (`Linker.Commits`), and it stays because an instance is
never replaced (`ModuleMap.Lasts`). Whatever holds of instances for these two reasons
(`ModuleMap.LinkInvariant`) holds of all instances in all realms (`Realm.Reached.eachInstance`).
-/

namespace ModuleGraph

namespace ModuleMap

variable {map map' : ModuleMap} {key d : ModuleKey} {target target' : ExportTarget}
  {b b' : Binding} {i : Instance} {view : LinkView} {entry : ImportEntry} {importName : ImportName}

/-- What an import of a dependency asks for: its namespace, or what one of its names stands for. -/
def provided? (map : ModuleMap) (dependency : ModuleKey) : ImportName → Option ExportTarget
  | .namespace => some (.namespace dependency)
  | .name name => (map.resolveExport dependency name).toOption

/-- What a local name of a module asks for. The last import entry that binds the name counts. -/
def imported? (map : ModuleMap) (key : ModuleKey) (localName : String) : Option ExportTarget := do
  let view ← map.linkView? key
  let entry ← view.body.importOf? localName
  let dependency ← view.dependency? entry.request
  map.provided? dependency entry.importName

/-- What a target stands for in the instances of a map. -/
def binding? (map : ModuleMap) : ExportTarget → Option Binding
  | .namespace key => (map.instance? key).map fun i => .namespace i.id
  | .binding key name => ((map.instance? key).bind (·.local? name)).map .cell

/-- A name that is imported asks for what the name stands for in the exporter. -/
theorem provided?_name_iff {name : String} :
    map.provided? d (.name name) = some target ↔ map.resolveExport d name = .ok target := by
  rw [provided?]
  cases map.resolveExport d name <;> simp [Except.toOption]

/-- A local name asks for what the last import entry that binds it asks of its dependency. -/
theorem imported?_eq_some_iff {localName : String} : map.imported? key localName = some target ↔
    ∃ view, map.linkView? key = some view ∧ ∃ entry, view.body.importOf? localName = some entry ∧
      ∃ d, view.dependency? entry.request = some d ∧
        map.provided? d entry.importName = some target := by
  simp only [imported?, bind, Option.bind_eq_some_iff]

/-- A namespace stands for the instance of its module. -/
theorem binding?_namespace (hi : map.instance? key = some i) :
    map.binding? (.namespace key) = some (.namespace i.id) := by
  rw [binding?, hi, Option.map_some]

/-- A local stands for its cell in the instance of its module. -/
theorem binding?_cell (hi : map.instance? key = some i) {name : String} {cell : Cell}
    (hcell : i.local? name = some cell) :
    map.binding? (.binding key name) = some (.cell cell) := by
  rw [binding?, hi, Option.bind_some, hcell, Option.map_some]

/-! ## Bound imports -/

/-- An import is bound under its local name to what it asks for. -/
def Bound (map : ModuleMap) (view : LinkView) (entry : ImportEntry)
    (imported : String × Binding) : Prop :=
  imported.1 = entry.localName ∧ ∃ d, view.dependency? entry.request = some d ∧
    ∃ target, map.provided? d entry.importName = some target ∧
      map.binding? target = some imported.2

/-- An instance is one of its module, and all its imports are bound to instances of the map. -/
structure Binds (map : ModuleMap) (key : ModuleKey) (i : Instance) : Prop where
  key_eq : i.key = key
  imports : ∃ view, map.linkView? key = some view ∧
    List.Forall₂ (map.Bound view) view.body.imports i.imports

/-- What a name of a loaded module stands for stays the same. -/
theorem Extends.resolveExport_eq_ok_congr (h : map.Extends map') (hclosed : map.Closed)
    (hkey : (map.entry key).isLoaded) {name : String} :
    map'.resolveExport key name = .ok target ↔ map.resolveExport key name = .ok target := by
  have hoffers : ∀ t, map'.Offers (key, name) t ↔ map.Offers (key, name) t :=
    fun t => h.offers_iff hclosed hkey
  simp only [resolveExport_eq_ok_iff, hoffers]

/-- What a target stands for in the instances stays the same. -/
theorem Lasts.binding? (h : map.Lasts map') (hb : map.binding? target = some b) :
    map'.binding? target = some b := by
  have hinstance : ∀ k i, map.instance? k = some i → map'.instance? k = some i := by
    intro k i hi
    rw [instance?_eq] at hi ⊢
    exact h.instances k i hi
  cases target with
  | binding key name =>
      obtain ⟨cell, hcell, rfl⟩ := Option.map_eq_some_iff.1 hb
      obtain ⟨i, hi, hlocal⟩ := Option.bind_eq_some_iff.1 hcell
      exact binding?_cell (hinstance key i hi) hlocal
  | «namespace» key =>
      obtain ⟨i, hi, rfl⟩ := Option.map_eq_some_iff.1 hb
      exact binding?_namespace (hinstance key i hi)

/-- What an import of a loaded dependency asks for stays the same. -/
theorem Lasts.provided? (h : map.Lasts map') (hclosed : map.Closed)
    (hd : (map.entry d).isLoaded) (htarget : map.provided? d importName = some target) :
    map'.provided? d importName = some target := by
  cases importName with
  | name name =>
      rw [provided?_name_iff] at htarget ⊢
      exact (h.loaded.resolveExport_eq_ok_congr hclosed hd).2 htarget
  | «namespace» => exact htarget

/-- A bound import stays bound. -/
theorem Bound.lasts {imported : String × Binding} (h : map.Bound view entry imported)
    (hclosed : map.Closed) (hlasts : map.Lasts map')
    (hloaded : ∀ d ∈ view.dependencies, (map.entry d).isLoaded) :
    map'.Bound view entry imported := by
  obtain ⟨hname, d, hd, target, hprovided, hbinding⟩ := h
  have hdloaded := hloaded d (LinkView.mem_dependencies hd)
  exact ⟨hname, d, hd, target, hlasts.provided? hclosed hdloaded hprovided,
    hlasts.binding? hbinding⟩

/-- An instance stays bound, since no instance is ever replaced. -/
theorem Binds.lasts (h : map.Binds key i) (hclosed : map.Closed) (hlasts : map.Lasts map') :
    map'.Binds key i := by
  obtain ⟨view, hview, himports⟩ := h.imports
  have hview' := (hlasts.loaded.linkView? (isLoaded_of_linkView? hview)).trans hview
  refine ⟨h.key_eq, view, hview', himports.imp ?_⟩
  intro entry imported hbound
  refine hbound.lasts hclosed hlasts fun d hd => ?_
  exact hclosed key d (dependencies_of_linkView? hview ▸ hd)

/-- The entry that counts for a local name is bound. -/
theorem exists_import?_of_bound {entries : List ImportEntry} {imports : List (String × Binding)}
    {localName : String} (h : List.Forall₂ (map.Bound view) entries imports)
    (hentry : entries.find? (·.localName == localName) = some entry) :
    ∃ b, imports.lookup localName = some b ∧ map.Bound view entry (localName, b) := by
  induction h with
  | nil => cases hentry
  | @cons e imported _ _ hbound _ ih =>
      obtain ⟨name, b⟩ := imported
      obtain rfl : name = e.localName := hbound.1
      rw [List.find?_cons] at hentry
      rw [List.lookup_cons]
      by_cases hsame : e.localName = localName
      · rw [beq_iff_eq.2 hsame] at hentry
        obtain rfl := Option.some.inj hentry
        rw [beq_iff_eq.2 hsame.symm]
        exact ⟨b, rfl, hsame ▸ hbound⟩
      · rw [beq_eq_false_iff_ne.2 hsame] at hentry
        rw [beq_eq_false_iff_ne.2 (Ne.symm hsame)]
        exact ih hentry

end ModuleMap

/-! ## Linking -/

/-- Instances of one identity with the same locals have the same cells. -/
theorem Instance.local?_congr {i j : Instance} (hid : i.id = j.id) (hlocals : i.locals = j.locals)
    (name : String) : i.local? name = j.local? name := by
  rw [Instance.local?, Instance.local?, hid, hlocals]

namespace Linker

open ModuleMap

variable {l : Linker} {map' : ModuleMap} {key importer : ModuleKey} {target : ExportTarget}
  {b : Binding} {i j : Instance} {view : LinkView}

/-- All instances that linking finds are those of a later map, before or after they are linked. -/
def Commits (l : Linker) (map' : ModuleMap) : Prop :=
  ∀ key i, l.instance? key = some i →
    ∃ j, map'.instance? key = some j ∧ j.id = i.id ∧ j.locals = i.locals

/-- What linking finds is committed under the same identity and with the same locals. -/
theorem Commits.exists_instance (h : l.Commits map') (hi : l.instanceOf key = .ok i) :
    ∃ j, map'.instance? key = some j ∧ j.id = i.id ∧ j.locals = i.locals := by
  unfold instanceOf at hi
  cases hinstance : l.instance? key with
  | none => simp [hinstance] at hi
  | some i' =>
      obtain rfl : i' = i := by simpa [hinstance] using hi
      exact h key i' hinstance

/-- The namespace that linking finds is that of the committed instance. -/
theorem Commits.binding?_namespace (h : l.Commits map') (hi : l.instanceOf key = .ok i) :
    map'.binding? (.namespace key) = some (.namespace i.id) := by
  obtain ⟨j, hj, hid, -⟩ := h.exists_instance hi
  rw [ModuleMap.binding?_namespace hj, hid]

/-- What a target is bound to is what it stands for in the later map. -/
theorem Commits.binding?_of_bind (h : l.Commits map') (hb : l.bind importer target = .ok b) :
    map'.binding? target = some b := by
  cases target with
  | «namespace» key =>
      unfold bind at hb
      cases hi : l.instanceOf key with
      | error fault => simp [hi, Except.map] at hb
      | ok i =>
          obtain rfl : Binding.namespace i.id = b := by simpa [hi, Except.map] using hb
          exact h.binding?_namespace hi
  | binding key name =>
      unfold bind at hb
      cases hi : l.instanceOf key with
      | error fault => simp [hi] at hb
      | ok i =>
          obtain ⟨j, hj, hid, hlocals⟩ := h.exists_instance hi
          cases hlocal : i.local? name with
          | none => simp [hi, hlocal] at hb
          | some cell =>
              obtain rfl : Binding.cell cell = b := by simpa [hi, hlocal] using hb
              exact binding?_cell hj ((Instance.local?_congr hid hlocals name).trans hlocal)

/-- An import that linking binds is bound in the later map. -/
theorem Commits.bound (h : l.Commits map') (hclosed : l.map.Closed) (hlasts : l.map.Lasts map')
    (hview : l.map.linkView? key = some view) {entry : ImportEntry}
    (hb : l.bindRequest key view entry.request entry.importName = .ok b) :
    map'.Bound view entry (entry.localName, b) := by
  unfold bindRequest at hb
  cases hd : view.dependency? entry.request with
  | none => simp [hd] at hb
  | some d =>
      have hmem := dependencies_of_linkView? hview ▸ LinkView.mem_dependencies hd
      refine ⟨rfl, d, hd, ?_⟩
      cases himport : entry.importName with
      | «namespace» =>
          cases hi : l.instanceOf d with
          | error fault => simp [hd, himport, hi, Except.map] at hb
          | ok i =>
              obtain rfl : Binding.namespace i.id = b := by
                simpa [hd, himport, hi, Except.map] using hb
              exact ⟨.namespace d, rfl, h.binding?_namespace hi⟩
      | name name =>
          simp only [hd, himport, bindImport] at hb
          cases hresolve : l.map.resolveExport d name with
          | error cause => simp [hresolve] at hb
          | ok target =>
              rw [hresolve] at hb
              refine ⟨target, provided?_name_iff.2 ?_, h.binding?_of_bind hb⟩
              have hloaded := hclosed key d hmem
              exact (hlasts.loaded.resolveExport_eq_ok_congr hclosed hloaded).2 hresolve

/-- An instance that has been linked is bound in the later map. -/
theorem Commits.binds (h : l.Commits map') (hclosed : l.map.Closed) (hlasts : l.map.Lasts map')
    (hlink : l.link i = .ok j) : map'.Binds i.key j := by
  have hkey : j.key = i.key := congrArg InstanceId.key (LinkM.of_link hlink).1
  unfold link at hlink
  cases hview : l.map.linkView? i.key with
  | none => simp [hview] at hlink
  | some view =>
      simp only [hview] at hlink
      obtain ⟨imports, himports, hrest⟩ := Except.bind_eq_ok hlink
      obtain ⟨_, -, hrest⟩ := Except.bind_eq_ok hrest
      obtain ⟨exports, -, hlast⟩ := Except.bind_eq_ok hrest
      cases hlast
      have hview' := (hlasts.loaded.linkView? (isLoaded_of_linkView? hview)).trans hview
      refine ⟨hkey, view, hview', ?_⟩
      refine (forall₂_of_mapM_ok himports).imp fun entry imported himported => ?_
      obtain ⟨b, hb, hlast⟩ := Except.bind_eq_ok himported
      cases hlast
      exact h.bound hclosed hlasts hview hb

end Linker

/-! ## Instances of a map -/

/-- There is one instance in the making for a module. -/
theorem LinkM.Prepares.unique {map : ModuleMap} {round : Nat} {keys : List ModuleKey}
    {fresh : List Instance} {i j : Instance} (h : LinkM.Prepares map round keys fresh)
    (hi : i ∈ fresh) (hj : j ∈ fresh) (hkey : i.key = j.key) : i = j := by
  obtain ⟨body, hbody, hmade⟩ := h.bodies i hi
  obtain ⟨body', hbody', hmade'⟩ := h.bodies j hj
  rw [hkey] at hbody hmade
  obtain rfl := Option.some.inj (hbody.symm.trans hbody')
  exact hmade.trans hmade'.symm

/-- An instantiation that succeeds commits the instances that it has linked with each other. -/
theorem LinkM.Completes.commits {map map' : ModuleMap} {round : Nat} {key : ModuleKey}
    {c : Collection} {fresh linked : List Instance}
    (h : LinkM.Completes map round key c fresh linked map') (hlasts : map.Lasts map') :
    Linker.Commits ⟨map, fresh⟩ map' := by
  intro k i hi
  unfold Linker.instance? at hi
  cases hfind : fresh.find? (·.key == k) with
  | some i' =>
      obtain rfl : i' = i := by simpa [hfind] using hi
      have hmem : i' ∈ fresh := List.mem_of_find?_eq_some hfind
      obtain rfl : i'.key = k := by simpa using List.find?_some hfind
      have hcollected : i'.key ∈ c.order := h.prepared.keys ▸ List.mem_map_of_mem hmem
      obtain ⟨i, hi', j, hlink, hkey, hentry⟩ := Catalog.exists_link h hcollected
      obtain rfl := h.prepared.unique hi' hmem hkey
      refine ⟨j, ?_, LinkM.of_link hlink⟩
      rw [ModuleMap.instance?_eq, hentry]
      rfl
  | none =>
      have hold : map.instance? k = some i := by simpa [hfind] using hi
      rw [ModuleMap.instance?_eq] at hold
      refine ⟨i, ?_, rfl, rfl⟩
      rw [ModuleMap.instance?_eq]
      exact hlasts.instances k i hold

namespace ModuleMap

variable {map map' : ModuleMap} {round rounds : Nat} {key : ModuleKey}

/-- A property of the instances of a map, by the number of rounds up to now, that an instance gets
by being linked and keeps. -/
structure LinkInvariant (P : Nat → ModuleMap → ModuleKey → Instance → Prop) : Prop where
  mono {rounds rounds' : Nat} {map : ModuleMap} {key : ModuleKey} {i : Instance} :
    P rounds map key i → rounds ≤ rounds' → P rounds' map key i
  lasts {rounds : Nat} {map map' : ModuleMap} {key : ModuleKey} {i : Instance} :
    P rounds map key i → map.Closed → map.Lasts map' → P rounds map' key i
  links {l : Linker} {map' : ModuleMap} {i j : Instance} : l.Commits map' → l.map.Closed →
    l.map.Lasts map' → l.link i = .ok j → P (i.round + 1) map' i.key j

/-- All instances of a map have a property. -/
def EachInstance (P : Nat → ModuleMap → ModuleKey → Instance → Prop) (map : ModuleMap)
    (rounds : Nat) : Prop :=
  ∀ key i, (map.entry key).instance? = some i → P rounds map key i

namespace EachInstance

variable {P : Nat → ModuleMap → ModuleKey → Instance → Prop}

/-- A property of all instances stays as long as no instance is replaced. -/
theorem lasts (h : EachInstance P map rounds) (hP : LinkInvariant P) (hclosed : map.Closed)
    (hlasts : map.Lasts map')
    (hinstances : ∀ key, (map'.entry key).instance? = (map.entry key).instance?) :
    EachInstance P map' rounds := by
  intro k i hi
  rw [hinstances] at hi
  exact hP.lasts (h k i hi) hclosed hlasts

/-- A round that succeeds adds linked instances. -/
theorem completes {c : Collection} {fresh linked : List Instance} (h : EachInstance P map round)
    (hP : LinkInvariant P) (hclosed : map.Closed) (hkey : map.IsReady key)
    (hcompletes : LinkM.Completes map round key c fresh linked map') :
    EachInstance P map' (round + 1) := by
  obtain ⟨hready, -⟩ := hcompletes.collection hkey
  have halters := hcompletes.altered.mono fun _ _ he => he.instantiates
  have hlasts := lasts_of_instantiates halters hready
  have hcommits := hcompletes.commits hlasts
  intro k i hi
  by_cases hk : k ∈ c.order
  · obtain ⟨i', hi', j, hlink, rfl, hentry⟩ := Catalog.exists_link hcompletes hk
    obtain rfl : j = i := by simpa [hentry, Entry.instance?, Progress.instance?] using hi
    have hround : i'.round = round := by
      obtain ⟨body, -, hmade⟩ := hcompletes.prepared.bodies i' hi'
      rw [hmade]
      rfl
    exact hround ▸ hP.links hcommits hclosed hlasts hlink
  · rw [hcompletes.altered.kept k hk] at hi
    exact hP.lasts (hP.mono (h k i hi) (Nat.le_succ round)) hclosed hlasts

/-- Whether a round succeeds or fails, all instances have the property after it. -/
theorem ends_instantiate (h : EachInstance P map round) (hP : LinkInvariant P)
    (hclosed : map.Closed) (key : ModuleKey) :
    Ends (ModuleMap.instantiate round key) map (fun _ map' => EachInstance P map' (round + 1))
      fun _ map' => EachInstance P map' (round + 1) := by
  have hnext : EachInstance P map (round + 1) :=
    fun k i hi => hP.mono (h k i hi) (Nat.le_succ round)
  refine (map.ends_instantiate round key).mono ?_ ?_
  · rintro i map' (⟨rfl, -⟩ | ⟨hready, c, fresh, linked, hcompletes⟩)
    · exact hnext
    · exact h.completes hP hclosed hready hcompletes
  · rintro _ map' ⟨fault, -, ⟨rfl, -⟩ | ⟨hready, hrejects⟩⟩
    · exact hnext
    · have hfails := hrejects.fails hready
      exact hnext.lasts hP hclosed hfails.lasts hfails.instance?_eq

end EachInstance

/-- All instances have been made in the rounds up to now, and are bound to each other. -/
def Wired (map : ModuleMap) (rounds : Nat) : Prop :=
  ∀ key i, (map.entry key).instance? = some i → i.round < rounds ∧ map.Binds key i

/-- Being bound is a property that an instance gets by being linked and keeps. -/
theorem linkInvariant_binds :
    LinkInvariant fun rounds map key i => i.round < rounds ∧ map.Binds key i where
  mono h hle := ⟨Nat.lt_of_lt_of_le h.1 hle, h.2⟩
  lasts h hclosed hlasts := ⟨h.1, h.2.lasts hclosed hlasts⟩
  links hcommits hclosed hlasts hlink :=
    ⟨Nat.lt_succ_of_le (Nat.le_of_eq (congrArg InstanceId.round (LinkM.of_link hlink).1)),
      hcommits.binds hclosed hlasts hlink⟩

/-- Instances that are bound to each other stay so as long as none is replaced. -/
theorem Wired.lasts (h : map.Wired rounds) (hclosed : map.Closed) (hlasts : map.Lasts map')
    (hinstances : ∀ key, (map'.entry key).instance? = (map.entry key).instance?) :
    map'.Wired rounds := by
  have heach : EachInstance (fun rounds map key i => i.round < rounds ∧ map.Binds key i)
      map rounds := h
  exact heach.lasts linkInvariant_binds hclosed hlasts hinstances

end ModuleMap

/-! ## Values -/

/-- A cell has the value that it is set to. -/
theorem Cells.get?_set (cells : Cells) (cell : Cell) (value : Value) :
    (cells.set cell value).get? cell = some value := by
  simp [Cells.get?, Cells.set]

namespace Execution

variable {x : Execution} {name : String} {value : Value} {b : Binding} {s s' : Stage}

/-- What assigning does if it succeeds. -/
theorem of_assign (h : (x.assign name value).run.run s = (.ok (), s')) :
    ∃ cell, x.inst.local? name = some cell ∧ s' = { s with cells := s.cells.set cell value } := by
  unfold assign at h
  cases himport : x.inst.import? name with
  | some b =>
      simp only [himport] at h
      cases h
  | none =>
      cases hlocal : x.inst.local? name with
      | none =>
          simp only [himport, hlocal] at h
          cases h
      | some cell =>
          simp only [himport, hlocal] at h
          cases h
          exact ⟨cell, rfl, rfl⟩

/-- Reading an imported name. -/
theorem read_of_import (himport : x.inst.import? name = some b)
    (hvalue : s.cells.valueOf? b = some value) : (x.read name).run.run s = (.ok value, s) := by
  have hbinding : x.binding? name = some b := by simp [binding?, himport]
  have hget : ∀ f : Stage → ScriptM Value, (get >>= f).run.run s = (f s).run.run s := fun _ => rfl
  unfold read
  simp only [hbinding]
  rw [hget]
  simp only [hvalue]
  rfl

end Execution

/-! ## Realms -/

namespace Realm

open ModuleMap

variable {σ : Type} {h : Host σ} {r : Realm σ}

section EachInstance

variable {P : Nat → ModuleMap → ModuleKey → Instance → Prop}

/-- A load keeps what holds of all instances. -/
theorem preserves_eachInstance_loadKey (hP : LinkInvariant P) (key : ModuleKey) :
    PreservesSoundly h (fun r => EachInstance P r.map r.rounds) (loadKey h key) := by
  intro r hr heach
  refine (ends_loadKey_loads h key hr).imp fun _ hend => ?_
  obtain ⟨c, hloads, rfl⟩ := hend
  exact heach.lasts hP hr.closed (hr.lasts_loads hloads).1 (hr.instance?_of_loads hloads)

/-- Instantiation keeps what holds of all instances, the new ones included. -/
theorem preserves_eachInstance_instantiate (hP : LinkInvariant P) (key : ModuleKey) :
    PreservesSoundly h (fun r => EachInstance P r.map r.rounds)
      (instantiate key : RealmM σ Instance) := by
  intro r hr heach
  refine (ends_instantiate_linked (heach.ends_instantiate hP hr.closed key)).imp fun _ hend => ?_
  obtain ⟨map, heach', rfl⟩ := hend
  exact heach'

/-- Evaluation keeps what holds of all instances. -/
theorem preserves_eachInstance_evaluate (hP : LinkInvariant P) (key : ModuleKey) :
    PreservesSoundly h (fun r => EachInstance P r.map r.rounds) (evaluate h key) := by
  intro r hr heach
  refine (ends_evaluate_of (EvalM.ends_run h.execute key rfl hr.evaluations)).mono ?_ ?_
  · rintro _ _ ⟨e, ⟨hpassed, -⟩, rfl⟩
    exact heach.lasts hP hr.closed hpassed.inv.lasts hpassed.inv.instances
  · rintro _ _ ⟨_, e', ⟨fault, e, rfl, habandons⟩, -, rfl⟩
    have hinv := habandons.inv
    refine heach.lasts hP hr.closed (hinv.lasts.trans habandons.fails.lasts) fun k => ?_
    exact (habandons.fails.instance?_eq k).trans (hinv.instances k)

/-- All instances of a realm have what linking gives to instances. -/
theorem Reached.eachInstance (hr : Reached h r) (hP : LinkInvariant P) :
    EachInstance P r.map r.rounds :=
  hr.induction (fun r => EachInstance P r.map r.rounds) (fun _ _ _ hi => by cases hi)
    (fun _ _ => preserves_eachInstance_loadKey hP)
    (fun _ _ => preserves_eachInstance_instantiate hP)
    fun _ _ => preserves_eachInstance_evaluate hP

end EachInstance

/-- A load leaves the instances bound to each other. -/
theorem preserves_wired_loadKey (key : ModuleKey) :
    PreservesSoundly h (fun r => r.map.Wired r.rounds) (loadKey h key) :=
  preserves_eachInstance_loadKey linkInvariant_binds key

/-- Instantiation binds the new instances and leaves the others bound. -/
theorem preserves_wired_instantiate (key : ModuleKey) :
    PreservesSoundly h (fun r => r.map.Wired r.rounds)
      (instantiate key : RealmM σ Instance) :=
  preserves_eachInstance_instantiate linkInvariant_binds key

/-- Evaluation leaves the instances bound to each other. -/
theorem preserves_wired_evaluate (key : ModuleKey) :
    PreservesSoundly h (fun r => r.map.Wired r.rounds) (evaluate h key) :=
  preserves_eachInstance_evaluate linkInvariant_binds key

/-- The instances of a realm are bound to each other. -/
theorem Reached.wired (hr : Reached h r) : r.map.Wired r.rounds :=
  hr.eachInstance linkInvariant_binds

/-- What a module imports under a local name is what the name asks for. -/
theorem Reached.import?_eq (hr : Reached h r) {m : ModuleKey} {i : Instance} {localName : String}
    {target : ExportTarget} (hi : r.map.instance? m = some i)
    (himported : r.map.imported? m localName = some target) :
    ∃ b, r.map.binding? target = some b ∧ i.import? localName = some b := by
  rw [instance?_eq] at hi
  obtain ⟨-, hbinds⟩ := hr.wired m i hi
  obtain ⟨view, hview, hbound⟩ := hbinds.imports
  obtain ⟨view', hview', entry, hentry, d, hd, hprovided⟩ := imported?_eq_some_iff.1 himported
  obtain rfl := Option.some.inj (hview.symm.trans hview')
  obtain ⟨b, hb, -, d', hd', target', hprovided', hbinding⟩ :=
    exists_import?_of_bound (List.rel_reverse hbound) hentry
  obtain rfl := Option.some.inj (hd.symm.trans hd')
  obtain rfl := Option.some.inj (hprovided.symm.trans hprovided')
  exact ⟨b, hbinding, hb⟩

/-- Each import of a module that has an instance refers to what it asks for: the cell of the
exporter's local, or the namespace, of the very instance that the map holds. This includes imports
through re-exports, and instances that have been made in other rounds, whatever has failed between
them. Therefore all importers of a binding have the same cell, and read what the exporter
assigns. -/
theorem Reached.imports_live (hr : Reached h r) :
    (∀ m i, r.map.instance? m = some i → i.key = m ∧ i.round < r.rounds ∧
      ∃ view, r.map.linkView? m = some view ∧ ∀ entry ∈ view.body.imports, ∃ target b,
        r.map.imported? m entry.localName = some target ∧ r.map.binding? target = some b ∧
        i.import? entry.localName = some b) ∧
    (∀ m m' localName localName' target, r.map.imported? m localName = some target →
      r.map.imported? m' localName' = some target → ∀ i i', r.map.instance? m = some i →
        r.map.instance? m' = some i' → i.import? localName = i'.import? localName') ∧
    ∀ m localName exporter name,
      r.map.imported? m localName = some (.binding exporter name) →
      ∀ x y : Execution, r.map.instance? exporter = some x.inst → r.map.instance? m = some y.inst →
        ∀ value s s', (x.assign name value).run.run s = (.ok (), s') →
          (y.read localName).run.run s' = (.ok value, s') := by
  refine ⟨fun m i hi => ?_, fun m m' localName localName' target hm hm' i i' hi hi' => ?_, ?_⟩
  · rw [instance?_eq] at hi
    obtain ⟨hround, hbinds⟩ := hr.wired m i hi
    obtain ⟨view, hview, hbound⟩ := hbinds.imports
    refine ⟨hbinds.key_eq, hround, view, hview, fun entry hentry => ?_⟩
    obtain ⟨last, hlast⟩ : ∃ last, view.body.importOf? entry.localName = some last := by
      refine Option.isSome_iff_exists.1 (List.find?_isSome.2 ⟨entry, ?_, beq_self_eq_true _⟩)
      exact List.mem_reverse.2 hentry
    obtain ⟨b, hb, -, d, hd, target, hprovided, hbinding⟩ :=
      exists_import?_of_bound (List.rel_reverse hbound) hlast
    have himported := imported?_eq_some_iff.2 ⟨view, hview, last, hlast, d, hd, hprovided⟩
    exact ⟨target, b, himported, hbinding, hb⟩
  · obtain ⟨b, hbinding, hb⟩ := hr.import?_eq hi hm
    obtain ⟨b', hbinding', hb'⟩ := hr.import?_eq hi' hm'
    rw [hb, hb', ← hbinding, ← hbinding']
  · intro m localName exporter name hm x y hx hy value s s' hassign
    obtain ⟨b, hbinding, hb⟩ := hr.import?_eq hy hm
    obtain ⟨cell, hcell, rfl⟩ := Execution.of_assign hassign
    obtain rfl := Option.some.inj (hbinding.symm.trans (binding?_cell hx hcell))
    exact Execution.read_of_import hb (Cells.get?_set s.cells cell value)

/-! ## Two importers of a binding -/

/-- A host with a counter, which one text imports and another one imports by way of a third, while a
fourth asks for a name that the counter does not export. -/
def counterHost : Host Unit :=
  ⟨(fileKey "counter.js").url, ImportMap.empty,
    .ofSources [((fileKey "counter.js").url, "let count = 0; export { count as n };"),
      ((fileKey "relay.js").url, "export { n as total } from './counter.js';"),
      ((fileKey "direct.js").url, "import { n as x } from './counter.js';"),
      ((fileKey "indirect.js").url, "import { total as y } from './relay.js';"),
      ((fileKey "broken.js").url, "import { missing } from './counter.js';")],
    fun _ host => (.ok (), host)⟩

/-- The realm in which an instance of the counter has been thrown away before the importers have
been instantiated, each in a call of its own. -/
def counterRealm : Realm Unit :=
  Call.afterAll counterHost
    [.loadKey (fileKey "broken.js"), .instantiate (fileKey "broken.js"),
      .loadKey (fileKey "direct.js"), .instantiate (fileKey "direct.js"),
      .loadKey (fileKey "indirect.js"), .instantiate (fileKey "indirect.js")] (fresh ())

/-- The realm is reached by these calls. -/
theorem reached_counterRealm : Reached counterHost counterRealm :=
  .afterAll _ (.fresh ())

/-- Both importers have the cell of the counter, though they were instantiated in different
calls. -/
theorem imports_live_counter :
    Reached counterHost counterRealm ∧
      counterRealm.map.status? (fileKey "broken.js") = some .failed ∧
      ∃ i j, counterRealm.map.instance? (fileKey "direct.js") = some i ∧
        counterRealm.map.instance? (fileKey "indirect.js") = some j ∧ i.round ≠ j.round ∧
        i.import? "x" = some (.cell ⟨⟨fileKey "counter.js", 1⟩, "count"⟩) ∧
        i.import? "x" = j.import? "y" := by
  obtain ⟨hfailed, hdirect, hindirect⟩ :
      counterRealm.map.status? (fileKey "broken.js") = some .failed ∧
      counterRealm.map.imported? (fileKey "direct.js") "x" =
        some (.binding (fileKey "counter.js") "count") ∧
      counterRealm.map.imported? (fileKey "indirect.js") "y" =
        some (.binding (fileKey "counter.js") "count") := by
    decide +kernel
  obtain ⟨hi, hj, hrounds, hcell⟩ :
      (counterRealm.map.instance? (fileKey "direct.js")).isSome ∧
      (counterRealm.map.instance? (fileKey "indirect.js")).isSome ∧
      (counterRealm.map.instance? (fileKey "direct.js")).map Instance.round ≠
        (counterRealm.map.instance? (fileKey "indirect.js")).map Instance.round ∧
      (counterRealm.map.instance? (fileKey "direct.js")).bind (·.import? "x") =
        some (.cell ⟨⟨fileKey "counter.js", 1⟩, "count"⟩) := by
    decide +kernel
  obtain ⟨i, hi⟩ := Option.isSome_iff_exists.1 hi
  obtain ⟨j, hj⟩ := Option.isSome_iff_exists.1 hj
  rw [hi, hj] at hrounds
  rw [hi] at hcell
  have hsame := reached_counterRealm.imports_live.2.1 _ _ _ _ _ hdirect hindirect i j hi hj
  exact ⟨reached_counterRealm, hfailed, i, j, hi, hj, fun h => hrounds (congrArg some h), hcell,
    hsame⟩

end Realm

end ModuleGraph
