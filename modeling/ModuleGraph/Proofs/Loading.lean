import ModuleGraph.Proofs.CycleStack
import ModuleGraph.Proofs.Discovery
import ModuleGraph.Proofs.LoadedModules
import ModuleGraph.Proofs.Outcome

/-!
# The loading walk

`LoadWalk.ends_run` is the main statement: a walk by a plan that agrees with the import graph either
loads a module with all that it leads to, or fails it with the fault of a faulty module that it
leads to. In both cases no module is left loading.

`LoadWalk.Inv` holds before and after each step. A module that waits on the stack leads to each
module that is visited above it, so that a fault found there is a fault for all of them
(`LoadWalk.Broken`). The answer to a visit is a position of the stack at or below which everything
waits that the visited modules lead to and that is not loaded (`LoadWalk.Visited`). A cycle is
therefore complete when the answer is the position of its first module.
-/

namespace ModuleGraph

/-- A module without an instance that has not failed, or has failed to load. -/
def Entry.IsUnlinked (e : Entry) : Prop :=
  e.instance? = none ∧ ∀ failure, e.failure = some failure → ∃ fault, failure = .load fault

/-- A module without an instance and without a failure is unlinked. -/
theorem Entry.isUnlinked_of_failure {e : Entry} (hinstance : e.instance? = none)
    (hfailure : e.failure = none) : e.IsUnlinked :=
  ⟨hinstance, by simp [hfailure]⟩

/-- A module without an instance that fails to load is unlinked. -/
theorem Entry.isUnlinked_fail {e : Entry} (hinstance : e.instance? = none) (fault : LoadFault) :
    ({ e with failure := some (.load fault) } : Entry).IsUnlinked :=
  ⟨hinstance, fun _ hfailure => ⟨fault, (Option.some.inj hfailure).symm⟩⟩

/-- What loading does to a map: only registered modules change, and none of them gets an instance or
fails but for a load fault. -/
structure ModuleMap.Grows (map map' : ModuleMap) : Prop where
  known : ∀ key, map.IsKnown key → map'.IsKnown key
  distinct : map.Distinct → map'.Distinct
  declaration : ∀ key, (map'.entry key).declaration = (map.entry key).declaration
  kept : ∀ key, (map.entry key).status ≠ .registered → map'.entry key = map.entry key
  fresh : ∀ key, (map.entry key).status = .registered → (map'.entry key).IsUnlinked

/-- No module is loading. -/
def ModuleMap.IsIdle (map : ModuleMap) : Prop :=
  ∀ key, (map.entry key).status ≠ .loading

/-- What has an outcome needs no plan. -/
theorem ModuleMap.isPending_eq_false {map : ModuleMap} {key : ModuleKey}
    (hidle : (map.entry key).status ≠ .loading) (h : (map.entry key).status ≠ .registered) :
    map.isPending key = false := by
  rw [ModuleMap.isPending]
  cases hfailure : (map.entry key).failure with
  | some failure => simp [Entry.status, hfailure]
  | none =>
      cases hprogress : (map.entry key).progress <;>
        simp_all [Entry.status, Entry.isLoaded, Progress.status, Progress.dependencies?]

namespace ModuleMap.Grows

variable {map map' map'' : ModuleMap} {key : ModuleKey}

/-- A map grows to itself. -/
theorem refl : map.Grows map := by
  constructor
  case fresh =>
    intro k hk
    obtain ⟨hunfailed, -, hinstance⟩ := Entry.nothing_of_status (.inl hk)
    exact Entry.isUnlinked_of_failure hinstance hunfailed
  all_goals simp

/-- A registered module has always been registered. -/
theorem registered (h : map.Grows map') (hkey : (map'.entry key).status = .registered) :
    (map.entry key).status = .registered := by
  by_contra hold
  rw [h.kept key hold] at hkey
  exact hold hkey

/-- Growth goes on as long as only modules change that have been registered at its beginning. -/
theorem change (h : map.Grows map') (hknown : ∀ k, map'.IsKnown k → map''.IsKnown k)
    (hdistinct : map'.Distinct → map''.Distinct)
    (hentry : ∀ k, map''.entry k = map'.entry k ∨
      (map.entry k).status = .registered ∧ (map''.entry k).IsUnlinked ∧
        (map''.entry k).declaration = (map'.entry k).declaration) :
    map.Grows map'' := by
  constructor
  case known => exact fun k hk => hknown k (h.known k hk)
  case distinct => exact fun hmap => hdistinct (h.distinct hmap)
  case declaration =>
    intro k
    rw [← h.declaration k]
    rcases hentry k with hsame | ⟨-, -, hdeclaration⟩
    · rw [hsame]
    · exact hdeclaration
  case kept =>
    intro k hk
    rcases hentry k with hsame | ⟨hregistered, -⟩
    · rw [hsame, h.kept k hk]
    · exact absurd hregistered hk
  case fresh =>
    intro k hk
    rcases hentry k with hsame | ⟨-, hfresh, -⟩
    · exact hsame ▸ h.fresh k hk
    · exact hfresh

/-- A map still grows when a registered module changes and stays unlinked. -/
theorem alter (h : map.Grows map') {f : Entry → Entry} (halters : map'.Alters key f map'')
    (hkey : (map.entry key).status = .registered) (hfresh : (f (map'.entry key)).IsUnlinked)
    (hdeclaration : (f (map'.entry key)).declaration = (map'.entry key).declaration) :
    map.Grows map'' := by
  refine h.change (fun k => (halters.known k).2) halters.distinct fun k => ?_
  rw [halters.entry]
  by_cases hk : k = key
  · subst hk
    rw [if_pos rfl]
    exact .inr ⟨hkey, hfresh, hdeclaration⟩
  · rw [if_neg hk]
    exact .inl rfl

/-- Registered modules change together. -/
theorem alterAll (h : map.Grows map') {keys : List ModuleKey} {change : Entry → Entry → Prop}
    (halters : map'.AltersAll keys change map'')
    (hkeys : ∀ k ∈ keys, (map.entry k).status = .registered)
    (hchange : ∀ k ∈ keys, ∀ e', change (map'.entry k) e' →
      e'.IsUnlinked ∧ e'.declaration = (map'.entry k).declaration) :
    map.Grows map'' := by
  refine h.change (fun k => (halters.known k).2) halters.distinct fun k => ?_
  by_cases hk : k ∈ keys
  · exact .inr ⟨hkeys k hk, hchange k hk _ (halters.altered k hk)⟩
  · exact .inl (halters.kept k hk)

/-- A map grows over any number of steps. -/
theorem trans (h : map.Grows map') (h' : map'.Grows map'') : map.Grows map'' := by
  refine h.change h'.known h'.distinct fun k => ?_
  by_cases hk : (map'.entry k).status = .registered
  · exact .inr ⟨h.registered hk, h'.fresh k hk, h'.declaration k⟩
  · exact .inl (h'.kept k hk)

/-- A map grows when a key is registered. -/
theorem register : map.Grows (map.register key) :=
  refl.change (fun _ hk => isKnown_register.2 (.inr hk)) distinct_register
    fun _ => .inl entry_register

/-- What is settled stays settled. -/
theorem isPending (h : map.Grows map') (hkey : map.isPending key = false) :
    map'.isPending key = false := by
  have hstatus : (map.entry key).status ≠ .registered := by
    intro hregistered
    obtain ⟨-, hprogress⟩ := Entry.status_eq_registered_iff.1 hregistered
    simp [ModuleMap.isPending, hregistered, Entry.isLoaded, hprogress,
      Progress.dependencies?] at hkey
  rw [ModuleMap.isPending, h.kept key hstatus]
  exact hkey

end ModuleMap.Grows

/-- A plan that says what the import graph says and leaves out nothing but what a map settles. -/
structure Plan.Agrees (importMap : ImportMap) (fetch : Fetcher) (map : ModuleMap) (plan : Plan) :
    Prop where
  node : ∀ key node, plan.node? key = some node →
    node = PlanNode.ofAnswer importMap key (fetch key.url)
  dependencies : ∀ key node, plan.node? key = some node →
    ∀ d ∈ node.dependencies, plan.Covers map d
  declares : ∀ key, plan.Covers map key → map.DeclaresAt fetch key.url

/-- A plan has the dependencies that the node of a module has. -/
theorem Plan.dependencies_eq {plan : Plan} {key : ModuleKey} {dependencies : List ModuleKey}
    (h : plan.node? key = some (.ready dependencies)) : plan.dependencies key = dependencies := by
  simp [Plan.dependencies, h, PlanNode.dependencies]

namespace LoadWalk

variable {importMap : ImportMap} {fetch : Fetcher} {plan : Plan} {start : ModuleMap}
  {w w' w'' : Walk} {key : ModuleKey} {fault : LoadFault}

/-- What holds of a walk that began with the map `start`, before and after each step. -/
structure Inv (importMap : ImportMap) (fetch : Fetcher) (plan : Plan) (start : ModuleMap)
    (w : Walk) : Prop where
  sound : w.map.LoadSound importMap fetch
  grows : start.Grows w.map
  nodup : w.stack.Nodup
  planned : ∀ key ∈ w.stack, plan.node? key = some (.ready (plan.dependencies key))
  listed : ∀ key, (w.map.entry key).status = .loading → key ∈ w.stack
  covered : ∀ key, (w.map.entry key).status ≠ .registered → plan.Covers start key

/-- All modules of the stack are loading. None of them has failed yet. -/
def Waiting (w : Walk) : Prop :=
  ∀ key ∈ w.stack, (w.map.entry key).status = .loading

/-- How the walk goes on as long as it finds no fault. -/
structure Passed (importMap : ImportMap) (fetch : Fetcher) (plan : Plan) (start : ModuleMap)
    (w w' : Walk) : Prop where
  inv : Inv importMap fetch plan start w'
  waiting : Waiting w'
  grows : w.map.Grows w'.map
  stack : w.stack <+: w'.stack

/-- How the walk comes back with a fault. -/
structure Broken (importMap : ImportMap) (fetch : Fetcher) (plan : Plan) (start : ModuleMap)
    (w : Walk) (fault : LoadFault) (w' : Walk) : Prop where
  inv : Inv importMap fetch plan start w'
  grows : w.map.Grows w'.map
  stack : w.stack <+: w'.stack
  raises : fetch.Raises importMap fault
  reaches : ∀ member ∈ w'.stack, fetch.Reaches importMap member fault.key

/-- The import graph as the walk sees it. -/
def view (fetch : Fetcher) (plan : Plan) : CycleStack.View :=
  ⟨plan.dependencies, fun importer target => ¬ fetch.Barred importer target⟩

/-- A module has been loaded. -/
def Loaded (w : Walk) (key : ModuleKey) : Prop :=
  (w.map.entry key).isLoaded

/-- What the answer to a visit says: of the stack, and of what leads where. -/
structure Visited (importMap : ImportMap) (fetch : Fetcher) (plan : Plan) (w : Walk)
    (key : ModuleKey) (answer : Option Nat) (w' : Walk) : Prop where
  search : CycleStack.Answer (view fetch plan) (Loaded w') w.stack w'.stack key answer
  leaves : CycleStack.Leaves (fetch.Imports importMap) w.stack w'.stack key answer

/-- The state of a visit after some dependencies of the module have been visited. -/
structure Exploring (importMap : ImportMap) (fetch : Fetcher) (plan : Plan) (start : ModuleMap)
    (w : Walk) (key : ModuleKey) (done : List ModuleKey) (low : Nat) (w' : Walk) : Prop where
  passed : Passed importMap fetch plan start w w'
  exploring : CycleStack.Exploring (view fetch plan) (Loaded w') w.stack key done low w'.stack
  leading : CycleStack.Leading (fetch.Imports importMap) w'.stack key low

/-- A walk goes on from where it has come to. -/
theorem Passed.trans (h : Passed importMap fetch plan start w w')
    (h' : Passed importMap fetch plan start w' w'') : Passed importMap fetch plan start w w'' :=
  ⟨h'.inv, h'.waiting, h.grows.trans h'.grows, h.stack.trans h'.stack⟩

/-- A module that is on the stack has been registered when the walk came to it, as far as it was not
on the stack then. -/
theorem Inv.registered (h : Inv importMap fetch plan start w) (hgrows : w.map.Grows w'.map)
    (hkey : (w'.map.entry key).status = .loading) (hnot : key ∉ w.stack) :
    (w.map.entry key).status = .registered := by
  by_contra hold
  rw [hgrows.kept key hold] at hkey
  exact hnot (h.listed key hkey)

/-! ## Steps -/

/-- Committing a step that is possible changes the map and leaves the stack. -/
theorem ends_commit {f : ModuleMap → Except Violation ModuleMap} {g : Entry → Entry}
    {ok : Unit → Walk → Prop} {error : Halt LoadFault → Walk → Prop}
    (h : ∃ map', f w.map = .ok map' ∧ w.map.Alters key g map')
    (hok : ∀ map', w.map.Alters key g map' → ok () ⟨map', w.stack⟩) :
    Ends (commit f) w ok error := by
  obtain ⟨map', hf, halters⟩ := h
  unfold commit
  simp only [ends_bind, ends_get, hf, ends_modify]
  exact hok map' halters

/-- A walk may register a key. -/
theorem passed_register (h : Inv importMap fetch plan start w) (hwaiting : Waiting w) :
    Passed importMap fetch plan start w ⟨w.map.register key, w.stack⟩ := by
  have hgrows : w.map.Grows (w.map.register key) := .register
  have hentry : ∀ k, (w.map.register key).entry k = w.map.entry k :=
    fun _ => ModuleMap.entry_register
  refine ⟨⟨?_, h.grows.trans hgrows, h.nodup, h.planned, fun k hk => ?_, fun k hk => ?_⟩,
    fun k hk => ?_, hgrows, List.prefix_rfl⟩
  · exact h.sound.of_eq (fun k => by rw [hentry]) fun k => .inl (by rw [hentry])
  · exact h.listed k (hentry k ▸ hk)
  · exact h.covered k (hentry k ▸ hk)
  · exact (congrArg Entry.status (hentry k)).trans (hwaiting k hk)

/-- A registered module that is planned goes on the stack. -/
theorem passed_push (h : Inv importMap fetch plan start w) (hwaiting : Waiting w)
    (hkey : (w.map.entry key).status = .registered)
    (hnode : plan.node? key = some (.ready (plan.dependencies key))) {map : ModuleMap}
    (halters : w.map.Alters key (fun e => { e with progress := .loading }) map) :
    Passed importMap fetch plan start w ⟨map, w.stack ++ [key]⟩ := by
  obtain ⟨hunfailed, hprogress⟩ := Entry.status_eq_registered_iff.1 hkey
  have hnew : key ∉ w.stack := by
    intro hmem
    rw [hwaiting key hmem] at hkey
    simp at hkey
  have hself : (map.entry key).status = .loading := by
    rw [halters.entry, if_pos rfl, Entry.status_eq_loading_iff]
    exact ⟨hunfailed, rfl⟩
  have hother : ∀ k, k ≠ key → map.entry k = w.map.entry k := by
    intro k hk
    rw [halters.entry, if_neg hk]
  have hgrows : ∀ old : ModuleMap, old.Grows w.map → old.Grows map :=
    fun old hold => hold.alter halters (hold.registered hkey)
      (Entry.isUnlinked_of_failure rfl hunfailed) rfl
  refine ⟨⟨?sound, hgrows start h.grows, ?nodup, ?planned, ?listed, ?covered⟩, ?waiting,
    hgrows _ .refl, List.prefix_append _ _⟩
  -- a module that is loading neither is loaded nor has failed, so that nothing is said of it
  case sound =>
    refine h.sound.of_eq (fun k => ?_) fun k => .inl ?_ <;> rw [halters.entry]
    · split
      · next hk => rw [hk, hprogress]; rfl
      · rfl
    · split <;> rfl
  case nodup =>
    rw [← List.concat_eq_append]
    exact h.nodup.concat hnew
  case planned =>
    intro k hk
    rcases List.mem_append.1 hk with hk | hk
    · exact h.planned k hk
    · rw [List.mem_singleton.1 hk]
      exact hnode
  case listed =>
    intro k hk
    by_cases hsame : k = key
    · simp [hsame]
    · rw [hother k hsame] at hk
      exact List.mem_append_left _ (h.listed k hk)
  case covered =>
    intro k hk
    by_cases hsame : k = key
    · exact .inl (by simp [hsame, hnode])
    · rw [hother k hsame] at hk
      exact h.covered k hk
  case waiting =>
    intro k hk
    rcases List.mem_append.1 hk with hk | hk
    · have hne : k ≠ key := fun hsame => hnew (hsame ▸ hk)
      exact (congrArg Entry.status (hother k hne)).trans (hwaiting k hk)
    · rw [List.mem_singleton.1 hk]
      exact hself

/-- A module that is still to be loaded fails with a fault that is its own or has been recorded
before. -/
theorem Inv.fail (h : Inv importMap fetch plan start w) {map : ModuleMap}
    (halters : w.map.Alters key (fun e => { e with failure := some (.load fault) }) map)
    (hstatus : (w.map.entry key).status = .registered ∨ (w.map.entry key).status = .loading)
    (hstart : (start.entry key).status = .registered) (hcovers : plan.Covers start key)
    (hraises : fetch.Raises importMap fault) (hreaches : fetch.Reaches importMap key fault.key)
    (hrecord : fault.key = key ∨ (w.map.entry fault.key).failure = some (.load fault)) :
    Inv importMap fetch plan start ⟨map, w.stack⟩ := by
  obtain ⟨hunfailed, hunloaded, hinstance⟩ := Entry.nothing_of_status hstatus
  refine ⟨?sound, ?grows, h.nodup, h.planned, ?listed, ?covered⟩
  case sound => exact h.sound.fail halters hunfailed hunloaded hraises hreaches hrecord
  case grows => exact h.grows.alter halters hstart (Entry.isUnlinked_fail hinstance fault) rfl
  case listed =>
    intro k hk
    rw [halters.entry] at hk
    split at hk
    · simp [Entry.status] at hk
    · exact h.listed k hk
  case covered =>
    intro k hk
    by_cases hsame : k = key
    · exact hsame ▸ hcovers
    · rw [halters.entry, if_neg hsame] at hk
      exact h.covered k hk

/-- A module fails, and its fault comes back from the visit. -/
theorem broken_fail {α : Type} {ok : α → Walk → Prop} (h : Inv importMap fetch plan start w')
    (hgrows : w.map.Grows w'.map) (hstack : w.stack <+: w'.stack)
    (hregistered : (w.map.entry key).status = .registered)
    (hstatus : (w'.map.entry key).status = .registered ∨ (w'.map.entry key).status = .loading)
    (hknown : w'.map.IsKnown key) (hcovers : plan.Covers start key) (hstart : start.Grows w.map)
    (hraises : fetch.Raises importMap fault) (hkey : fetch.Reaches importMap key fault.key)
    (hreaches : ∀ member ∈ w'.stack, fetch.Reaches importMap member fault.key)
    (hrecord : fault.key = key ∨ (w'.map.entry fault.key).failure = some (.load fault)) :
    Ends (fail key fault : LoadWalk α) w' ok fun halt w'' =>
      halt = .fault fault ∧ Broken importMap fetch plan start w fault w'' ∧
        (w''.map.entry key).failure = some (.load fault) := by
  unfold fail
  rw [ends_bind]
  refine ends_commit (ModuleMap.markFailed_ok hknown ?_ ?_) fun map halters => ?_
  · rcases hstatus with hstatus | hstatus <;> simp [hstatus]
  · rcases hstatus with hstatus | hstatus <;> simp [hstatus]
  · have hinv := h.fail halters hstatus (hstart.registered hregistered) hcovers hraises hkey hrecord
    have hinstance := (Entry.nothing_of_status hstatus).2.2
    refine ⟨rfl, ⟨hinv, ?_, hstack, hraises, hreaches⟩, ?_⟩
    · exact hgrows.alter halters hregistered (Entry.isUnlinked_fail hinstance fault) rfl
    · rw [halters.entry, if_pos rfl]

/-- A module gets its dependencies. -/
def Loads (dependencies : ModuleKey → List ModuleKey) (e e' : Entry) : Prop :=
  e' = { e with progress := .loaded (dependencies e.key) }

/-- Modules that are loading can be loaded together, each with its dependencies. -/
theorem ends_loadAll (dependencies : ModuleKey → List ModuleKey) {members : List ModuleKey}
    (hnodup : members.Nodup) (h : ∀ member ∈ members, (w.map.entry member).status = .loading) :
    Ends (members.forM fun member => commit (·.markLoaded member (dependencies member))) w
      (fun _ w' => w'.stack = w.stack ∧ w.map.AltersAll members (Loads dependencies) w'.map)
      fun _ _ => False := by
  have hloop := ModuleMap.ends_alterAll (s := w) id Walk.map Walk.stack (Loads dependencies)
    (fun member => commit (·.markLoaded member (dependencies member))) members
  rw [List.map_id] at hloop
  refine hloop hnodup fun member hmember w' hentry => ?_
  have hstatus : (w'.map.entry member).status = .loading := by
    rw [← h member hmember]
    exact congrArg Entry.status hentry
  have hknown : w'.map.IsKnown member := ModuleMap.isKnown_of_status_ne (by simp [hstatus])
  refine ends_commit (ModuleMap.markLoaded_ok hknown hstatus) fun map halters => ?_
  exact ⟨rfl, _, halters, by simp [Loads]⟩

/-- Modules of the stack have been loaded together, and what is left of the stack waits on. -/
structure Finishes (plan : Plan) (left members : List ModuleKey) (w w' : Walk) : Prop where
  split : ∀ k, k ∈ w.stack ↔ k ∈ left ∨ k ∈ members
  disjoint : ∀ k ∈ left, k ∉ members
  loading : ∀ member ∈ members, (w.map.entry member).status = .loading
  altered : w.map.AltersAll members (Loads plan.dependencies) w'.map
  stack : w'.stack = left

section Finishes

variable {left members : List ModuleKey}

/-- A module that is finished has its dependencies, and nothing else of it has changed. -/
theorem Finishes.entry_eq (h : Finishes plan left members w w') (hkey : key ∈ members) :
    w'.map.entry key =
      { w.map.entry key with progress := .loaded (plan.dependencies key) } := by
  simpa [Loads] using h.altered.altered key hkey

/-- A module that is finished has not failed. -/
theorem Finishes.unfailed (h : Finishes plan left members w w') (hkey : key ∈ members) :
    (w.map.entry key).failure = none :=
  (Entry.nothing_of_status (.inr (h.loading key hkey))).1

/-- A module that is finished is loaded. -/
theorem Finishes.isLoaded (h : Finishes plan left members w w') (hkey : key ∈ members) :
    (w'.map.entry key).isLoaded := by
  rw [h.entry_eq hkey]
  rfl

/-- A map still grows when registered modules are finished. -/
theorem Finishes.grows (h : Finishes plan left members w w') {old : ModuleMap}
    (hold : old.Grows w.map) (hregistered : ∀ member ∈ members,
      (old.entry member).status = .registered) : old.Grows w'.map := by
  refine hold.alterAll h.altered hregistered ?_
  rintro k hk _ rfl
  exact ⟨Entry.isUnlinked_of_failure rfl (h.unfailed hk), rfl⟩

/-- What is left of the stack goes on loading. -/
theorem Finishes.waiting (h : Finishes plan left members w w') (hwaiting : Waiting w) :
    Waiting w' := by
  intro k hk
  rw [h.stack] at hk
  rw [h.altered.kept k (h.disjoint k hk)]
  exact hwaiting k ((h.split k).2 (.inl hk))

/-- What loads is still on the stack. -/
theorem Finishes.listed (h : Finishes plan left members w w')
    (hlisted : ∀ k, (w.map.entry k).status = .loading → k ∈ w.stack) (k : ModuleKey)
    (hk : (w'.map.entry k).status = .loading) : k ∈ w'.stack := by
  by_cases hmember : k ∈ members
  · simp [h.entry_eq hmember, Entry.status, h.unfailed hmember, Progress.status] at hk
  · rw [h.altered.kept k hmember] at hk
    exact h.stack ▸ ((h.split k).1 (hlisted k hk)).resolve_right hmember

/-- Modules that wait are loaded soundly, once each of their dependencies is allowed, and has been
loaded or waits with them. -/
theorem Inv.finish (hplan : plan.Agrees importMap fetch start)
    (hinv : Inv importMap fetch plan start w) (h : Finishes plan left members w w')
    (hleft : left <+: w.stack)
    (hregistered : ∀ member ∈ members, (start.entry member).status = .registered)
    (hexplored : ∀ member ∈ members, ∀ d ∈ plan.dependencies member,
      (Loaded w d ∨ d ∈ members) ∧ ¬ fetch.Barred member d) :
    Inv importMap fetch plan start w' where
  sound := by
    refine hinv.sound.load (fun k hk => h.entry_eq hk) h.altered.kept (fun k hk => h.unfailed hk)
      (fun k hk => ?_) hexplored
    have hnode := hinv.planned k ((h.split k).2 (.inr hk))
    exact Fetcher.ofAnswer_eq_ready_iff.1 (hplan.node k _ hnode).symm
  grows := h.grows hinv.grows hregistered
  nodup := h.stack ▸ hinv.nodup.sublist hleft.sublist
  planned k hk := hinv.planned k (hleft.subset (h.stack ▸ hk))
  listed := h.listed hinv.listed
  covered k hk := by
    by_cases hmember : k ∈ members
    · exact hinv.covered k (by simp [h.loading k hmember])
    · rw [h.altered.kept k hmember] at hk
      exact hinv.covered k hk

end Finishes

/-- The modules above a position are loaded together. -/
theorem ends_finish {base : List ModuleKey} (hstack : base <+: w.stack) (hnodup : w.stack.Nodup)
    (hwaiting : Waiting w) :
    Ends (finish plan base.length) w
      (fun _ w' => Finishes plan base (w.stack.drop base.length) w w') fun _ _ => False := by
  obtain ⟨htake, hmembers, hsplit, hdisjoint⟩ := CycleStack.split_of_grown hstack hnodup
  have hloading : ∀ member ∈ w.stack.drop base.length, (w.map.entry member).status = .loading :=
    fun member hmember => hwaiting member (List.mem_of_mem_drop hmember)
  unfold finish
  simp only [ends_bind, ends_get, ends_modify, htake]
  refine (ends_loadAll plan.dependencies (w := ⟨w.map, base⟩) hmembers hloading).mono ?_
    fun _ _ hfalse => hfalse
  rintro - w' ⟨hstack', halters⟩
  exact ⟨hsplit, hdisjoint, hloading, halters, hstack'⟩

/-- The walk goes on when the modules above a position have been loaded together. -/
theorem passed_finish (hplan : plan.Agrees importMap fetch start)
    (h : Inv importMap fetch plan start w) (h' : Passed importMap fetch plan start w w')
    (hexplored : ∀ member ∈ w'.stack.drop w.stack.length, CycleStack.Explored (view fetch plan)
      (Loaded w') w'.stack w.stack.length member (plan.dependencies member)) :
    Ends (finish plan w.stack.length) w'
      (fun _ w'' => Passed importMap fetch plan start w w'' ∧ w''.stack = w.stack ∧
        ∀ member ∈ w'.stack.drop w.stack.length, (w''.map.entry member).isLoaded)
      fun _ _ => False := by
  refine (ends_finish h'.stack h'.inv.nodup h'.waiting).mono ?_ fun _ _ hfalse => hfalse
  rintro - w'' hfinishes
  have hregistered : ∀ member ∈ w'.stack.drop w.stack.length,
      (w.map.entry member).status = .registered := by
    intro member hmember
    exact h.registered h'.grows (hfinishes.loading member hmember)
      fun hk => hfinishes.disjoint member hk hmember
  have hinv : Inv importMap fetch plan start w'' :=
    h'.inv.finish hplan hfinishes h'.stack
      (fun member hmember => h.grows.registered (hregistered member hmember)) hexplored
  exact ⟨⟨hinv, hfinishes.waiting h'.waiting, hfinishes.grows h'.grows hregistered,
    hfinishes.stack ▸ List.prefix_rfl⟩, hfinishes.stack, fun _ hk => hfinishes.isLoaded hk⟩

/-! ## Visits -/

/-- Each module of the stack has a node of its own in the plan. -/
theorem Inv.length_stack_le (h : Inv importMap fetch plan start w) :
    w.stack.length ≤ plan.length := by
  have hsub : w.stack ⊆ plan.map Prod.fst := by
    intro k hk
    exact List.mem_map.2 ⟨_, mem_of_lookup (h.planned k hk), rfl⟩
  simpa using (List.subperm_of_subset h.nodup hsub).length_le

/-- A loaded module stays loaded as a map grows. -/
theorem Loaded.grows (h : Loaded w key) (hgrows : w.map.Grows w'.map) : Loaded w' key := by
  unfold Loaded
  rw [hgrows.kept key (Entry.status_ne_registered_of_isLoaded h)]
  exact h

/-- A visit to a dependency that ends without a fault. -/
theorem Exploring.visited {done : List ModuleKey} {low : Nat} {d : ModuleKey}
    {answer : Option Nat} (h : Exploring importMap fetch plan start w key done low w')
    (himports : fetch.Imports importMap key d) (hallowed : ¬ fetch.Barred key d)
    (hpassed : Passed importMap fetch plan start w' w'')
    (hvisited : Visited importMap fetch plan w' d answer w'') :
    Exploring importMap fetch plan start w key (done ++ [d]) (lower low answer) w'' := by
  exact ⟨h.passed.trans hpassed, h.exploring.visited (fun _ hk => hk.grows hpassed.grows)
    hpassed.stack hallowed hvisited.search,
    h.leading.visited himports hpassed.stack hvisited.search hvisited.leaves⟩

/-- An import that is not allowed makes the importer faulty. -/
theorem ends_checkImport (hplan : plan.Agrees importMap fetch start)
    (h : Inv importMap fetch plan start w) {d : ModuleKey} (hcovers : plan.Covers start d)
    (himports : fetch.Imports importMap key d) :
    Ends (checkImport key d) w (fun _ w' => w' = w ∧ ¬ fetch.Barred key d)
      fun halt w' => w' = w ∧ ∃ fault, halt = .fault fault ∧ fault.key = key ∧
        fetch.Raises importMap fault := by
  have hdeclares : w.map.DeclaresAt fetch d.url := by
    intro k hk
    rw [h.grows.declaration k]
    exact hplan.declares d hcovers k hk
  unfold checkImport
  rw [ends_bind, ends_get]
  cases hcause : importFault? w.map key d with
  | none => exact ⟨rfl, (importFault?_eq_none_iff hdeclares).1 hcause⟩
  | some cause =>
      have hbarred : fetch.Barred key d := by
        by_contra hallowed
        rw [(importFault?_eq_none_iff hdeclares).2 hallowed] at hcause
        simp at hcause
      exact ⟨rfl, _, rfl, rfl, .target d cause himports hbarred rfl (importFault?_cause hcause)⟩

/-- What is known when the walk comes back to a module with a fault that it found on the way to a
dependency. -/
structure Struck (importMap : ImportMap) (fetch : Fetcher) (plan : Plan) (start : ModuleMap)
    (w : Walk) (key : ModuleKey) (fault : LoadFault) (w' : Walk) : Prop where
  broken : Broken importMap fetch plan start w fault w'
  loading : (w'.map.entry key).status = .loading
  reaches : fetch.Reaches importMap key fault.key
  record : fault.key = key ∨ (w'.map.entry fault.key).failure = some (.load fault)

/-- What a visit does whose walk is at most `n` modules deep from here. -/
def Visits (importMap : ImportMap) (fetch : Fetcher) (plan : Plan) (start : ModuleMap) (n : Nat) :
    Prop :=
  ∀ (referrer : Option ModuleKey) (key : ModuleKey) (w : Walk),
    Inv importMap fetch plan start w → Waiting w → plan.Covers start key →
    (∀ member ∈ w.stack, fetch.Reaches importMap member key) →
    plan.length < n + w.stack.length →
    Ends (visit plan n referrer key) w
      (fun low w' => Passed importMap fetch plan start w w' ∧
        Visited importMap fetch plan w key low w')
      fun halt w' => ∃ fault, halt = .fault fault ∧ Broken importMap fetch plan start w fault w' ∧
        (w'.map.entry key).failure = some (.load fault)

/-- One dependency is checked and visited. -/
theorem ends_dependency (hplan : plan.Agrees importMap fetch start) {n : Nat}
    (hvisits : Visits importMap fetch plan start n)
    (hnode : plan.node? key = some (.ready (plan.dependencies key)))
    (hfuel : plan.length < n + (w.stack.length + 1)) {done : List ModuleKey} {low : Nat}
    (h : Exploring importMap fetch plan start w key done low w') {d : ModuleKey}
    (hd : d ∈ plan.dependencies key) :
    Ends (do
        checkImport key d
        return lower low (← visit plan n (some key) d)) w'
      (fun low' w'' => Exploring importMap fetch plan start w key (done ++ [d]) low' w'')
      fun halt w'' => ∃ fault, halt = .fault fault ∧
        Struck importMap fetch plan start w key fault w'' := by
  have hself : key ∈ w'.stack := h.exploring.pushed.subset (by simp)
  have hloading := h.passed.waiting key hself
  -- the dependency is planned and leads on, as `visits` asks of whatever it enters
  have hcovers : plan.Covers start d := hplan.dependencies key _ hnode d hd
  have himports : fetch.Imports importMap key d :=
    ⟨_, Fetcher.ofAnswer_eq_ready_iff.1 (hplan.node key _ hnode).symm, hd⟩
  have hlength := h.exploring.pushed.length_le
  rw [List.length_append, List.length_singleton] at hlength
  simp only [ends_bind, ends_pure]
  refine (ends_checkImport hplan h.passed.inv hcovers himports).mono ?_ ?_
  · rintro - w₁ ⟨hsame, hallowed⟩
    rw [hsame]
    have hleads : ∀ member ∈ w'.stack, Relation.ReflTransGen (fetch.Imports importMap) member d :=
      fun member hmember => (h.leading.reaches member hmember).tail himports
    have hvisit := hvisits (some key) d _ h.passed.inv h.passed.waiting hcovers hleads (by omega)
    refine hvisit.mono ?_ ?_
    · rintro answer w'' ⟨hpassed, hvisited⟩
      exact h.visited himports hallowed hpassed hvisited
    · rintro _ w'' ⟨fault, rfl, hbroken, hfailure⟩
      have hsame : w''.map.entry key = w'.map.entry key :=
        hbroken.grows.kept key (by simp [hloading])
      refine ⟨fault, rfl, ⟨hbroken.inv, h.passed.grows.trans hbroken.grows,
        h.passed.stack.trans hbroken.stack, hbroken.raises, hbroken.reaches⟩, hsame ▸ hloading,
        hbroken.reaches key (hbroken.stack.subset hself), .inr ?_⟩
      exact (hbroken.inv.sound.raised d fault hfailure).2.2.2
  · rintro _ w₁ ⟨hsame, fault, rfl, rfl, hraises⟩
    rw [hsame]
    exact ⟨fault, rfl, ⟨h.passed.inv, h.passed.grows, h.passed.stack, hraises,
      h.leading.reaches⟩, hloading, .refl, .inl rfl⟩

/-- The module's own cycle is complete, or waits for a module below. -/
theorem ends_complete (hplan : plan.Agrees importMap fetch start)
    (h : Inv importMap fetch plan start w) {low : Nat}
    (h' : Exploring importMap fetch plan start w key (plan.dependencies key) low w') :
    Ends (do
        if low = w.stack.length then
          finish plan w.stack.length
          return none
        else return some low) w'
      (fun answer w'' => Passed importMap fetch plan start w w'' ∧
        Visited importMap fetch plan w key answer w'')
      fun _ _ => False := by
  obtain ⟨hkey, hexplored⟩ := h'.exploring.members
  split
  · next hlow =>
      subst hlow
      rw [ends_bind]
      refine (passed_finish hplan h h'.passed hexplored).mono ?_ fun _ _ hfalse => hfalse
      rintro - w'' ⟨hpassed, hstack, hloaded⟩
      exact ⟨hpassed, ⟨hstack, hloaded key hkey⟩, hstack ▸ .none⟩
  · next hlow =>
      have hlt : low < w.stack.length := Nat.lt_of_le_of_ne h'.exploring.le hlow
      exact ⟨h'.passed, h'.exploring.waits hlow, h'.leading.leaves h'.passed.stack hlt⟩

/-- All dependencies of a module that has been put on the stack are checked and visited. A fault on
the way fails the module. -/
theorem ends_dependencies (hplan : plan.Agrees importMap fetch start) {n : Nat}
    (hvisits : Visits importMap fetch plan start n) (h : Inv importMap fetch plan start w)
    (hnode : plan.node? key = some (.ready (plan.dependencies key)))
    (hregistered : (w.map.entry key).status = .registered)
    (hfuel : plan.length < n + (w.stack.length + 1))
    (h' : Exploring importMap fetch plan start w key [] w.stack.length w') :
    Ends (failing key <| (plan.dependencies key).foldlM (fun low dependency => do
        checkImport key dependency
        return lower low (← visit plan n (some key) dependency)) w.stack.length) w'
      (fun low w'' => Exploring importMap fetch plan start w key (plan.dependencies key) low w'')
      fun halt w'' => ∃ fault, halt = .fault fault ∧ Broken importMap fetch plan start w fault w'' ∧
        (w''.map.entry key).failure = some (.load fault) := by
  unfold failing
  rw [ends_tryCatch]
  refine (ends_foldlM (fun done rest low w'' => done ++ rest = plan.dependencies key ∧
      Exploring importMap fetch plan start w key done low w'')
    (fun halt w'' => ∃ fault, halt = .fault fault ∧
      Struck importMap fetch plan start w key fault w'') ?_ ?_).mono
    (fun _ _ hend => hend.2) ?_
  · rintro done d rest low w'' ⟨hsplit, hexploring⟩
    refine (ends_dependency hplan hvisits hnode hfuel hexploring (by simp [← hsplit])).mono ?_
      fun _ _ hend => hend
    exact fun low' w₁ hexploring' => ⟨by simpa using hsplit, hexploring'⟩
  · exact ⟨rfl, h'⟩
  · rintro _ w'' ⟨fault, rfl, hstruck⟩
    have hbroken := hstruck.broken
    refine (broken_fail hbroken.inv hbroken.grows hbroken.stack hregistered (.inr hstruck.loading)
      (ModuleMap.isKnown_of_status_ne (by simp [hstruck.loading])) (.inl (by simp [hnode])) h.grows
      hbroken.raises hstruck.reaches hbroken.reaches hstruck.record).mono (fun _ _ hend => hend) ?_
    exact fun halt w₁ hend => ⟨fault, hend⟩

/-- A registered module with a node of its own goes on the stack. Its dependencies follow, and then
its own cycle is complete or waits. -/
theorem ends_enter (hplan : plan.Agrees importMap fetch start) {n : Nat}
    (hvisits : Visits importMap fetch plan start n) (h : Inv importMap fetch plan start w)
    {map : ModuleMap} (hregister : Passed importMap fetch plan start w ⟨map, w.stack⟩)
    (hknown : map.IsKnown key) (hregistered : (map.entry key).status = .registered)
    (hnode : plan.node? key = some (.ready (plan.dependencies key)))
    (hreaches : ∀ member ∈ w.stack, fetch.Reaches importMap member key)
    (hfuel : plan.length < n + (w.stack.length + 1)) :
    Ends (do
        modify fun w => { w with stack := w.stack ++ [key] }
        commit (·.markLoading key)
        let low ← failing key <| (plan.dependencies key).foldlM (fun low dependency => do
          checkImport key dependency
          return lower low (← visit plan n (some key) dependency)) w.stack.length
        if low = w.stack.length then
          finish plan w.stack.length
          return none
        else return some low) ⟨map, w.stack⟩
      (fun answer w' => Passed importMap fetch plan start w w' ∧
        Visited importMap fetch plan w key answer w')
      fun halt w' => ∃ fault, halt = .fault fault ∧ Broken importMap fetch plan start w fault w' ∧
        (w'.map.entry key).failure = some (.load fault) := by
  have hbefore := hregister.grows.registered hregistered
  rw [ends_bind, ends_modify, ends_bind]
  refine ends_commit (ModuleMap.markLoading_ok hknown hregistered) fun map' halters => ?_
  have hpushed := hregister.trans
    (passed_push hregister.inv hregister.waiting hregistered hnode halters)
  have hexploring : Exploring importMap fetch plan start w key [] w.stack.length
      ⟨map', w.stack ++ [key]⟩ := ⟨hpushed, .start, .start hreaches⟩
  rw [ends_bind]
  refine (ends_dependencies hplan hvisits h hnode hbefore hfuel hexploring).mono
    (fun low w' hend => ?_) fun _ _ hend => hend
  exact (ends_complete hplan h hend).mono (fun _ _ hend => hend) fun _ _ hfalse => hfalse.elim

/-- A module that has no outcome and is not on the stack is registered. -/
theorem Inv.registered_of_pending (h : Inv importMap fetch plan start w)
    (hloaded : ¬ (w.map.entry key).isLoaded) (hfault : (w.map.entry key).loadFault? = none)
    (hloading : (w.map.entry key).status ≠ .loading) :
    (w.map.entry key).status = .registered ∧ start.isPending key := by
  rw [Bool.not_eq_true] at hloaded
  have hunfailed : (w.map.entry key).status ≠ .failed := by
    intro hfailed
    obtain ⟨fault, hfault'⟩ := h.sound.exists_fault hfailed hloaded
    rw [Entry.loadFault?_eq_some_iff.2 hfault'] at hfault
    simp at hfault
  have hprogress : (w.map.entry key).progress.dependencies? = none := by
    simpa [Entry.isLoaded] using hloaded
  constructor
  · have hfailure : (w.map.entry key).failure = none := by
      simpa [Entry.status_eq_failed_iff] using hunfailed
    rw [Entry.status_eq_registered_iff]
    rw [ne_eq, Entry.status_eq_loading_iff] at hloading
    refine ⟨hfailure, ?_⟩
    cases hcase : (w.map.entry key).progress with
    | registered => rfl
    | loading => exact absurd ⟨hfailure, hcase⟩ hloading
    | loaded | instantiated | evaluated => simp [hcase, Progress.dependencies?] at hprogress
  · by_contra hsettled
    have hpending := h.grows.isPending (Bool.not_eq_true _ ▸ hsettled)
    simp [ModuleMap.isPending, hloaded, hunfailed] at hpending

/-- A visit keeps the invariant, whatever it comes to. -/
theorem visits (hplan : plan.Agrees importMap fetch start) (n : Nat) :
    Visits importMap fetch plan start n := by
  induction n with
  | zero =>
      intro referrer key w h _ _ _ hfuel
      -- the stack would hold more modules than the plan has nodes
      have hlength := h.length_stack_le
      omega
  | succ n ih =>
      intro referrer key w h hwaiting hcovers hreaches hfuel
      have hregister : Passed importMap fetch plan start w ⟨w.map.register key, w.stack⟩ :=
        passed_register h hwaiting
      have hknown : (w.map.register key).IsKnown key := by simp
      unfold visit
      simp only [ends_bind, ends_modify, ends_get]
      generalize w.map.register key = map at hregister hknown ⊢
      split
      · next hloaded =>
          exact ⟨hregister, ⟨rfl, hloaded⟩, .none⟩
      next hloaded =>
      split
      · next fault hfault =>
          -- an earlier walk has recorded which faulty module it leads to
          rw [Entry.loadFault?_eq_some_iff] at hfault
          obtain ⟨-, hraises, hleads, -⟩ := hregister.inv.sound.raised key fault hfault
          exact ⟨fault, rfl, ⟨hregister.inv, hregister.grows, hregister.stack, hraises,
            fun member hmember => (hreaches member hmember).trans hleads⟩, hfault⟩
      next hfault =>
      split
      · next hloading =>
          -- only modules of this walk are loading, so that it stands on the stack
          obtain ⟨position, hposition⟩ := Option.isSome_iff_exists.1
            (List.isSome_idxOf?.2 (hregister.inv.listed key hloading))
          obtain ⟨hget, hanswer⟩ := CycleStack.answer_of_idxOf? hposition
          rw [ends_pure, hposition]
          exact ⟨hregister, hanswer, .of_getElem? hget⟩
      next hloading =>
      obtain ⟨hregistered, hpending⟩ :=
        hregister.inv.registered_of_pending hloaded hfault hloading
      have hbefore := hregister.grows.registered hregistered
      split
      · next hnode =>
          -- what is pending has a node in a plan that agrees
          rcases hcovers with hcovers | hcovers
          · simp [hnode] at hcovers
          · simp [hpending] at hcovers
      · next fault hnode =>
          have hanswer := (hplan.node key _ hnode).symm
          obtain ⟨hown, -⟩ := Fetcher.faulty_of_ofAnswer_eq_failed hanswer
          have hself : fetch.Reaches importMap key fault.key := hown ▸ .refl
          refine (broken_fail hregister.inv hregister.grows hregister.stack hbefore
            (.inl hregistered) hknown hcovers h.grows (.answer (hown ▸ hanswer)) hself
            (fun member hmember => (hreaches member hmember).trans hself) (.inl hown)).mono
            (fun _ _ hend => hend) ?_
          exact fun halt w' hend => ⟨fault, hend⟩
      · next dependencies hnode =>
          obtain rfl : plan.dependencies key = dependencies := Plan.dependencies_eq hnode
          exact ends_enter hplan ih h hregister hknown hregistered hnode hreaches (by omega)

/-! ## Whole walks -/

/-- What a walk leaves behind. -/
structure Settled (importMap : ImportMap) (fetch : Fetcher) (plan : Plan) (start map : ModuleMap) :
    Prop where
  sound : map.LoadSound importMap fetch
  grows : start.Grows map
  idle : map.IsIdle
  covered : ∀ key, (map.entry key).status ≠ .registered → plan.Covers start key

/-- The state of giving up after some modules of the stack have been dealt with. -/
structure Abandoning (importMap : ImportMap) (fetch : Fetcher) (plan : Plan) (start : ModuleMap)
    (w : Walk) (done : List ModuleKey) (w' : Walk) : Prop where
  stack : w'.stack = w.stack
  inv : Inv importMap fetch plan start w'
  settled : ∀ k ∈ done, (w'.map.entry k).status ≠ .loading
  failures : ∀ k failure, (w.map.entry k).failure = some failure →
    (w'.map.entry k).failure = some failure

/-- A module that does not load any more is left alone. -/
theorem Abandoning.skip {done : List ModuleKey}
    (h : Abandoning importMap fetch plan start w done w')
    (hkey : (w'.map.entry key).status ≠ .loading) :
    Abandoning importMap fetch plan start w (done ++ [key]) w' where
  stack := h.stack
  inv := h.inv
  failures := h.failures
  settled k hk := by
    rcases List.mem_append.1 hk with hk | hk
    · exact h.settled k hk
    · exact List.mem_singleton.1 hk ▸ hkey

/-- A module that still loads fails. Those that have failed before keep their faults. -/
theorem Abandoning.fail {done : List ModuleKey} {map : ModuleMap}
    (h : Abandoning importMap fetch plan start w done w') (hidle : start.IsIdle)
    (hraises : fetch.Raises importMap fault)
    (hreaches : ∀ member ∈ w.stack, fetch.Reaches importMap member fault.key)
    (hrecord : (w.map.entry fault.key).failure = some (.load fault))
    (hkey : (w'.map.entry key).status = .loading)
    (halters : w'.map.Alters key (fun e => { e with failure := some (.load fault) }) map) :
    Abandoning importMap fetch plan start w (done ++ [key]) ⟨map, w'.stack⟩ where
  stack := h.stack
  inv := by
    have hregistered : (start.entry key).status = .registered := by
      by_contra hold
      rw [h.inv.grows.kept key hold] at hkey
      exact hidle key hkey
    exact h.inv.fail halters (.inr hkey) hregistered (h.inv.covered key (by simp [hkey])) hraises
      (hreaches key (h.stack ▸ h.inv.listed key hkey)) (.inr (h.failures _ _ hrecord))
  settled k hk := by
    rw [halters.entry]
    split
    · simp [Entry.status]
    · next hne =>
        exact h.settled k ((List.mem_append.1 hk).resolve_right (by simpa using hne))
  failures k failure hk := by
    have hunfailed := (Entry.nothing_of_status (.inr hkey)).1
    rw [halters.entry, if_neg]
    · exact h.failures k failure hk
    · rintro rfl
      rw [h.failures k failure hk] at hunfailed
      simp at hunfailed

/-- All that still waits fails, and nothing else changes. -/
theorem ends_abandon (hidle : start.IsIdle) (h : Inv importMap fetch plan start w)
    (hraises : fetch.Raises importMap fault)
    (hreaches : ∀ member ∈ w.stack, fetch.Reaches importMap member fault.key)
    (hrecord : (w.map.entry fault.key).failure = some (.load fault)) :
    Ends (abandon fault) w
      (fun _ w' => Settled importMap fetch plan start w'.map ∧
        ∀ k failure, (w.map.entry k).failure = some failure →
          (w'.map.entry k).failure = some failure)
      fun _ _ => False := by
  unfold abandon
  rw [ends_bind, ends_get]
  refine (ends_forM (fun done _ w' => Abandoning importMap fetch plan start w done w')
    (fun _ _ => False) ?step w.stack ?first).mono ?last fun _ _ hfalse => hfalse
  case first => exact ⟨rfl, h, by simp, fun _ _ hk => hk⟩
  case last =>
    rintro - w' h'
    refine ⟨⟨h'.inv.sound, h'.inv.grows, fun k hk => ?_, h'.inv.covered⟩, h'.failures⟩
    exact h'.settled k (h'.stack ▸ h'.inv.listed k hk) hk
  case step =>
    rintro done member rest w' h'
    rw [ends_bind, ends_get]
    split
    · next hstatus =>
        rw [ModuleMap.status?_eq_some_iff (by simp)] at hstatus
        refine ends_commit (ModuleMap.markFailed_ok
          (ModuleMap.isKnown_of_status_ne (by simp [hstatus])) (by simp [hstatus])
          (by simp [hstatus])) fun map halters => ?_
        exact h'.fail hidle hraises hreaches hrecord hstatus halters
    · next hstatus =>
        rw [ModuleMap.status?_eq_some_iff (by simp)] at hstatus
        exact h'.skip hstatus

/-- A walk loads a module, or fails it with the fault of a faulty module to which it leads. -/
theorem ends_run (hplan : plan.Agrees importMap fetch start) (hidle : start.IsIdle)
    (hsound : start.LoadSound importMap fetch) (hcovers : plan.Covers start key) :
    Ends (run plan key) ⟨start, []⟩
      (fun _ w' => Settled importMap fetch plan start w'.map ∧ (w'.map.entry key).isLoaded)
      fun halt w' => ∃ fault, halt = .fault fault ∧ Settled importMap fetch plan start w'.map ∧
        (w'.map.entry key).failure = some (.load fault) := by
  have hinv : Inv importMap fetch plan start ⟨start, []⟩ := by
    refine ⟨hsound, .refl, List.nodup_nil, by simp, fun k hk => absurd hk (hidle k), fun k hk => ?_⟩
    exact .inr (ModuleMap.isPending_eq_false (hidle k) hk)
  unfold run
  simp only [ends_tryCatch, ends_discard]
  refine (visits hplan (plan.length + 1) none key _ hinv (by simp [Waiting]) hcovers (by simp)
    (by simp)).mono ?_ ?_
  · rintro answer w' ⟨hpassed, hvisited⟩
    cases answer with
    | none =>
        obtain ⟨hstack, hloaded⟩ := hvisited.search
        refine ⟨⟨hpassed.inv.sound, hpassed.inv.grows, fun k hk => ?_, hpassed.inv.covered⟩,
          hloaded⟩
        have hmem := hpassed.inv.listed k hk
        simp [hstack] at hmem
    | some low =>
        obtain ⟨target, htarget, -⟩ := hvisited.leaves.target low rfl
        simp at htarget
  · rintro _ w' ⟨fault, rfl, hbroken, hfailure⟩
    simp only [ends_bind, ends_throw]
    refine (ends_abandon hidle hbroken.inv hbroken.raises hbroken.reaches
      (hbroken.inv.sound.raised key fault hfailure).2.2.2).mono ?_ fun _ _ hfalse => hfalse.elim
    rintro - w'' ⟨hsettled, hfailures⟩
    exact ⟨fault, rfl, hsettled, hfailures key _ hfailure⟩

end LoadWalk

end ModuleGraph
