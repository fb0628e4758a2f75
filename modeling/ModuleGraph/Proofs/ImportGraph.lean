import Mathlib.Logic.Relation
import ModuleGraph.Plan

/-!
# The import graph

What a fetcher makes of modules, apart from any realm. `Imports` are the edges of the graph: a body
all of whose requests resolve imports the modules they name. A module is `Faulty` if it cannot be
loaded whatever it imports does, and `Barred` says which imports are not allowed.

`PlanNode.ofAnswer` agrees with these definitions: `ofAnswer_eq_ready_iff` gives the edges and
`faulty_of_ofAnswer_eq_failed` the faults.
-/

namespace ModuleGraph

/-- The declaration at a path; the empty path leads to the top-level module. -/
def Resource.declaration? (r : Resource) (path : FragmentPath) : Option Declaration :=
  if path.isEmpty then some (.module r.root) else (r.fragment? path).map .fragment

/-- The body at a path is that of the declaration there. -/
theorem Resource.body?_eq (r : Resource) (path : FragmentPath) :
    r.body? path = (r.declaration? path).map Declaration.body := by
  unfold body? declaration?
  split
  · rfl
  · cases r.fragment? path <;> rfl

/-- A list that fails has a member that fails. -/
theorem exists_of_mapM_error {α β ε : Type} {f : α → Except ε β} {as : List α} {e : ε}
    (h : as.mapM f = .error e) : ∃ a ∈ as, f a = .error e := by
  induction as with
  | nil => cases h
  | cons a as ih =>
      rw [List.mapM_cons] at h
      cases ha : f a with
      | error e' =>
          obtain rfl : e' = e := by simpa [ha, bind, Except.bind] using h
          exact ⟨a, List.mem_cons_self, ha⟩
      | ok b =>
          cases hrest : as.mapM f with
          | error e' =>
              obtain rfl : e' = e := by simpa [ha, hrest, bind, Except.bind] using h
              obtain ⟨a', ha', herror⟩ := ih hrest
              exact ⟨a', List.mem_cons_of_mem a ha', herror⟩
          | ok bs => simp [ha, hrest, bind, Except.bind, pure, Except.pure] at h

/-- Resolving a request never says that its module has not been discovered. -/
theorem resolve_ne_notDiscovered {importMap : ImportMap} {request : Specifier} {base : Url}
    {scope : Scope} {fault : ResolveFault} (h : resolve importMap request base scope = .error fault)
    (specifier referrer : String) : fault ≠ .unbound specifier referrer .notDiscovered := by
  rintro rfl
  cases request with
  | url text =>
      have hinvalid : ∀ result : Except SpecifierFault ModuleKey,
          result.mapError (ResolveFault.invalidSpecifier text) ≠
            .error (.unbound specifier referrer .notDiscovered) := by
        intro result hresult
        cases result <;> cases hresult
      exact hinvalid _ h
  | fragment name =>
      simp only [resolve] at h
      split at h <;> simp at h

/-- What is planned for a module is never that it has not been discovered. -/
theorem PlanNode.ne_notDiscovered {importMap : ImportMap} {key : ModuleKey}
    {answer : Except ResourceFault Resource} {fault : LoadFault}
    (h : PlanNode.ofAnswer importMap key answer = .failed fault) (specifier referrer : String) :
    fault.cause ≠ .resolve (.unbound specifier referrer .notDiscovered) := by
  cases answer with
  | error cause =>
      obtain rfl := PlanNode.failed.inj h
      simp
  | ok resource =>
      simp only [ofAnswer, ofResource] at h
      cases hbody : resource.body? key.path with
      | none =>
          simp only [hbody, failed.injEq] at h
          simp [← h]
      | some body =>
          cases hrequests : body.dependencies importMap key.url with
          | ok dependencies => simp [hbody, hrequests] at h
          | error cause =>
              simp only [hbody, hrequests, failed.injEq] at h
              obtain ⟨request, -, hrequest⟩ := exists_of_mapM_error hrequests
              rw [← h]
              intro hcause
              obtain rfl := LoadCause.resolve.inj hcause
              exact resolve_ne_notDiscovered hrequest specifier referrer rfl

/-- What is answered to each URL. -/
abbrev Fetcher := Url → Except ResourceFault Resource

namespace Fetcher

/-- The declaration behind a key. -/
def declaration? (fetch : Fetcher) (key : ModuleKey) : Option Declaration :=
  match fetch key.url with
  | .ok resource => resource.declaration? key.path
  | .error _ => none

/-- Every fragment on the path of the key is marked as exported. -/
def Exports (fetch : Fetcher) (key : ModuleKey) : Prop :=
  ∀ ancestor ∈ key.ancestry, (fetch.declaration? ancestor).any Declaration.isExported

/-- A declared module that the importer may not import: an inline module, or a fragment of another
resource that is not exported along its whole path. -/
def Barred (fetch : Fetcher) (importer target : ModuleKey) : Prop :=
  ∃ declaration, fetch.declaration? target = some declaration ∧
    (declaration.form? = some .inline ∨ target.url ≠ importer.url ∧ ¬ fetch.Exports target)

variable (importMap : ImportMap) (fetch : Fetcher)

/-- The modules that the requests of a module name. There are none unless all requests resolve. -/
def dependencies? (key : ModuleKey) : Option (List ModuleKey) :=
  match fetch.declaration? key with
  | some declaration => (declaration.body.dependencies importMap key.url).toOption
  | none => none

/-- One module requests another. -/
def Imports (importer target : ModuleKey) : Prop :=
  ∃ dependencies, fetch.dependencies? importMap importer = some dependencies ∧
    target ∈ dependencies

/-- A module leads to another by requests. -/
def Reaches : ModuleKey → ModuleKey → Prop :=
  Relation.ReflTransGen (fetch.Imports importMap)

/-- A module that cannot be loaded: its resource is not to be had, its path names no body, one of
its requests does not resolve, or one of them names a module that it may not import. -/
inductive Faulty (key : ModuleKey) : Prop where
  | resource (fault : ResourceFault) : fetch key.url = .error fault → Faulty key
  | body (resource : Resource) :
      fetch key.url = .ok resource → resource.body? key.path = none → Faulty key
  | request (declaration : Declaration) (fault : ResolveFault) :
      fetch.declaration? key = some declaration →
      declaration.body.dependencies importMap key.url = .error fault → Faulty key
  | target (target : ModuleKey) :
      fetch.Imports importMap key target → fetch.Barred key target → Faulty key

/-- The fault that a faulty module gives rise to: that of the answer for it, or that of an import
which is refused. -/
inductive Raises (fault : LoadFault) : Prop
  | answer : PlanNode.ofAnswer importMap fault.key (fetch fault.key.url) = .failed fault →
      Raises fault
  | target (target : ModuleKey) (cause : UnboundCause) :
      fetch.Imports importMap fault.key target → fetch.Barred fault.key target →
      fault.cause = .resolve (.unbound target.text fault.key.text cause) →
      cause = .inlineModule ∨ cause = .notExported → Raises fault

variable {importMap fetch} {key target : ModuleKey} {dependencies : List ModuleKey}

/-- A planned module is ready for what its requests name. -/
theorem ofAnswer_eq_ready_iff :
    PlanNode.ofAnswer importMap key (fetch key.url) = .ready dependencies ↔
      fetch.dependencies? importMap key = some dependencies := by
  unfold dependencies? declaration?
  cases hanswer : fetch key.url with
  | error fault => simp [PlanNode.ofAnswer]
  | ok resource =>
      simp only [PlanNode.ofAnswer, PlanNode.ofResource, Resource.body?_eq]
      cases resource.declaration? key.path with
      | none => simp
      | some declaration =>
          simp only [Option.map_some]
          cases declaration.body.dependencies importMap key.url <;> simp [Except.toOption]

/-- What a planned module depends on is what it imports. -/
theorem mem_dependencies_ofAnswer :
    target ∈ (PlanNode.ofAnswer importMap key (fetch key.url)).dependencies ↔
      fetch.Imports importMap key target := by
  unfold Imports
  simp only [← ofAnswer_eq_ready_iff]
  cases PlanNode.ofAnswer importMap key (fetch key.url) <;> simp [PlanNode.dependencies]

/-- A module for which nothing is planned is faulty, and the fault is its own. -/
theorem faulty_of_ofAnswer_eq_failed {fault : LoadFault}
    (h : PlanNode.ofAnswer importMap key (fetch key.url) = .failed fault) :
    fault.key = key ∧ fetch.Faulty importMap key := by
  cases hanswer : fetch key.url with
  | error cause =>
      simp only [hanswer, PlanNode.ofAnswer, PlanNode.failed.injEq] at h
      exact ⟨h ▸ rfl, .resource cause hanswer⟩
  | ok resource =>
      simp only [hanswer, PlanNode.ofAnswer, PlanNode.ofResource] at h
      cases hbody : resource.body? key.path with
      | none =>
          simp only [hbody, PlanNode.failed.injEq] at h
          exact ⟨h ▸ rfl, .body resource hanswer hbody⟩
      | some body =>
          rw [Resource.body?_eq, Option.map_eq_some_iff] at hbody
          obtain ⟨declaration, hdeclaration, rfl⟩ := hbody
          simp only [Resource.body?_eq, hdeclaration, Option.map_some] at h
          cases hrequests : declaration.body.dependencies importMap key.url with
          | ok dependencies => simp [hrequests] at h
          | error cause =>
              simp only [hrequests, PlanNode.failed.injEq] at h
              refine ⟨h ▸ rfl, .request declaration cause ?_ hrequests⟩
              simp [declaration?, hanswer, hdeclaration]

/-- A fault is that of a faulty module. -/
theorem Raises.faulty {fault : LoadFault} (h : fetch.Raises importMap fault) :
    fetch.Faulty importMap fault.key := by
  cases h with
  | answer hanswer => exact (faulty_of_ofAnswer_eq_failed hanswer).2
  | target target _ himports hbarred => exact .target target himports hbarred

/-- No answer and no import that is refused gives rise to a fault which says that a module has not
been discovered. -/
theorem Raises.ne_notDiscovered {fault : LoadFault} (h : fetch.Raises importMap fault)
    (specifier referrer : String) :
    fault.cause ≠ .resolve (.unbound specifier referrer .notDiscovered) := by
  intro hcause
  cases h with
  | answer hanswer => exact PlanNode.ne_notDiscovered hanswer specifier referrer hcause
  | target target cause _ _ hrefused hcauses =>
      rw [hcause] at hrefused
      cases hrefused
      simp at hcauses

/-- A module that is no fault by itself and may import all that it requests is not faulty. -/
theorem not_faulty (h : fetch.dependencies? importMap key = some dependencies)
    (hbarred : ∀ target ∈ dependencies, ¬ fetch.Barred key target) :
    ¬ fetch.Faulty importMap key := by
  have hready := ofAnswer_eq_ready_iff.2 h
  intro hfaulty
  cases hfaulty with
  | resource fault hanswer => simp [hanswer, PlanNode.ofAnswer] at hready
  | body resource hanswer hbody =>
      simp [hanswer, hbody, PlanNode.ofAnswer, PlanNode.ofResource] at hready
  | request declaration fault hdeclaration hrequests =>
      simp [dependencies?, hdeclaration, hrequests, Except.toOption] at h
  | target target himports htarget =>
      obtain ⟨others, hothers, hmem⟩ := himports
      obtain rfl : others = dependencies := Option.some.inj (hothers.symm.trans h)
      exact hbarred target hmem htarget

end Fetcher

end ModuleGraph
