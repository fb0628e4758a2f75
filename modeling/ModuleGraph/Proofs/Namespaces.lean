import ModuleGraph.Proofs.ExportedNames
import ModuleGraph.Proofs.LiveBindings

/-!
# Namespaces

`Realm.Reached.mem_namespace_iff` is the main statement: the namespace of an instantiated module has
the names that lead to one single target in the graph of re-exports, and these only, each of them
bound to its target.

The names are listed by one traversal of the graph and resolved by other ones. What is listed and
has no single target is left out; whatever has a target has been listed
(`ModuleMap.mem_exportedNames_of_offers`). Since an instance is linked but once, the invariant
(`ModuleMap.Presents`) says that its exports stay what the names of its module stand for.
-/

namespace ModuleGraph

namespace ModuleMap

variable {map map' : ModuleMap} {key : ModuleKey} {name : String} {i : Instance} {b : Binding}
  {t : ExportTarget}

/-- The exports of an instance are the names of its module that have a single target, each of them
bound to what the target stands for. -/
structure Presents (map : ModuleMap) (key : ModuleKey) (i : Instance) : Prop where
  loaded : (map.entry key).isLoaded
  bound : ∀ e ∈ i.exports, ∃ t, map.resolveExport key e.1 = .ok t ∧ map.binding? t = some e.2
  complete : ∀ name t, map.resolveExport key name = .ok t → ∃ b, (name, b) ∈ i.exports

/-- A namespace stays what it is. -/
theorem Presents.lasts (h : map.Presents key i) (hclosed : map.Closed) (hlasts : map.Lasts map') :
    map'.Presents key i where
  loaded := hlasts.loaded.isLoaded h.loaded
  bound e he := by
    obtain ⟨t, ht, hb⟩ := h.bound e he
    exact ⟨t, (hlasts.loaded.resolveExport_eq_ok_congr hclosed h.loaded).2 ht, hlasts.binding? hb⟩
  complete name t ht :=
    h.complete name t ((hlasts.loaded.resolveExport_eq_ok_congr hclosed h.loaded).1 ht)

/-- A namespace has just the names that are resolved, bound to their targets. -/
theorem Presents.mem_exports_iff (h : map.Presents key i) :
    (name, b) ∈ i.exports ↔ ∃ t, map.resolveExport key name = .ok t ∧ map.binding? t = some b := by
  refine ⟨fun he => h.bound _ he, fun ⟨t, ht, hb⟩ => ?_⟩
  obtain ⟨b', he⟩ := h.complete name t ht
  obtain ⟨t', ht', hb'⟩ := h.bound _ he
  obtain rfl := Except.ok.inj (ht.symm.trans ht')
  obtain rfl := Option.some.inj (hb.symm.trans hb')
  exact he

/-- A namespace has just the names with one single target. -/
theorem Presents.mem_exportNames_iff (h : map.Presents key i) :
    name ∈ i.exportNames ↔ ∃! t, map.Offers (key, name) t := by
  rw [← exists_resolveExport_iff, Instance.exportNames, List.mem_map]
  constructor
  · rintro ⟨e, he, rfl⟩
    obtain ⟨t, ht, -⟩ := h.bound e he
    exact ⟨t, ht⟩
  · rintro ⟨t, ht⟩
    obtain ⟨b, hb⟩ := h.complete name t ht
    exact ⟨(name, b), hb, rfl⟩

end ModuleMap

namespace Linker

open ModuleMap

variable {l : Linker} {map' : ModuleMap} {key : ModuleKey} {i j : Instance}
  {exports : List (String × Binding)}

/-- What linking finds for the names of a module. -/
theorem of_exports (h : l.exports key = .ok exports) :
    (∀ e ∈ exports, ∃ t, l.map.resolveExport key e.1 = .ok t ∧ l.bind key t = .ok e.2) ∧
      ∀ name t, l.map.resolveExport key name = .ok t → ∃ b, (name, b) ∈ exports := by
  unfold Linker.exports at h
  obtain ⟨bound, hbound, hlast⟩ := Except.bind_eq_ok h
  cases hlast
  have hbinds := forall₂_of_mapM_ok hbound
  constructor
  · intro e he
    rw [List.mem_mergeSort] at he
    obtain ⟨f, hf, hbind⟩ := exists_mem_of_forall₂ hbinds.flip he
    obtain ⟨b, hb, hsame⟩ := Except.bind_eq_ok hbind
    cases hsame
    exact ⟨f.2, (mem_resolved_iff.1 hf).2, hb⟩
  · intro name t ht
    have hlisted := mem_exportedNames_of_offers ((resolveExport_eq_ok_iff.1 ht t).2 rfl)
    have hmem := (mem_resolved_iff (f := (name, t))).2 ⟨hlisted, ht⟩
    obtain ⟨e, he, hbind⟩ := exists_mem_of_forall₂ hbinds hmem
    obtain ⟨b, -, hsame⟩ := Except.bind_eq_ok hbind
    cases hsame
    exact ⟨b, List.mem_mergeSort.2 he⟩

/-- What is linked gets its names as the committed instances have them. -/
theorem Commits.presents (h : l.Commits map') (hclosed : l.map.Closed) (hlasts : l.map.Lasts map')
    (hlink : l.link i = .ok j) : map'.Presents i.key j := by
  unfold link at hlink
  cases hview : l.map.linkView? i.key with
  | none => simp [hview] at hlink
  | some view =>
      simp only [hview] at hlink
      obtain ⟨imports, -, hrest⟩ := Except.bind_eq_ok hlink
      obtain ⟨_, -, hrest⟩ := Except.bind_eq_ok hrest
      obtain ⟨exports, hexports, hlast⟩ := Except.bind_eq_ok hrest
      cases hlast
      have hloaded := isLoaded_of_linkView? hview
      obtain ⟨hbound, hcomplete⟩ := of_exports hexports
      refine ⟨hlasts.loaded.isLoaded hloaded, fun e he => ?_, fun name t ht => ?_⟩
      · obtain ⟨t, ht, hb⟩ := hbound e he
        exact ⟨t, (hlasts.loaded.resolveExport_eq_ok_congr hclosed hloaded).2 ht,
          h.binding?_of_bind hb⟩
      · exact hcomplete name t ((hlasts.loaded.resolveExport_eq_ok_congr hclosed hloaded).1 ht)

end Linker

/-- Having the right names is a property that an instance gets by being linked and keeps. -/
theorem ModuleMap.linkInvariant_presents :
    ModuleMap.LinkInvariant fun _ map key i => map.Presents key i where
  mono h _ := h
  lasts h hclosed hlasts := h.lasts hclosed hlasts
  links hcommits hclosed hlasts hlink := hcommits.presents hclosed hlasts hlink

namespace Realm

open ModuleMap

variable {σ : Type} {h : Host σ} {r : Realm σ}

/-- In every realm the namespaces are right. -/
theorem Reached.presents (hr : Reached h r) {key : ModuleKey} {i : Instance}
    (hi : r.map.instance? key = some i) : r.map.Presents key i :=
  hr.eachInstance linkInvariant_presents key i ((instance?_eq _ _).symm.trans hi)

/-- The namespace of an instantiated module has the names that lead to one single target in the
graph of re-exports, and no others, and each of them is bound to the cell or the namespace that its
target stands for. Names with several targets are left out, as is `default`, unless the module
exports it itself. -/
theorem Reached.mem_namespace_iff (hr : Reached h r) (key : ModuleKey) (i : Instance)
    (hi : r.map.instance? key = some i) :
    (∀ name, name ∈ i.exportNames ↔ ∃! t, r.map.Offers (key, name) t) ∧
    (∀ name b, (name, b) ∈ i.exports ↔ ∃ t, r.map.resolveExport key name = .ok t ∧
      (∀ t', r.map.Offers (key, name) t' ↔ t' = t) ∧ r.map.binding? t = some b) ∧
    (∀ name t t', r.map.Offers (key, name) t → r.map.Offers (key, name) t' → t ≠ t' →
      name ∉ i.exportNames) ∧
    ("default" ∉ r.map.ownNames key → "default" ∉ i.exportNames) := by
  have hpresents := hr.presents hi
  refine ⟨fun name => hpresents.mem_exportNames_iff, fun name b => ?_,
    fun name t t' ht ht' hne hmem => ?_, fun hdefault hmem => hdefault ?_⟩
  · rw [hpresents.mem_exports_iff]
    refine exists_congr fun t => and_congr_right fun ht => ?_
    rw [and_iff_right (resolveExport_eq_ok_iff.1 ht)]
  · exact hne ((hpresents.mem_exportNames_iff.1 hmem).unique ht ht')
  · obtain ⟨t, ht, -⟩ := hpresents.mem_exportNames_iff.1 hmem
    obtain ⟨_, -, rfl | hname, hm⟩ := ht.hasName
    · exact hm
    · exact absurd rfl hname

/-! ## Names that are not in a namespace -/

/-- A host with a text that passes on the exports of others: of two in a cycle, of one that exports
a name of its own under the same name, and of one with a default export. -/
def meetingHost : Host Unit :=
  ⟨(fileKey "main.js").url, ImportMap.empty,
    .ofSources [((fileKey "main.js").url, "export * from './left.js'; export * from './right.js';
        export * from './plain.js'; export { both as single } from './ring.js';"),
      ((fileKey "left.js").url, "export * from './ring.js'; export const both = 1;"),
      ((fileKey "ring.js").url, "export * from './left.js';"),
      ((fileKey "right.js").url, "export const both = 2;"),
      ((fileKey "plain.js").url, "export default 3;")],
    fun _ host => (.ok (), host)⟩

/-- The realm that has instantiated the texts. -/
def meetingRealm : Realm Unit :=
  Call.afterAll meetingHost
    [.loadKey (fileKey "main.js"), .instantiate (fileKey "main.js")] (fresh ())

/-- The realm is reached by these calls. -/
theorem reached_meetingRealm : Reached meetingHost meetingRealm :=
  .afterAll _ (.fresh ())

/-- The namespace has the one name with a single target; one with two targets and `default` are
missing. -/
theorem mem_namespace_iff_meeting :
    Reached meetingHost meetingRealm ∧
      ∃ i, meetingRealm.map.instance? (fileKey "main.js") = some i ∧
        i.exports = [("single", .cell ⟨⟨fileKey "left.js", 0⟩, "both"⟩)] ∧
        (∃! t, meetingRealm.map.Offers (fileKey "main.js", "single") t) ∧
        (¬ ∃! t, meetingRealm.map.Offers (fileKey "main.js", "both") t) ∧
        ¬ ∃! t, meetingRealm.map.Offers (fileKey "main.js", "default") t := by
  obtain ⟨hsome, hexports⟩ :
      (meetingRealm.map.instance? (fileKey "main.js")).isSome ∧
      (meetingRealm.map.instance? (fileKey "main.js")).map Instance.exports =
        some [("single", .cell ⟨⟨fileKey "left.js", 0⟩, "both"⟩)] := by
    decide +kernel
  obtain ⟨i, hi⟩ := Option.isSome_iff_exists.1 hsome
  rw [hi, Option.map_some, Option.some.injEq] at hexports
  have hnames : i.exportNames = ["single"] := by rw [Instance.exportNames, hexports]; rfl
  obtain ⟨hiff, -⟩ := reached_meetingRealm.mem_namespace_iff (fileKey "main.js") i hi
  rw [hnames] at hiff
  exact ⟨reached_meetingRealm, i, hi, hexports, (hiff _).1 (by decide),
    fun hboth => absurd ((hiff _).2 hboth) (by decide),
    fun hdefault => absurd ((hiff _).2 hdefault) (by decide)⟩

end Realm

end ModuleGraph
