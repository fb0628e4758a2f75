import Mathlib.Data.List.Dedup
import Mathlib.Logic.Function.Iterate
import ModuleGraph.Proofs.RealmFetching

/-!
# How large plans get

A plan is made wave by wave, and nothing in a wave says that it is one of the last: an import cycle
comes back to its keys, and keys of URLs without a resource, or with other fragment paths, come up
all along. But each key that comes up was named by a request of a planned module, and modules that
are planned have bodies of their own. So there are no more keys than requests in the resources that
a library has, and the root (`Realm.Reached.plan_bounded`).
-/

namespace ModuleGraph

/-- What a library has, by its URLs. -/
def Library.served (library : Library) : ResourceTable :=
  (library.held.map Prod.fst).dedup.map fun url => (url, library.fetch url)

/-- Answers of a library have no more requests than the resources that it serves. -/
theorem Library.requestCount_le_served {library : Library} {answers : ResourceTable}
    (hnodup : (answers.map Prod.fst).Nodup) (hfetch : ∀ a ∈ answers, a.2 = library.fetch a.1) :
    answers.requestCount ≤ library.served.requestCount := by
  simp only [ResourceTable.requestCount_eq_sum]
  refine sum_map_le_of_nodup _ hnodup.of_map fun a ha hcount => ?_
  obtain ⟨url, answer⟩ := a
  obtain rfl : answer = library.fetch url := hfetch _ ha
  have hheld := List.mem_map_of_mem (f := Prod.fst) (library.mem_held_of_answerCount hcount)
  exact List.mem_map.2 ⟨url, List.mem_dedup.2 hheld, rfl⟩

/-- Only a node that is ready has dependencies. -/
theorem PlanNode.eq_ready_of_mem {node : PlanNode} {key : ModuleKey} (h : key ∈ node.dependencies) :
    node = .ready node.dependencies := by
  cases node with
  | ready dependencies => rfl
  | failed fault => cases h

/-- A module is settled just if it is loaded or has failed. -/
theorem ModuleMap.isPending_eq_false_iff {map : ModuleMap} {key : ModuleKey} :
    map.isPending key = false ↔ (map.entry key).isLoaded ∨ (map.entry key).status = .failed := by
  cases h : (map.entry key).isLoaded <;> simp [isPending, h]

namespace Discovery

variable {importMap : ImportMap} {library : Library} {start : Catalog} {root : ModuleKey}
  {d : Discovery}

/-! ## Wave after wave -/

/-- A plan in the making after `n` more waves. -/
def after (importMap : ImportMap) (library : Library) (d : Discovery) (n : Nat) : Discovery :=
  (step importMap library)^[n] d

/-- One more wave is made behind the others. -/
theorem after_succ (n : Nat) :
    d.after importMap library (n + 1) = (d.after importMap library n).step importMap library :=
  Function.iterate_succ_apply' _ n d

/-- One more wave may as well be made in front of the others. -/
theorem after_step (n : Nat) :
    (d.step importMap library).after importMap library n = d.after importMap library (n + 1) :=
  (Function.iterate_succ_apply _ n d).symm

/-- Where no wave is left, nothing happens any more. -/
theorem step_of_wave_eq_nil (h : d.wave = []) : d.step importMap library = d := by
  obtain ⟨catalog, plan, seen, wave⟩ := d
  obtain rfl : wave = [] := h
  simp [step, unseen]

/-- Once a wave is empty, so are all later ones. -/
theorem wave_after_eq_nil {n m : Nat} (hle : n ≤ m) (h : (d.after importMap library n).wave = []) :
    (d.after importMap library m).wave = [] := by
  obtain ⟨k, rfl⟩ := Nat.exists_eq_add_of_le hle
  induction k with
  | zero => exact h
  | succ k ih => rw [← Nat.add_assoc, after_succ, step_of_wave_eq_nil (ih (Nat.le_add_right n k)),
      ih (Nat.le_add_right n k)]

/-- The run of the waves stops at the first one that is empty. -/
theorem exists_run_eq_after (importMap : ImportMap) (library : Library) (steps : Nat)
    (d : Discovery) : ∃ n, d.run importMap library steps = d.after importMap library n ∧
      ∀ i < n, (d.after importMap library i).wave ≠ [] := by
  induction steps generalizing d with
  | zero => exact ⟨0, rfl, nofun⟩
  | succ steps ih =>
      unfold run
      split
      · exact ⟨0, rfl, nofun⟩
      · next hwave =>
          obtain ⟨n, hrun, hbusy⟩ := ih (d.step importMap library)
          refine ⟨n + 1, hrun.trans (after_step n), fun i hi => ?_⟩
          cases i with
          | zero => exact fun hempty => hwave (List.isEmpty_iff.2 hempty)
          | succ i => exact after_step i ▸ hbusy i (Nat.lt_of_succ_lt_succ hi)

/-- There is a wave from which on all waves are empty, and with it the plan is done. -/
theorem exists_last_wave (importMap : ImportMap) (library : Library) (root : ModuleKey)
    (honce : start.fetched.Nodup) :
    let d := (Discovery.start start root).after importMap library
    ∃ n, (∀ i, (d i).wave = [] ↔ n ≤ i) ∧
      discover importMap library start root = ((d n).catalog, (d n).plan) := by
  intro d
  obtain ⟨n, hrun, hbusy⟩ := exists_run_eq_after importMap library (bound library start)
    (Discovery.start start root)
  have hwave := wave_run_eq_nil importMap library root honce
  rw [hrun] at hwave
  refine ⟨n, fun i => ⟨fun hi => ?_, fun hi => wave_after_eq_nil hi hwave⟩, by rw [discover, hrun]⟩
  by_contra hlt
  exact hbusy i (Nat.lt_of_not_le hlt) hi

/-- The invariant holds after any number of waves. -/
theorem inv_after (n : Nat) (h : Inv importMap library start root d) :
    Inv importMap library start root (d.after importMap library n) := by
  induction n with
  | zero => exact h
  | succ n ih => exact after_succ n ▸ inv_step ih

/-! ## Where keys come from, and where they go -/

/-- Each key that has been seen is the root or a dependency of a planned module. -/
def Rooted (root : ModuleKey) (d : Discovery) : Prop :=
  ∀ key ∈ d.seen, key = root ∨ ∃ n ∈ d.plan, key ∈ n.2.dependencies

/-- A wave comes only to dependencies of planned modules. -/
theorem rooted_step (h : d.Rooted root) : (d.step importMap library).Rooted root := by
  obtain ⟨catalog, nodes, hstep, -⟩ := step_eq importMap library d
  rw [hstep]
  intro key hkey
  rcases List.mem_append.1 hkey with hold | hnew
  · refine (h key hold).imp_right ?_
    rintro ⟨n, hn, hdependency⟩
    exact ⟨n, List.mem_append_left _ hn, hdependency⟩
  · obtain ⟨n, hn, hdependency⟩ := List.mem_flatMap.1 (mem_unseen.1 hnew).1
    exact .inr ⟨n, List.mem_append_right _ hn, hdependency⟩

/-- All waves come only to dependencies of planned modules. -/
theorem rooted_after (h : d.Rooted root) (n : Nat) : (d.after importMap library n).Rooted root := by
  induction n with
  | zero => exact h
  | succ n ih => exact after_succ n ▸ rooted_step ih

/-- A key that was settled when its wave began, in one of the first `n` waves. -/
def Passed (importMap : ImportMap) (library : Library) (d : Discovery) (n : Nat) (key : ModuleKey) :
    Prop :=
  ∃ i < n, key ∈ (d.after importMap library i).wave ∧
    (d.after importMap library i).catalog.map.isPending key = false

/-- What has been seen is in the wave, or planned, or it was settled when its wave began. -/
theorem seen_after (importMap : ImportMap) (library : Library) {d : Discovery}
    (hstart : ∀ key ∈ d.seen, key ∈ d.wave) (n : Nat) :
    ∀ key ∈ (d.after importMap library n).seen, key ∈ (d.after importMap library n).wave ∨
      key ∈ (d.after importMap library n).plan.map Prod.fst ∨
      d.Passed importMap library n key := by
  induction n with
  | zero => exact fun key hkey => .inl (hstart key hkey)
  | succ n ih =>
      obtain ⟨catalog, nodes, hstep, -, hkeys, -⟩ :=
        step_eq importMap library (d.after importMap library n)
      rw [after_succ, hstep]
      intro key hkey
      rcases List.mem_append.1 hkey with hold | hnew
      · refine .inr ?_
        rw [List.map_append, List.mem_append, hkeys, List.mem_filter]
        rcases ih key hold with hwave | hplanned | ⟨i, hi, hsettled⟩
        · cases hpending : (d.after importMap library n).catalog.map.isPending key with
          | true => exact .inl (.inr ⟨hwave, rfl⟩)
          | false => exact .inr ⟨n, Nat.lt_succ_self n, hwave, hpending⟩
        · exact .inl (.inl hplanned)
        · exact .inr ⟨i, Nat.lt_succ_of_lt hi, hsettled⟩
      · exact .inl hnew

end Discovery

/-- There are no more planned modules than requests in the answers, and the root. -/
theorem Plan.Growing.length_le {importMap : ImportMap} {c : Catalog} {plan : Plan}
    {seen left : List ModuleKey} (h : plan.Growing importMap c seen left) :
    plan.length ≤ 1 + c.answers.requestCount := by
  have hseen := (h.planned_nodup.subperm fun key hkey => (h.planned key hkey).1).length_le
  rw [List.length_map] at hseen
  exact Nat.le_trans hseen h.length_seen_le

/-- Where each URL has been asked for once, its answer is the one that is found. -/
theorem Catalog.answer?_of_mem {c : Catalog} (honce : c.fetched.Nodup)
    {a : Url × Except ResourceFault Resource} (ha : a ∈ c.answers) : c.answer? a.1 = some a.2 := by
  obtain ⟨before, after, hanswers⟩ := List.append_of_mem ha
  rw [fetched, hanswers, List.map_append, List.map_cons, List.nodup_append] at honce
  refine List.lookup_eq_some_iff.2 ⟨before, after, hanswers, fun p hp => ?_⟩
  simpa using (honce.2.2 p.1 (List.mem_map_of_mem hp) a.1 (by simp)).symm

/-- If one library has given all answers, they have no more requests than what it serves. -/
theorem Catalog.AnsweredBy.requestCount_le {library : Library} {c : Catalog}
    (h : c.AnsweredBy library.fetch) (honce : c.fetched.Nodup) :
    c.answers.requestCount ≤ library.served.requestCount :=
  library.requestCount_le_served honce fun a ha => (h a.1 a.2 (c.answer?_of_mem honce ha)).symm

namespace Realm

variable {σ : Type} {h : Host σ} {r : Realm σ}

/-- The plan for any module is made in finitely many waves, whatever the realm has been through. A
key is planned if it is the root or a dependency of a module that is planned, and each dependency of
a planned module is planned as well, unless it was loaded or had failed when its wave began. If one
library has given all answers, there are no more keys in the plan than requests in the resources
that it serves, and one. -/
theorem Reached.plan_bounded (hr : Reached h r) {library : Library} {c : Catalog}
    (hc : r.catalog.Gathers library c) (root : ModuleKey) :
    let d := (Discovery.start c root).after h.importMap library
    ∃ n, (∀ i, (d i).wave = [] ↔ n ≤ i) ∧
      discover h.importMap library c root = ((d n).catalog, (d n).plan) ∧
      ((d n).plan.map Prod.fst).Nodup ∧
      (∀ key ∈ (d n).plan.map Prod.fst, key = root ∨
        ∃ importer dependencies, (importer, .ready dependencies) ∈ (d n).plan ∧
          key ∈ dependencies) ∧
      (∀ importer dependencies, (importer, .ready dependencies) ∈ (d n).plan →
        ∀ key ∈ dependencies, key ∈ (d n).plan.map Prod.fst ∨
          ∃ i < n, key ∈ (d i).wave ∧ (((d i).catalog.map.entry key).isLoaded ∨
            ((d i).catalog.map.entry key).status = .failed)) ∧
      (c.AnsweredBy library.fetch → (d n).plan.length ≤ 1 + library.served.requestCount) := by
  intro d
  have honce := hc.once hr.sound.once
  obtain ⟨n, hwaves, hdiscover⟩ := Discovery.exists_last_wave h.importMap library root honce
  have hwave : (d n).wave = [] := (hwaves n).2 (Nat.le_refl n)
  have hinv : Discovery.Inv h.importMap library c root (d n) :=
    Discovery.inv_after n Discovery.inv_start
  have hrooted : (d n).Rooted root := Discovery.rooted_after (by simp [Discovery.Rooted,
    Discovery.start]) n
  have hstart : ∀ key ∈ (Discovery.start c root).seen, key ∈ (Discovery.start c root).wave :=
    fun _ hkey => hkey
  have hseen := Discovery.seen_after h.importMap library hstart n
  refine ⟨n, hwaves, hdiscover, hinv.growing.planned_nodup, fun key hkey => ?_,
    fun importer dependencies hn key hkey => ?_, fun hfetch => ?_⟩
  · refine (hrooted key (hinv.growing.planned key hkey).1).imp_right ?_
    rintro ⟨m, hm, hdependency⟩
    exact ⟨m.1, m.2.dependencies, PlanNode.eq_ready_of_mem hdependency ▸ hm, hdependency⟩
  · rcases hseen key (hinv.growing.dependencies _ hn key hkey) with hleft | hplanned | hpassed
    · exact absurd hleft (hwave ▸ List.not_mem_nil)
    · exact .inl hplanned
    · obtain ⟨i, hi, hmem, hsettled⟩ := hpassed
      exact .inr ⟨i, hi, hmem, ModuleMap.isPending_eq_false_iff.1 hsettled⟩
  -- each planned key but the root is requested by an answer, and no answer is had twice
  · have hanswers := hfetch.asks hinv.gathers.answers
    exact Nat.le_trans hinv.growing.length_le
      (Nat.add_le_add_left (hanswers.requestCount_le (hinv.gathers.once honce)) 1)

/-- The realm that has loaded `lazy.js`, and `lib.js` with it. -/
def lazyFirst : Realm Unit :=
  Call.afterAll missingHost [.loadKey (fileKey "lazy.js")] (fresh ())

/-- The catalog in which `main.js` is registered after that. -/
def mainRegistered : Catalog :=
  { lazyFirst.catalog with map := lazyFirst.catalog.map.register (fileKey "main.js") }

/-- The plan for `main.js` has three modules after three waves; `lib.js` comes up but is settled. -/
theorem plan_bounded_mainRegistered :
    let d := (Discovery.start mainRegistered (fileKey "main.js")).after missingHost.importMap
      missingHost.library
    (∀ i, (d i).wave = [] ↔ 3 ≤ i) ∧
      (d 3).plan.map Prod.fst = ["main.js", "gone.js", "app.js"].map fileKey ∧
      (∀ key ∈ (d 3).plan.map Prod.fst, key = fileKey "main.js" ∨
        ∃ importer dependencies, (importer, .ready dependencies) ∈ (d 3).plan ∧
          key ∈ dependencies) ∧
      (fileKey "app.js", .ready [fileKey "lib.js"]) ∈ (d 3).plan ∧
      fileKey "lib.js" ∈ (d 2).wave ∧ ((d 2).catalog.map.entry (fileKey "lib.js")).isLoaded ∧
      missingHost.library.served.requestCount = 4 ∧ (d 3).plan.length ≤ 1 + 4 := by
  intro d
  have hreached : Reached missingHost lazyFirst := .afterAll _ (.fresh ())
  have hregistered : lazyFirst.catalog.Gathers missingHost.library mainRegistered :=
    Catalog.gathers_register missingHost.library lazyFirst.catalog (fileKey "main.js")
  have hanswers := (answeredBy_afterAll missingHost () [.loadKey (fileKey "lazy.js")]).asks
    hregistered.answers
  obtain ⟨n, hwaves, -, -, hkeys, -, hlength⟩ :=
    hreached.plan_bounded hregistered (fileKey "main.js")
  obtain ⟨htwo, hthree, hplan, happ, hlib, hloaded, hcount⟩ : (d 2).wave ≠ [] ∧ (d 3).wave = [] ∧
      (d 3).plan.map Prod.fst = ["main.js", "gone.js", "app.js"].map fileKey ∧
      (fileKey "app.js", .ready [fileKey "lib.js"]) ∈ (d 3).plan ∧
      fileKey "lib.js" ∈ (d 2).wave ∧ ((d 2).catalog.map.entry (fileKey "lib.js")).isLoaded ∧
      missingHost.library.served.requestCount = 4 := by
    decide +kernel
  obtain rfl : n = 3 := by
    have hlast := (hwaves 3).1 hthree
    have hbefore := mt (hwaves 2).2 htwo
    omega
  exact ⟨hwaves, hplan, hkeys, happ, hlib, hloaded, hcount, hcount ▸ hlength hanswers⟩

end Realm

end ModuleGraph
