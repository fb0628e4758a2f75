import Mathlib.Data.List.Forall2
import ModuleGraph.Proofs.Catalogs

/-!
# Plans are complete

`discover_complete` is the main statement: the plan for a module has a node for each module that is
met and not settled before, and each node says what the answer to the module's URL makes of it.

`Plan.Growing` says what holds of a plan in the making. A wave is made of keys that were not seen
before, and each of them is named by a request of a planned module. Modules that are planned differ,
and so do their bodies, so that there are no more keys than requests. This is why `Discovery.bound`
suffices (`wave_run_eq_nil`).
-/

namespace ModuleGraph

/-- The members of a list and their results stand opposite to each other. -/
theorem forall₂_of_mapM_ok {α β ε : Type} {f : α → Except ε β} {as : List α} {bs : List β}
    (h : as.mapM f = .ok bs) : List.Forall₂ (fun a b => f a = .ok b) as bs := by
  induction as generalizing bs with
  | nil =>
      cases h
      exact .nil
  | cons a as ih =>
      rw [List.mapM_cons] at h
      cases ha : f a with
      | error e => simp [ha, bind, Except.bind] at h
      | ok b =>
          cases has : as.mapM f with
          | error e => simp [ha, has, bind, Except.bind] at h
          | ok rest =>
              simp only [ha, has, bind, Except.bind, pure, Except.pure, Except.ok.injEq] at h
              subst h
              exact .cons ha (ih has)

/-- There are as many results as members. -/
theorem length_of_mapM_ok {α β ε : Type} {f : α → Except ε β} {as : List α} {bs : List β}
    (h : as.mapM f = .ok bs) : bs.length = as.length :=
  (forall₂_of_mapM_ok h).length_eq.symm

/-- Each member of a list has a counterpart. -/
theorem exists_mem_of_forall₂ {α β : Type} {R : α → β → Prop} {as : List α} {bs : List β} {a : α}
    (h : List.Forall₂ R as bs) (ha : a ∈ as) : ∃ b ∈ bs, R a b := by
  induction h with
  | nil => cases ha
  | @cons a' b' _ bs' hab _ ih =>
      rcases List.mem_cons.1 ha with rfl | ha
      · exact ⟨b', List.mem_cons_self, hab⟩
      · obtain ⟨b, hb, hab⟩ := ih ha
        exact ⟨b, List.mem_cons_of_mem b' hb, hab⟩

/-- A planned module has no more dependencies than its body has requests. -/
theorem PlanNode.length_dependencies_le (importMap : ImportMap) {key : ModuleKey}
    {answer : Except ResourceFault Resource} {c : Catalog} (h : c.answer? key.url = some answer) :
    (PlanNode.ofAnswer importMap key answer).dependencies.length ≤
      ((c.declaration? key).map fun d => d.body.requests.length).getD 0 := by
  unfold Catalog.declaration?
  cases answer with
  | error fault => simp [ofAnswer, dependencies]
  | ok resource =>
      simp only [h, ofAnswer, ofResource, Resource.body?_eq]
      cases resource.declaration? key.path with
      | none => simp [dependencies]
      | some declaration =>
          simp only [Option.map_some, Option.getD_some]
          cases hrequests : declaration.body.dependencies importMap key.url with
          | error fault => simp [dependencies]
          | ok found => simp [dependencies, length_of_mapM_ok hrequests]

/-- Planned modules have no more dependencies than there are requests in all answers. -/
theorem Plan.sum_dependencies_le {importMap : ImportMap} {c : Catalog} {plan : Plan}
    (hnodup : (plan.map Prod.fst).Nodup)
    (hnode : ∀ n ∈ plan, ∃ answer, c.answer? n.1.url = some answer ∧
      n.2 = PlanNode.ofAnswer importMap n.1 answer) :
    (plan.map fun n => n.2.dependencies.length).sum ≤ c.answers.requestCount := by
  -- the bodies of the planned modules, by their places
  let place := fun key : ModuleKey =>
    (c.declaration? key).map fun declaration => ((key.url, key.path), declaration.body)
  have hbodies : ∀ nodes : Plan, nodes ⊆ plan →
      (nodes.map fun n => n.2.dependencies.length).sum ≤
        (((nodes.map Prod.fst).filterMap place).map fun b => b.2.requests.length).sum := by
    intro nodes hsub
    induction nodes with
    | nil => simp
    | cons n nodes ih =>
        obtain ⟨hn, hnodes⟩ := List.cons_subset.1 hsub
        obtain ⟨answer, hanswer, heq⟩ := hnode n hn
        have hle := PlanNode.length_dependencies_le importMap hanswer
        have hrest := ih hnodes
        rw [← heq] at hle
        rw [List.map_cons, List.sum_cons, List.map_cons]
        cases hdeclaration : c.declaration? n.1 with
        | none =>
            have hplace : place n.1 = none := by simp [place, hdeclaration]
            rw [List.filterMap_cons_none hplace]
            simp only [hdeclaration, Option.map_none, Option.getD_none, Nat.le_zero] at hle
            omega
        | some declaration =>
            have hplace : place n.1 = some ((n.1.url, n.1.path), declaration.body) := by
              simp [place, hdeclaration]
            rw [List.filterMap_cons_some hplace, List.map_cons, List.sum_cons]
            simp only [hdeclaration, Option.map_some, Option.getD_some] at hle
            exact Nat.add_le_add hle hrest
  refine Nat.le_trans (hbodies plan (List.Subset.refl _)) ?_
  rw [← ResourceTable.sum_bodies]
  refine sum_map_le_of_nodup _ (hnodup.filterMap ?_) fun b hb _ => ?_
  · intro k k' b hk hk'
    obtain ⟨_, -, rfl⟩ := Option.map_eq_some_iff.1 hk
    obtain ⟨_, -, hplace⟩ := Option.map_eq_some_iff.1 hk'
    simp only [Prod.mk.injEq] at hplace
    exact ModuleKey.ext hplace.1.1.symm hplace.1.2.symm
  · obtain ⟨key, -, hkey⟩ := List.mem_filterMap.1 hb
    obtain ⟨declaration, hdeclaration, rfl⟩ := Option.map_eq_some_iff.1 hkey
    exact c.mem_bodies_of_declaration? hdeclaration

/-- A key that is planned, or that needs no plan. -/
def Plan.Covers (plan : Plan) (map : ModuleMap) (key : ModuleKey) : Prop :=
  (plan.node? key).isSome ∨ map.isPending key = false

/-- A plan that says what the answers of a catalog make of each module, and that leaves out no
module that is met. -/
structure Plan.Complete (importMap : ImportMap) (c : Catalog) (root : ModuleKey) (plan : Plan) :
    Prop where
  node : ∀ key node, plan.node? key = some node →
    ∃ answer, c.answer? key.url = some answer ∧ node = PlanNode.ofAnswer importMap key answer
  root : plan.Covers c.map root
  dependencies : ∀ key node, plan.node? key = some node →
    ∀ d ∈ node.dependencies, plan.Covers c.map d

/-- The unseen keys are those that have not been seen. -/
theorem Discovery.mem_unseen {seen ks : List ModuleKey} {key : ModuleKey} :
    key ∈ unseen seen ks ↔ key ∈ ks ∧ key ∉ seen := by
  induction ks generalizing seen with
  | nil => simp [unseen]
  | cons k ks ih =>
      unfold unseen
      by_cases hk : k ∈ seen
      · simp only [if_pos hk, ih, List.mem_cons]
        constructor
        · exact fun h => ⟨.inr h.1, h.2⟩
        · rintro ⟨rfl | h, hnot⟩
          · exact absurd hk hnot
          · exact ⟨h, hnot⟩
      · simp only [if_neg hk, List.mem_cons, ih, not_or]
        by_cases hkey : key = k
        · simp [hkey, hk]
        · simp [hkey]

/-- The unseen keys are listed once. -/
theorem Discovery.nodup_unseen (seen ks : List ModuleKey) : (unseen seen ks).Nodup := by
  induction ks generalizing seen with
  | nil => simp [unseen]
  | cons k ks ih =>
      unfold unseen
      split
      · exact ih seen
      · refine List.nodup_cons.2 ⟨fun h => ?_, ih _⟩
        exact (mem_unseen.1 h).2 List.mem_cons_self

/-- No more keys are unseen than there are. -/
theorem Discovery.length_unseen_le (seen ks : List ModuleKey) :
    (unseen seen ks).length ≤ ks.length := by
  induction ks generalizing seen with
  | nil => simp [unseen]
  | cons k ks ih =>
      unfold unseen
      split
      · exact Nat.le_succ_of_le (ih seen)
      · simpa using ih (k :: seen)

namespace Plan

/-- A plan in the making, with the keys that have been seen and those that are `left` to be planned.
Each node says what the answer makes of its module. Whatever has been seen is left, or planned once,
or settled, and but for the first key it is a dependency of a planned module. -/
structure Growing (importMap : ImportMap) (c : Catalog) (plan : Plan)
    (seen left : List ModuleKey) : Prop where
  seen_nodup : seen.Nodup
  left_nodup : left.Nodup
  left_seen : ∀ key ∈ left, key ∈ seen
  planned_nodup : (plan.map Prod.fst).Nodup
  planned : ∀ key ∈ plan.map Prod.fst, key ∈ seen ∧ key ∉ left
  covered : ∀ key ∈ seen,
    key ∈ left ∨ key ∈ plan.map Prod.fst ∨ c.map.isPending key = false
  node : ∀ n ∈ plan, ∃ answer, c.answer? n.1.url = some answer ∧
    n.2 = PlanNode.ofAnswer importMap n.1 answer
  dependencies : ∀ n ∈ plan, ∀ d ∈ n.2.dependencies, d ∈ seen
  count : seen.length ≤ 1 + (plan.map fun n => n.2.dependencies.length).sum

namespace Growing

variable {importMap : ImportMap} {c c' : Catalog} {plan : Plan} {seen left : List ModuleKey}

/-- Before the first wave only the first key has been seen, and it is left. -/
theorem first (key : ModuleKey) : Growing importMap c [] [key] [key] := by
  constructor <;> simp

/-- Answers are kept, and what is settled stays so. -/
theorem later (h : Growing importMap c plan seen left)
    (hanswers : ∀ url answer, c.answer? url = some answer → c'.answer? url = some answer)
    (hsettled : ∀ key, c.map.isPending key = false → c'.map.isPending key = false) :
    Growing importMap c' plan seen left :=
  { h with
    covered key hkey := (h.covered key hkey).imp id (Or.imp id (hsettled key))
    node n hn := by
      obtain ⟨answer, hanswer, hnode⟩ := h.node n hn
      exact ⟨answer, hanswers _ _ hanswer, hnode⟩ }

/-- What is settled need not be planned. -/
theorem drop {kept : List ModuleKey} (h : Growing importMap c plan seen left)
    (hkept : kept.Sublist left)
    (hsettled : ∀ key ∈ left, key ∈ kept ∨ c.map.isPending key = false) :
    Growing importMap c plan seen kept :=
  { h with
    left_nodup := h.left_nodup.sublist hkept
    left_seen key hkey := h.left_seen key (hkept.subset hkey)
    planned key hkey := (h.planned key hkey).imp id fun hnot hleft => hnot (hkept.subset hleft)
    covered key hkey := by
      rcases h.covered key hkey with hleft | hdone
      · exact (hsettled key hleft).imp id .inr
      · exact .inr hdone }

/-- When all that is left gets a node, the dependencies of these nodes are seen, and the new ones
among them are left. -/
theorem extend {nodes : Plan} (h : Growing importMap c plan seen left)
    (hkeys : nodes.map Prod.fst = left)
    (hnodes : ∀ n ∈ nodes, ∃ answer, c.answer? n.1.url = some answer ∧
      n.2 = PlanNode.ofAnswer importMap n.1 answer) :
    Growing importMap c (plan ++ nodes)
      (seen ++ Discovery.unseen seen (nodes.flatMap fun n => n.2.dependencies))
      (Discovery.unseen seen (nodes.flatMap fun n => n.2.dependencies)) := by
  have hseen : ∀ key ∈ (plan ++ nodes).map Prod.fst, key ∈ seen := by
    intro key hkey
    rw [List.map_append, hkeys, List.mem_append] at hkey
    exact hkey.elim (fun hkey => (h.planned key hkey).1) (h.left_seen key)
  constructor
  case seen_nodup =>
    refine List.nodup_append.2 ⟨h.seen_nodup, Discovery.nodup_unseen _ _, ?_⟩
    rintro a ha b hb rfl
    exact (Discovery.mem_unseen.1 hb).2 ha
  case left_nodup => exact Discovery.nodup_unseen _ _
  case left_seen => exact fun key hkey => List.mem_append_right _ hkey
  case planned_nodup =>
    rw [List.map_append, hkeys]
    refine List.nodup_append.2 ⟨h.planned_nodup, h.left_nodup, ?_⟩
    rintro a ha b hb rfl
    exact (h.planned a ha).2 hb
  case planned =>
    exact fun key hkey => ⟨List.mem_append_left _ (hseen key hkey),
      fun hnew => (Discovery.mem_unseen.1 hnew).2 (hseen key hkey)⟩
  case covered =>
    intro key hkey
    rw [List.map_append, hkeys, List.mem_append]
    rcases List.mem_append.1 hkey with hkey | hkey
    · rcases h.covered key hkey with hleft | hplanned | hsettled
      · exact .inr (.inl (.inr hleft))
      · exact .inr (.inl (.inl hplanned))
      · exact .inr (.inr hsettled)
    · exact .inl hkey
  case node => exact fun n hn => (List.mem_append.1 hn).elim (h.node n) (hnodes n)
  case dependencies =>
    intro n hn d hd
    rcases List.mem_append.1 hn with hn | hn
    · exact List.mem_append_left _ (h.dependencies n hn d hd)
    · by_cases hold : d ∈ seen
      · exact List.mem_append_left _ hold
      · refine List.mem_append_right _ (Discovery.mem_unseen.2 ⟨?_, hold⟩)
        exact List.mem_flatMap.2 ⟨n, hn, hd⟩
  -- the keys that are new are dependencies of the new nodes, which are counted with them
  case count =>
    have hlength := Discovery.length_unseen_le seen (nodes.flatMap fun n => n.2.dependencies)
    have hcount := h.count
    rw [List.length_flatMap] at hlength
    simp only [List.length_append, List.map_append, List.sum_append]
    omega

/-- No more keys are seen than there are requests in the answers, and the first one. -/
theorem length_seen_le (h : Growing importMap c plan seen left) :
    seen.length ≤ 1 + c.answers.requestCount :=
  Nat.le_trans h.count
    (Nat.add_le_add_left (sum_dependencies_le h.planned_nodup h.node) 1)

/-- A plan with nothing left is complete. -/
theorem complete {root : ModuleKey} (h : Growing importMap c plan seen []) (hroot : root ∈ seen) :
    plan.Complete importMap c root := by
  have hcovers : ∀ key ∈ seen, plan.Covers c.map key := by
    intro key hkey
    rcases h.covered key hkey with hleft | hplanned | hsettled
    · cases hleft
    · obtain ⟨n, hn, rfl⟩ := List.mem_map.1 hplanned
      exact .inl (List.lookup_isSome_iff.2 ⟨n, hn, beq_self_eq_true _⟩)
    · exact .inr hsettled
  exact ⟨fun key node hnode => h.node _ (mem_of_lookup hnode), hcovers _ hroot,
    fun key node hnode d hd => hcovers d (h.dependencies _ (mem_of_lookup hnode) d hd)⟩

end Growing

end Plan

namespace Discovery

variable {importMap : ImportMap} {library : Library} {start : Catalog} {root : ModuleKey}
  {d : Discovery}

/-- What holds of the plan for a module before each wave. -/
structure Inv (importMap : ImportMap) (library : Library) (start : Catalog) (root : ModuleKey)
    (d : Discovery) : Prop where
  gathers : Catalog.Gathers library start d.catalog
  root : root ∈ d.seen
  growing : d.plan.Growing importMap d.catalog d.seen d.wave

/-- The invariant holds before the first wave. -/
theorem inv_start : Inv importMap library start root (Discovery.start start root) :=
  ⟨.refl, List.mem_singleton_self root, .first root⟩

/-- What a wave does: its pending keys get nodes by the answers to their URLs, and what these
depend on and has not been seen is the next wave. -/
theorem step_eq (importMap : ImportMap) (library : Library) (d : Discovery) :
    ∃ (catalog : Catalog) (nodes : Plan),
    d.step importMap library = ⟨catalog, d.plan ++ nodes,
      d.seen ++ unseen d.seen (nodes.flatMap fun n => n.2.dependencies),
      unseen d.seen (nodes.flatMap fun n => n.2.dependencies)⟩ ∧
    d.catalog.Gathers library catalog ∧
    nodes.map Prod.fst = d.wave.filter d.catalog.map.isPending ∧
    ∀ n ∈ nodes, ∃ answer, catalog.answer? n.1.url = some answer ∧
      n.2 = PlanNode.ofAnswer importMap n.1 answer := by
  have hregister := Catalog.gathers_registerAll library d.catalog d.wave
  refine ⟨_, _, rfl, hregister.trans (Catalog.gathers_obtainAll _), ?_, fun n hn => ?_⟩
  · rw [List.map_map]
    exact (List.map_id' _).trans (congrArg (d.wave.filter ·) (funext hregister.isPending))
  · obtain ⟨key, hkey, rfl⟩ := List.mem_map.1 hn
    obtain ⟨answer, hanswer⟩ := Catalog.answer?_obtainAll library
      { d.catalog with map := d.wave.foldl ModuleMap.register d.catalog.map } hkey
    exact ⟨answer, hanswer, by rw [hanswer, Option.getD_some]⟩

/-- A wave keeps the invariant. -/
theorem inv_step (h : Inv importMap library start root d) :
    Inv importMap library start root (d.step importMap library) := by
  obtain ⟨catalog, nodes, hstep, hgathers, hkeys, hnodes⟩ := step_eq importMap library d
  rw [hstep]
  refine ⟨h.gathers.trans hgathers, List.mem_append_left _ h.root, ?_⟩
  have hlater : d.plan.Growing importMap catalog d.seen d.wave :=
    h.growing.later (fun _ _ => hgathers.answers.answer?)
      fun key hsettled => (hgathers.isPending key).trans hsettled
  refine (hlater.drop List.filter_sublist fun key hkey => ?_).extend hkeys hnodes
  rw [hgathers.isPending, List.mem_filter]
  cases hpending : d.catalog.map.isPending key with
  | true => exact .inl ⟨hkey, rfl⟩
  | false => exact .inr rfl

/-- The invariant holds after any number of waves. -/
theorem inv_run (n : Nat) (h : Inv importMap library start root d) :
    Inv importMap library start root (d.run importMap library n) := by
  induction n generalizing d with
  | zero => exact h
  | succ n ih =>
      unfold run
      split
      · exact h
      · exact ih (inv_step h)

/-- Each wave that is followed by another one sees a new key. -/
theorem length_seen_of_wave_run (n : Nat) (h : (d.run importMap library n).wave ≠ []) :
    d.seen.length + n ≤ (d.run importMap library n).seen.length := by
  induction n generalizing d with
  | zero => exact Nat.le_refl _
  | succ n ih =>
      unfold run at h ⊢
      split at h
      · next hwave => exact absurd (List.isEmpty_iff.1 hwave) h
      · next hwave =>
          rw [if_neg hwave]
          have hseen : (d.step importMap library).seen.length =
              d.seen.length + (d.step importMap library).wave.length := by
            simp [step]
          have hnew : 0 < (d.step importMap library).wave.length := by
            refine List.length_pos_iff.2 fun hempty => h ?_
            cases n with
            | zero => exact hempty
            | succ n => simp [run, hempty]
          have hrest := ih h
          omega

/-- The bound on the number of waves is never exceeded. -/
theorem wave_run_eq_nil (importMap : ImportMap) (library : Library) (root : ModuleKey)
    (honce : start.fetched.Nodup) :
    ((Discovery.start start root).run importMap library (bound library start)).wave = [] := by
  by_contra hwave
  have hinv := inv_run (bound library start)
    (inv_start : Inv importMap library start root (Discovery.start start root))
  have hseen := length_seen_of_wave_run _ hwave
  have hlength := hinv.growing.length_seen_le
  have hrequests := hinv.gathers.requestCount_le honce
  -- each wave sees a new key, and there are no more keys than requests and the root
  have hfirst : (Discovery.start start root).seen.length = 1 := rfl
  unfold bound at *
  omega

end Discovery

/-- The plan for a module is complete, and making it takes no step with a module. -/
theorem discover_complete (importMap : ImportMap) (library : Library) {c : Catalog}
    (key : ModuleKey) (honce : c.fetched.Nodup) :
    c.Gathers library (discover importMap library c key).1 ∧
      (discover importMap library c key).2.Complete importMap (discover importMap library c key).1
        key := by
  unfold discover
  have hinv := Discovery.inv_run (Discovery.bound library c)
    (Discovery.inv_start : Discovery.Inv importMap library c key (Discovery.start c key))
  have hwave := Discovery.wave_run_eq_nil importMap library key honce
  generalize (Discovery.start c key).run importMap library (Discovery.bound library c) = d
    at hinv hwave
  exact ⟨hinv.gathers, (hwave ▸ hinv.growing).complete hinv.root⟩

end ModuleGraph
