import ModuleGraph.Proofs.LastingProgress
import ModuleGraph.Proofs.RealmRuns

/-!
# Interleaved loads

Several loads can be under way in one realm. Each makes its plan wave by wave on its own and shares
the catalog with the others, so that between any two of its steps modules may come to be loaded, to
fail, to be instantiated or evaluated. `LoadTask.step` is a step of one load: it looks at one key,
or takes the answer for one URL, or plans a wave, or links all that has been planned. An answer and
the declarations that come with it are one step, since no load looks at a resource before it has had
the answer.

The plan of a load stays right while others go on. What it has planned follows from answers, which
are kept; what it has left out was settled, and what is settled stays so (`ModuleMap.Lasts`).
`LoadTask.Inv` says this, `LoadTask.Inv.later` that the steps of others keep it, and
`LoadTask.Inv.step` that its own do.
-/

namespace ModuleGraph

/-! ## Steps of one load -/

/-- How far a load has got. Of a wave, the keys that are not settled are kept and asked for; they
are planned when there are answers to all of them. -/
inductive LoadPhase where
  | begun
  | unloaded
  | dropping (wave kept : List ModuleKey)
  | obtaining (keys waiting : List ModuleKey)
  | linking
  | ended (outcome : Except (Halt LoadFault) Unit)
deriving DecidableEq

/-- The phase in which a wave begins. Without one, the plan is complete. -/
def LoadPhase.wave : (next : List ModuleKey) → LoadPhase
  | [] => .linking
  | key :: keys => .dropping (key :: keys) []

/-- A load that is under way, with its plan so far and all keys that have been in a wave. -/
structure LoadTask where
  root : ModuleKey
  plan : Plan
  seen : List ModuleKey
  phase : LoadPhase

/-- A library that knows the answer for one URL. -/
def Fetcher.answering (fetch : Fetcher) (url : Url) : Library :=
  ⟨[(url, fetch url)], fun url => .notFound url.text⟩

/-- A library that knows one answer gives this answer. -/
theorem Fetcher.fetch_answering (fetch : Fetcher) (url : Url) :
    (fetch.answering url).fetch url = fetch url := by
  simp [answering, Library.fetch]

namespace LoadTask

/-- The load of a module before its first step. -/
def start (root : ModuleKey) : LoadTask :=
  ⟨root, [], [root], .begun⟩

/-- The load after it has planned a wave. -/
def planned (importMap : ImportMap) (answer : Url → Except ResourceFault Resource)
    (keys : List ModuleKey) (t : LoadTask) : LoadTask :=
  let nodes := keys.map fun key => (key, PlanNode.ofAnswer importMap key (answer key.url))
  let next := Discovery.unseen t.seen (nodes.flatMap fun n => n.2.dependencies)
  ⟨t.root, t.plan ++ nodes, t.seen ++ next, .wave next⟩

/-- The next step of a load. Answers come in any order: `choice` is the position of the key for
which the next one comes. -/
def step (importMap : ImportMap) (fetch : Fetcher) (choice : Nat) (c : Catalog) (t : LoadTask) :
    Catalog × LoadTask :=
  match t.phase with
  | .begun =>
    if (c.map.entry t.root).isLoaded then (c, { t with phase := .ended (.ok ()) })
    else (c, { t with phase := .unloaded })
  | .unloaded =>
    match (c.map.entry t.root).loadFault? with
    | some fault => (c, { t with phase := .ended (.error (.fault fault)) })
    | none => (c, { t with phase := .dropping [t.root] [] })
  | .dropping (key :: wave) kept =>
    -- others may have settled the key since it came into the wave
    let map := c.map.register key
    ({ c with map },
      { t with phase := .dropping wave (if map.isPending key then kept ++ [key] else kept) })
  | .dropping [] kept => (c, { t with phase := .obtaining kept kept })
  | .obtaining keys (key :: waiting) =>
    let next := (key :: waiting).getD choice key
    (c.obtain (fetch.answering next.url) next.url,
      { t with phase := .obtaining keys ((key :: waiting).erase next) })
  | .obtaining keys [] =>
    (c, t.planned importMap (fun url => (c.answer? url).getD (fetch url)) keys)
  | .linking =>
    -- the walk is one step: no other load goes on before it is over
    match LoadWalk.run t.plan t.root ⟨c.map, []⟩ with
    | .ok _ walk => ({ c with map := walk.map }, { t with phase := .ended (.ok ()) })
    | .error halt walk => ({ c with map := walk.map }, { t with phase := .ended (.error halt) })
  | .ended _ => (c, t)

/-- The keys that have been seen and are still to be looked at or planned. -/
def left (t : LoadTask) : List ModuleKey :=
  match t.phase with
  | .begun | .unloaded => [t.root]
  | .dropping wave kept => kept ++ wave
  | .obtaining keys _ => keys
  | .linking | .ended _ => []

/-- What holds of a catalog because a load has come to its phase. -/
def Stands (c : Catalog) (t : LoadTask) : Prop :=
  match t.phase with
  | .obtaining keys waiting => ∀ key ∈ keys, key ∈ waiting ∨ (c.answer? key.url).isSome
  | .ended (.ok _) => (c.map.entry t.root).isLoaded
  | .ended (.error halt) =>
    ∃ fault, halt = .fault fault ∧ (c.map.entry t.root).failure = some (.load fault)
  | .begun | .unloaded | .dropping .. | .linking => True

/-- What holds of a load at any time: its plan has become what it is by the answers, and it has seen
no key that its module does not lead to. -/
structure Inv (importMap : ImportMap) (fetch : Fetcher) (c : Catalog) (t : LoadTask) : Prop where
  root : t.root ∈ t.seen
  reached : ∀ key ∈ t.seen, fetch.Reaches importMap t.root key
  growing : t.plan.Growing importMap c t.seen t.left
  stands : t.Stands c

end LoadTask

/-- A catalog has come from another one without loss. -/
structure Catalog.Later (c c' : Catalog) : Prop where
  answers : ∀ url answer, c.answer? url = some answer → c'.answer? url = some answer
  lasts : c.map.Lasts c'.map

variable {importMap : ImportMap} {fetch : Fetcher} {c c' : Catalog} {t : LoadTask}

/-- A catalog has lost nothing of itself. -/
theorem Catalog.Later.refl : c.Later c :=
  ⟨fun _ _ h => h, .refl⟩

/-- Loading loses nothing. -/
theorem Catalog.Sound.later_loads {library : Library} (h : c.Sound importMap)
    (hloads : c.Loads library c') : c.Later c' :=
  ⟨fun _ _ hanswer => hloads.asks.answer? hanswer, (h.lasts_loads hloads).1⟩

namespace LoadTask

/-- What holds because a load has come to its phase holds later on. -/
theorem Stands.later (h : t.Stands c) (hlater : c.Later c') : t.Stands c' := by
  unfold Stands at h ⊢
  cases hphase : t.phase with
  | obtaining keys waiting =>
      simp only [hphase] at h ⊢
      intro key hkey
      refine (h key hkey).imp id fun hanswer => ?_
      obtain ⟨answer, hanswer⟩ := Option.isSome_iff_exists.1 hanswer
      exact Option.isSome_of_eq_some (hlater.answers _ _ hanswer)
  | ended outcome =>
      simp only [hphase] at h ⊢
      cases outcome with
      | ok _ => exact hlater.lasts.loaded.isLoaded h
      | error halt =>
          obtain ⟨fault, rfl, hfailure⟩ := h
          exact ⟨fault, rfl, hlater.lasts.failures _ _ hfailure⟩
  | begun => trivial
  | unloaded => trivial
  | dropping wave kept => trivial
  | linking => trivial

/-- The steps of others do a load no harm. -/
theorem Inv.later (h : t.Inv importMap fetch c) (hlater : c.Later c') :
    t.Inv importMap fetch c' where
  root := h.root
  reached := h.reached
  growing := h.growing.later hlater.answers fun _ => hlater.lasts.isPending
  stands := h.stands.later hlater

/-- A load goes on to another phase, with nothing left out but what is settled. -/
theorem Inv.to (h : t.Inv importMap fetch c) {phase : LoadPhase}
    (hleft : (left { t with phase }).Sublist t.left)
    (hsettled : ∀ key ∈ t.left, key ∈ left { t with phase } ∨ c.map.isPending key = false)
    (hstands : Stands c { t with phase }) : Inv importMap fetch c { t with phase } where
  root := h.root
  reached := h.reached
  growing := h.growing.drop hleft hsettled
  stands := hstands

/-- The invariant holds when a load begins. -/
theorem inv_start (root : ModuleKey) : (start root).Inv importMap fetch c where
  root := List.mem_singleton_self root
  reached key hkey := by
    obtain rfl := List.mem_singleton.1 hkey
    exact .refl
  growing := .first root
  stands := trivial

/-- A load that links has a complete plan. -/
theorem Inv.complete (h : t.Inv importMap fetch c) (hphase : t.phase = .linking) :
    t.plan.Complete importMap c t.root := by
  have hgrowing := h.growing
  rw [show t.left = [] by rw [left, hphase]] at hgrowing
  exact hgrowing.complete h.root

/-- The keys that are left when a wave begins are those of the wave. -/
theorem left_wave (root : ModuleKey) (plan : Plan) (seen next : List ModuleKey) :
    left ⟨root, plan, seen, .wave next⟩ = next := by
  cases next <;> rfl

/-- What planning a wave does: its keys get nodes by the answers, and what these depend on and has
not been seen is the next wave. -/
theorem planned_eq (importMap : ImportMap) (answer : Url → Except ResourceFault Resource)
    (keys : List ModuleKey) (t : LoadTask) : ∃ (nodes : Plan) (next : List ModuleKey),
    t.planned importMap answer keys = ⟨t.root, t.plan ++ nodes, t.seen ++ next, .wave next⟩ ∧
    nodes.map Prod.fst = keys ∧
    next = Discovery.unseen t.seen (nodes.flatMap fun n => n.2.dependencies) ∧
    ∀ n ∈ nodes, n.2 = PlanNode.ofAnswer importMap n.1 (answer n.1.url) := by
  refine ⟨_, _, rfl, ?_, rfl, fun n hn => ?_⟩
  · rw [List.map_map]
    exact List.map_id' keys
  · obtain ⟨key, -, rfl⟩ := List.mem_map.1 hn
    rfl

/-- A wave is planned when all answers have come. -/
theorem Inv.planned {keys : List ModuleKey} (h : t.Inv importMap fetch c)
    (hfetch : c.AnsweredBy fetch) (hphase : t.phase = .obtaining keys []) :
    (t.planned importMap (fun url => (c.answer? url).getD (fetch url)) keys).Inv
      importMap fetch c := by
  obtain ⟨nodes, next, hplanned, hkeys, hnext, hnodes⟩ :=
    planned_eq importMap (fun url => (c.answer? url).getD (fetch url)) keys t
  have hleft : t.left = keys := by rw [left, hphase]
  have hanswered : ∀ n ∈ nodes, ∃ answer, c.answer? n.1.url = some answer ∧
      n.2 = PlanNode.ofAnswer importMap n.1 answer := by
    intro n hn
    have hstands := h.stands
    simp only [Stands, hphase, List.not_mem_nil, false_or] at hstands
    have hsome := hstands n.1 (hkeys ▸ List.mem_map_of_mem hn)
    obtain ⟨answer, hanswer⟩ := Option.isSome_iff_exists.1 hsome
    exact ⟨answer, hanswer, by rw [hnodes n hn, hanswer, Option.getD_some]⟩
  rw [hplanned]
  constructor
  case root => exact List.mem_append_left _ h.root
  case reached =>
    intro key hkey
    rcases List.mem_append.1 hkey with hkey | hkey
    · exact h.reached key hkey
    · obtain ⟨n, hn, hdependency⟩ := List.mem_flatMap.1 (Discovery.mem_unseen.1 (hnext ▸ hkey)).1
      have hseen : n.1 ∈ t.seen :=
        h.growing.left_seen n.1 (hleft ▸ hkeys ▸ List.mem_map_of_mem hn)
      obtain ⟨answer, hanswer, hnode⟩ := hanswered n hn
      rw [hnode, ← hfetch _ _ hanswer] at hdependency
      exact (h.reached n.1 hseen).tail (Fetcher.mem_dependencies_ofAnswer.1 hdependency)
  case growing =>
    rw [left_wave, hnext]
    exact h.growing.extend (hkeys.trans hleft.symm) hanswered
  case stands => cases next <;> trivial

/-- What a step of a load does to a sound catalog. -/
structure Goes (importMap : ImportMap) (fetch : Fetcher) (c : Catalog) (t : LoadTask)
    (next : Catalog × LoadTask) : Prop where
  sound : next.1.Sound importMap
  answered : next.1.AnsweredBy fetch
  later : c.Later next.1
  root : next.2.root = t.root
  inv : next.2.Inv importMap fetch next.1

/-- A step that leaves the catalog as it is. -/
theorem Goes.of_inv {t' : LoadTask} (hc : c.Sound importMap) (hfetch : c.AnsweredBy fetch)
    (hroot : t'.root = t.root) (ht : t'.Inv importMap fetch c) :
    Goes importMap fetch c t (c, t') :=
  ⟨hc, hfetch, .refl, hroot, ht⟩

/-- A step that gathers something. -/
theorem Goes.of_gathers {library : Library} {phase : LoadPhase} (hc : c.Sound importMap)
    (hfetch : c'.AnsweredBy fetch) (h : t.Inv importMap fetch c) (hgathers : c.Gathers library c')
    (hleft : (left { t with phase }).Sublist t.left)
    (hsettled : ∀ key ∈ t.left, key ∈ left { t with phase } ∨ c'.map.isPending key = false)
    (hstands : Stands c' { t with phase }) :
    Goes importMap fetch c t (c', { t with phase }) := by
  have hlater := hc.later_loads hgathers.loads
  exact ⟨hc.gathers hgathers, hfetch, hlater, rfl, (h.later hlater).to hleft hsettled hstands⟩

/-- A catalog that takes an answer from a fetcher is answered by it. -/
theorem answeredBy_obtain {url : Url} [url.IsBare] (hfetch : c.AnsweredBy fetch) :
    (c.obtain (fetch.answering url) url).AnsweredBy fetch := by
  cases hurl : c.answer? url with
  | some answer =>
      rw [Catalog.obtain, hurl]
      exact hfetch
  | none =>
      obtain ⟨map, hobtain⟩ : ∃ map, c.obtain (fetch.answering url) url =
          ⟨map, c.answers ++ [(url, (fetch.answering url).fetch url)]⟩ :=
        (Catalog.obtain_of_new hurl).imp fun _ hmap => hmap.1
      rw [Fetcher.fetch_answering] at hobtain
      rw [hobtain]
      exact hfetch.append rfl (by simp)

/-- A key of the wave is registered, and left out if it is settled. -/
theorem Inv.drop {key : ModuleKey} {wave kept : List ModuleKey} (h : t.Inv importMap fetch c)
    (hc : c.Sound importMap) (hfetch : c.AnsweredBy fetch)
    (hphase : t.phase = .dropping (key :: wave) kept) :
    Goes importMap fetch c t ({ c with map := c.map.register key }, { t with
      phase := .dropping wave
        (if (c.map.register key).isPending key then kept ++ [key] else kept) }) := by
  have hgathers := Catalog.gathers_register (fetch.answering key.url) c key
  have hleft : t.left = kept ++ key :: wave := by rw [left, hphase]
  cases hpending : (c.map.register key).isPending key with
  | true =>
      have hsame : kept ++ key :: wave = kept ++ [key] ++ wave := by simp
      refine .of_gathers hc hfetch h hgathers ?_ (fun k hk => .inl ?_) trivial
      · rw [hleft, hsame]
        exact .refl _
      · rwa [hleft, hsame] at hk
  | false =>
      refine .of_gathers hc hfetch h hgathers ?_ (fun k hk => ?_) trivial
      · rw [hleft]
        exact (List.sublist_cons_self key wave).append_left kept
      · simp only [hleft, List.mem_append, List.mem_cons] at hk
        rcases hk with hkept | rfl | hwave
        · exact .inl (List.mem_append_left _ hkept)
        · exact .inr hpending
        · exact .inl (List.mem_append_right _ hwave)

/-- The answer for one of the keys comes. -/
theorem Inv.obtain {keys waiting : List ModuleKey} (h : t.Inv importMap fetch c)
    (hc : c.Sound importMap) (hfetch : c.AnsweredBy fetch)
    (hphase : t.phase = .obtaining keys waiting) (key : ModuleKey) :
    Goes importMap fetch c t (c.obtain (fetch.answering key.url) key.url,
      { t with phase := .obtaining keys (waiting.erase key) }) := by
  have hgathers : c.Gathers (fetch.answering key.url)
      (c.obtain (fetch.answering key.url) key.url) := Catalog.gathers_obtain
  have hleft : t.left = keys := by rw [left, hphase]
  refine .of_gathers hc (answeredBy_obtain hfetch) h hgathers (hleft ▸ .refl _)
    (fun k hk => .inl (hleft ▸ hk)) fun k hk => ?_
  have hstands := h.stands
  simp only [Stands, hphase] at hstands
  by_cases hsame : k = key
  · have hanswer := Catalog.answer?_obtain (fetch.answering key.url) c key.url
    exact .inr (Option.isSome_iff_exists.2 (hsame ▸ hanswer))
  · exact (hstands k hk).imp (fun hwaits => (List.mem_erase_of_ne hsame).2 hwaits)
      hgathers.answers.isSome_answer?

/-- The walk settles the module of the load. -/
theorem Inv.link (h : t.Inv importMap fetch c) (hc : c.Sound importMap)
    (hfetch : c.AnsweredBy fetch) (hphase : t.phase = .linking) :
    Ends (LoadWalk.run t.plan t.root) ⟨c.map, []⟩
      (fun _ walk => Goes importMap fetch c t
        ({ c with map := walk.map }, { t with phase := .ended (.ok ()) }))
      fun halt walk => Goes importMap fetch c t
        ({ c with map := walk.map }, { t with phase := .ended (.error halt) }) := by
  have hleft : t.left = [] := by rw [left, hphase]
  have hgoes : ∀ map outcome, c.map.Grows map → ({ c with map } : Catalog).Sound importMap →
      Stands { c with map } { t with phase := .ended outcome } →
      Goes importMap fetch c t ({ c with map }, { t with phase := .ended outcome }) := by
    intro map outcome hgrows hsound hstands
    have hloads : c.Loads (fetch.answering t.root.url) { c with map } := ⟨c.map, .refl, hgrows⟩
    have hlater := hc.later_loads hloads
    refine ⟨hsound, hfetch, hlater, rfl, (h.later hlater).to (List.nil_sublist _) ?_ hstands⟩
    simp [hleft]
  refine (hc.ends_walk (h.complete hphase)).mono ?_ ?_
  · rintro _ walk ⟨hwalked, hloaded⟩
    exact hgoes _ _ hwalked.grows hwalked.sound hloaded
  · rintro _ walk ⟨fault, rfl, hwalked, hfailure⟩
    exact hgoes _ _ hwalked.grows hwalked.sound ⟨fault, rfl, hfailure⟩

/-- A load that ends where it begins finds its module settled. -/
theorem Inv.end_at_root (h : t.Inv importMap fetch c) (hleft : t.left = [t.root])
    {outcome : Except (Halt LoadFault) Unit} (hsettled : c.map.isPending t.root = false)
    (hstands : Stands c { t with phase := .ended outcome }) :
    Inv importMap fetch c { t with phase := .ended outcome } := by
  refine h.to (List.nil_sublist _) (fun key hkey => .inr ?_) hstands
  rw [hleft, List.mem_singleton] at hkey
  exact hkey ▸ hsettled

/-- A step of a load keeps the catalog sound and the load right. -/
theorem Inv.step (h : t.Inv importMap fetch c) (hc : c.Sound importMap)
    (hfetch : c.AnsweredBy fetch) (choice : Nat) :
    Goes importMap fetch c t (t.step importMap fetch choice c) := by
  -- a step that leaves the catalog and what is left as they are
  have hsame : ∀ phase, left { t with phase } = t.left → Stands c { t with phase } →
      Goes importMap fetch c t (c, { t with phase }) := by
    intro phase hleft hstands
    exact .of_inv hc hfetch rfl
      (h.to (hleft ▸ .refl _) (fun key hkey => .inl (hleft ▸ hkey)) hstands)
  unfold LoadTask.step
  split
  next hphase =>
    have hleft : t.left = [t.root] := by rw [left, hphase]
    split
    · next hloaded =>
        have hsettled : c.map.isPending t.root = false := by simp [ModuleMap.isPending, hloaded]
        exact .of_inv hc hfetch rfl (h.end_at_root hleft hsettled hloaded)
    · exact hsame _ hleft.symm trivial
  next hphase =>
    have hleft : t.left = [t.root] := by rw [left, hphase]
    split
    · next fault hfault =>
        have hfailure := Entry.loadFault?_eq_some_iff.1 hfault
        have hsettled : c.map.isPending t.root = false := by
          simp [ModuleMap.isPending, Entry.status, hfailure]
        exact .of_inv hc hfetch rfl (h.end_at_root hleft hsettled ⟨fault, rfl, hfailure⟩)
    · exact hsame _ hleft.symm trivial
  next key wave kept hphase => exact h.drop hc hfetch hphase
  next kept hphase =>
    have hleft : t.left = kept := by simp [left, hphase]
    exact hsame _ hleft.symm fun key hkey => .inl hkey
  next keys key waiting hphase => exact h.obtain hc hfetch hphase _
  next keys hphase => exact .of_inv hc hfetch rfl (h.planned hfetch hphase)
  next hphase =>
    have hlink := h.link hc hfetch hphase
    split
    · next walk hrun => exact hlink.of_ok hrun
    · next halt walk hrun => exact hlink.of_error hrun
  next => exact .of_inv hc hfetch rfl h

end LoadTask

end ModuleGraph
