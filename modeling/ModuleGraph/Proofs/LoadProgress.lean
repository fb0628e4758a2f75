import ModuleGraph.Proofs.Interleaving

/-!
# Loads come to an end

`LoadTask.work` bounds the number of steps that a load has left, as long as it sees no more keys
than a bound. Each of its steps makes it smaller, whatever has become of the catalog in between
(`LoadTask.work_step_lt`): a key is looked at and asked for once, and each wave sees a new key.

`LoadTask.steps_load` says that a load which nobody interrupts comes to what `Catalog.load` does.
-/

namespace ModuleGraph.LoadTask

variable {importMap : ImportMap} {fetch : Fetcher} {library : Library} {c : Catalog} {t : LoadTask}

/-- A number of steps in which a load has ended, if it does not see more keys than `bound`. -/
def work (bound : Nat) (t : LoadTask) : Nat :=
  -- a wave of `n` keys is over in `2 * n + 2` steps, which is no more than four for each key
  match t.phase with
  | .begun => 4 * (bound - t.seen.length) + 7
  | .unloaded => 4 * (bound - t.seen.length) + 6
  | .dropping wave kept =>
    4 * (bound - t.seen.length) + 2 * wave.length + kept.length + 3
  | .obtaining _ waiting => 4 * (bound - t.seen.length) + waiting.length + 2
  | .linking => 1
  | .ended _ => 0

/-- Planning a wave leaves less to do, since a further wave has keys that were not seen before. -/
theorem work_planned_lt {bound : Nat} {keys : List ModuleKey}
    (hphase : t.phase = .obtaining keys []) {answer : Url → Except ResourceFault Resource}
    (hbound : (t.planned importMap answer keys).seen.length ≤ bound) :
    (t.planned importMap answer keys).work bound < t.work bound := by
  obtain ⟨nodes, next, hplanned, -, -, -⟩ := planned_eq importMap answer keys t
  rw [hplanned] at hbound ⊢
  rw [List.length_append] at hbound
  cases next with
  | nil => simp [work, LoadPhase.wave, hphase]
  | cons key next =>
      simp only [List.length_cons] at hbound
      simp only [work, LoadPhase.wave, hphase, List.length_append, List.length_cons,
        List.length_nil]
      omega

/-- Each step of a load that has not ended leaves less to do. -/
theorem work_step_lt {bound choice : Nat} (hphase : ∀ outcome, t.phase ≠ .ended outcome)
    (hbound : (t.step importMap fetch choice c).2.seen.length ≤ bound) :
    (t.step importMap fetch choice c).2.work bound < t.work bound := by
  revert hbound
  unfold LoadTask.step
  split
  next hbegun => split <;> simp [work, hbegun]
  next hunloaded => split <;> simp [work, hunloaded]
  next key wave kept hdropping =>
    intro _
    simp only [work, hdropping, List.length_cons]
    split
    · simp only [List.length_append, List.length_singleton]
      omega
    · omega
  next kept hdropping => simp [work, hdropping]
  next keys key waiting hobtaining =>
    intro _
    have hmem : (key :: waiting).getD choice key ∈ key :: waiting := by
      rw [List.getD_eq_getElem?_getD]
      cases hchoice : (key :: waiting)[choice]? with
      | none => exact List.mem_cons_self
      | some next => exact List.mem_of_getElem? hchoice
    simp only [work, hobtaining, List.length_erase_of_mem hmem, List.length_cons]
    omega
  next keys hobtaining => exact work_planned_lt hobtaining
  next hlinking => split <;> simp [work, hlinking]
  next outcome hended => exact absurd hended (hphase outcome)

/-- A load sees no more keys than its module leads to. -/
theorem Inv.length_seen_le (h : t.Inv importMap fetch c) {keys : List ModuleKey}
    (hkeys : ∀ m, fetch.Reaches importMap t.root m → m ∈ keys) : t.seen.length ≤ keys.length :=
  (h.growing.seen_nodup.subperm fun key hkey => hkeys key (h.reached key hkey)).length_le

/-- Whatever others have done, a step of a load leaves less to do, or the load has ended. -/
theorem Inv.work_step_le (h : t.Inv importMap fetch c) (hc : c.Sound importMap)
    (hfetch : c.AnsweredBy fetch) {keys : List ModuleKey}
    (hkeys : ∀ m, fetch.Reaches importMap t.root m → m ∈ keys) (choice : Nat) :
    (t.step importMap fetch choice c).2.work keys.length ≤ t.work keys.length - 1 := by
  by_cases hended : ∃ outcome, t.phase = .ended outcome
  · obtain ⟨outcome, hended⟩ := hended
    simp [LoadTask.step, work, hended]
  · have hgoes := h.step hc hfetch choice
    have hbound := hgoes.inv.length_seen_le (hgoes.root ▸ hkeys)
    exact Nat.le_sub_one_of_lt (work_step_lt (fun outcome h => hended ⟨outcome, h⟩) hbound)

/-- A load without steps left has ended. -/
theorem ended_of_work_eq_zero {bound : Nat} (h : t.work bound = 0) :
    ∃ outcome, t.phase = .ended outcome := by
  unfold work at h
  split at h <;> first | omega | exact ⟨_, ‹_›⟩

/-! ## A load by itself -/

/-- A load goes on without other loads, and answers come in any order. -/
def Steps (importMap : ImportMap) (fetch : Fetcher) :
    Catalog × LoadTask → Catalog × LoadTask → Prop :=
  Relation.ReflTransGen fun s s' => ∃ choice, s.2.step importMap fetch choice s.1 = s'

/-- A load before a wave. -/
def ofDiscovery (root : ModuleKey) (d : Discovery) : LoadTask :=
  ⟨root, d.plan, d.seen, .wave d.wave⟩

/-- A library that knows one answer gives what the whole library does. -/
theorem obtain_answering (library : Library) (c : Catalog) (url : Url) :
    c.obtain (Fetcher.answering library.fetch url) url = c.obtain library url := by
  unfold Catalog.obtain
  rw [Fetcher.fetch_answering]

/-- All keys of a wave are looked at. -/
theorem steps_drop (c : Catalog) (t : LoadTask) (wave kept : List ModuleKey) :
    Steps importMap fetch (c, { t with phase := .dropping wave kept })
      ({ c with map := wave.foldl ModuleMap.register c.map }, { t with
        phase := .dropping []
          (kept ++ wave.filter (wave.foldl ModuleMap.register c.map).isPending) }) := by
  induction wave generalizing c kept with
  | nil =>
      rw [List.filter_nil, List.append_nil]
      exact .refl
  | cons key wave ih =>
      have hpending := (Catalog.gathers_registerAll (fetch.answering key.url)
        { c with map := c.map.register key } wave).isPending key
      have hkept : (if (c.map.register key).isPending key then kept ++ [key] else kept) ++
          wave.filter (wave.foldl ModuleMap.register (c.map.register key)).isPending =
            kept ++ (key :: wave).filter
              (wave.foldl ModuleMap.register (c.map.register key)).isPending := by
        rw [List.filter_cons, hpending]
        split <;> simp
      rw [List.foldl_cons, ← hkept]
      exact .head ⟨0, rfl⟩ (ih _ _)

/-- All answers come. -/
theorem steps_obtain (c : Catalog) (t : LoadTask) (keys waiting : List ModuleKey) :
    Steps importMap library.fetch (c, { t with phase := .obtaining keys waiting })
      ((waiting.map ModuleKey.url).foldl (fun c url => c.obtain library url) c,
        { t with phase := .obtaining keys [] }) := by
  induction waiting generalizing c with
  | nil => exact .refl
  | cons key waiting ih =>
      have hstep : ({ t with phase := .obtaining keys (key :: waiting) } : LoadTask).step importMap
          library.fetch 0 c =
            (c.obtain library key.url, { t with phase := .obtaining keys waiting }) := by
        simp [LoadTask.step, obtain_answering]
      exact .head ⟨0, hstep⟩ (ih _)

/-- A load plans a wave as `Discovery.step` does. -/
theorem steps_wave (importMap : ImportMap) (library : Library) (root : ModuleKey) {d : Discovery}
    (hwave : d.wave ≠ []) :
    Steps importMap library.fetch (d.catalog, ofDiscovery root d)
      ((d.step importMap library).catalog, ofDiscovery root (d.step importMap library)) := by
  obtain ⟨key, wave, hcons⟩ := List.exists_cons_of_ne_nil hwave
  let t : LoadTask := ⟨root, d.plan, d.seen, .linking⟩
  have hbegin : ofDiscovery root d = { t with phase := .dropping d.wave [] } := by
    simp [ofDiscovery, hcons, LoadPhase.wave, t]
  rw [hbegin]
  refine (steps_drop d.catalog t d.wave []).trans (.head ⟨0, rfl⟩ ?_)
  refine (steps_obtain _ t _ _).trans (.single ⟨0, rfl⟩)

/-- A load plans wave after wave as `Discovery.run` does. -/
theorem steps_run (importMap : ImportMap) (library : Library) (root : ModuleKey) (n : Nat)
    (d : Discovery) :
    Steps importMap library.fetch (d.catalog, ofDiscovery root d)
      ((d.run importMap library n).catalog, ofDiscovery root (d.run importMap library n)) := by
  induction n generalizing d with
  | zero => exact .refl
  | succ n ih =>
      unfold Discovery.run
      split
      · exact .refl
      · next hwave =>
          have hnonempty : d.wave ≠ [] := by simpa using hwave
          exact (steps_wave importMap library root hnonempty).trans (ih _)

/-- A load makes the plan of `discover`, and then it links. -/
theorem steps_discover (importMap : ImportMap) (library : Library) (root : ModuleKey)
    (honce : c.fetched.Nodup) : ∃ t, t.phase = .linking ∧ t.root = root ∧
      t.plan = (discover importMap library c root).2 ∧
      Steps importMap library.fetch (c, ofDiscovery root (Discovery.start c root))
        ((discover importMap library c root).1, t) := by
  have hsteps := steps_run importMap library root (Discovery.bound library c)
    (Discovery.start c root)
  refine ⟨_, ?_, rfl, rfl, hsteps⟩
  rw [ofDiscovery, Discovery.wave_run_eq_nil importMap library root honce]
  rfl

/-- A load that links all by itself comes to what the walk by its plan does. -/
theorem steps_link (importMap : ImportMap) (fetch : Fetcher) (c : Catalog)
    (hphase : t.phase = .linking) :
    Ends (LoadWalk.run t.plan t.root) ⟨c.map, []⟩
      (fun _ walk => Steps importMap fetch (c, t)
        ({ c with map := walk.map }, { t with phase := .ended (.ok ()) }))
      fun halt walk => Steps importMap fetch (c, t)
        ({ c with map := walk.map }, { t with phase := .ended (.error halt) }) := by
  unfold Ends
  cases hrun : LoadWalk.run t.plan t.root ⟨c.map, []⟩ with
  | ok _ walk => exact .single ⟨0, by simp [LoadTask.step, hphase, hrun]⟩
  | error halt walk => exact .single ⟨0, by simp [LoadTask.step, hphase, hrun]⟩

/-- A load that nobody interrupts ends as `Catalog.load` does, with the same catalog. -/
theorem steps_load (importMap : ImportMap) (library : Library) (root : ModuleKey)
    (honce : c.fetched.Nodup) :
    Ends (Catalog.load importMap library root) c
      (fun _ c' => ∃ t, t.phase = .ended (.ok ()) ∧
        Steps importMap library.fetch ({ c with map := c.map.register root }, start root) (c', t))
      fun halt c' => ∃ t, t.phase = .ended (.error halt) ∧
        Steps importMap library.fetch ({ c with map := c.map.register root }, start root)
          (c', t) := by
  unfold Ends Catalog.load
  generalize hregister : { c with map := c.map.register root } = c₁
  have honce : c₁.fetched.Nodup := by rwa [← hregister]
  dsimp only
  by_cases hloaded : (c₁.map.entry root).isLoaded
  · rw [if_pos hloaded]
    exact ⟨{ start root with phase := .ended (.ok ()) }, rfl,
      .single ⟨0, by simp [LoadTask.step, start, hloaded]⟩⟩
  rw [if_neg hloaded]
  -- the task asks for the root three times: whether it is loaded, has failed, or is to be found
  have hunloaded : Steps importMap library.fetch (c₁, start root)
      (c₁, { start root with phase := .unloaded }) :=
    .single ⟨0, by simp [LoadTask.step, start, hloaded]⟩
  cases hfault : (c₁.map.entry root).loadFault? with
  | some fault =>
      refine ⟨{ start root with phase := .ended (.error (.fault fault)) }, rfl, ?_⟩
      exact hunloaded.tail ⟨0, by simp [LoadTask.step, start, hfault]⟩
  | none =>
      have hwave : Steps importMap library.fetch (c₁, start root)
          (c₁, ofDiscovery root (Discovery.start c₁ root)) :=
        hunloaded.tail ⟨0, by simp [LoadTask.step, start, hfault, ofDiscovery, Discovery.start,
          LoadPhase.wave]⟩
      obtain ⟨t, hphase, hroot, hplan, hdiscover⟩ := steps_discover importMap library root honce
      have hlink := steps_link importMap library.fetch (discover importMap library c₁ root).1 hphase
      rw [hroot, hplan] at hlink
      dsimp only
      cases hrun : LoadWalk.run (discover importMap library c₁ root).2 root
          ⟨(discover importMap library c₁ root).1.map, []⟩ with
      | ok _ walk => exact ⟨_, rfl, (hwave.trans hdiscover).trans (hlink.of_ok hrun)⟩
      | error halt walk => exact ⟨_, rfl, (hwave.trans hdiscover).trans (hlink.of_error hrun)⟩

end ModuleGraph.LoadTask
