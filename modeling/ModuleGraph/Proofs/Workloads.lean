import ModuleGraph.Proofs.LoadProgress
import ModuleGraph.Proofs.RealmEvaluation

/-!
# Realms with many loads

Any number of loads can be under way in a realm, while modules are instantiated and evaluated.
`Workload.step` is a step of the realm with its loads: one of them begins or goes on, or a call is
made. `Workload.Reached` says to which states such steps lead, in whatever order they are taken. A
call that loads a module is among them: it is a load whose steps nobody interrupts
(`Workload.Inv.exists_run_loadKey`).

`Workload.Reached.loads_settle` is the main statement: a load finds in its plan whatever it has to
link, and whether it succeeds depends on the import graph only. It ends after finitely many steps of
its own, unless there is no end to the modules that it leads to.
-/

namespace ModuleGraph

/-- What can happen next: a load begins, one that is under way goes on, or a call is made. -/
inductive Move (σ : Type) where
  | begin (root : ModuleKey)
  | advance (position choice : Nat)
  | instantiate (key : ModuleKey)
  | evaluate (execute : Executor σ) (key : ModuleKey)

/-- Whether the move is a step of the load at a position. -/
def Move.advances {σ : Type} (position : Nat) : Move σ → Bool
  | .advance other _ => other == position
  | _ => false

/-- A realm with its loads, those that have ended among them. -/
structure Workload (σ : Type) where
  realm : Realm σ
  loads : List LoadTask

namespace Workload

variable {σ : Type}

/-- A realm in which no load has begun. -/
def fresh (host : σ) : Workload σ :=
  ⟨Realm.fresh host, []⟩

/-- A step of the load at a position, if there is one. -/
def advance (h : Host σ) (fetch : Fetcher) (position choice : Nat) (w : Workload σ) : Workload σ :=
  match w.loads[position]? with
  | none => w
  | some t =>
    let next := t.step h.importMap fetch choice w.realm.catalog
    ⟨{ w.realm with catalog := next.1 }, w.loads.set position next.2⟩

/-- What a move does. All answers are those of `fetch`; the library of the host is not asked. -/
def step (h : Host σ) (fetch : Fetcher) (w : Workload σ) : Move σ → Workload σ
  | .begin root => ⟨w.realm.withMap (w.realm.map.register root), w.loads ++ [.start root]⟩
  | .advance position choice => w.advance h fetch position choice
  | .instantiate key => { w with realm := (Realm.Call.instantiate key).after h w.realm }
  | .evaluate execute key =>
    { w with realm := (Realm.Call.evaluate key).after { h with execute } w.realm }

/-- Makes several moves. -/
def run (h : Host σ) (fetch : Fetcher) (w : Workload σ) (moves : List (Move σ)) : Workload σ :=
  moves.foldl (step h fetch) w

/-- The states that moves lead to. -/
inductive Reached (h : Host σ) (fetch : Fetcher) : Workload σ → Prop
  | fresh (host : σ) : Reached h fetch (Workload.fresh host)
  | move {w : Workload σ} (m : Move σ) : Reached h fetch w → Reached h fetch (w.step h fetch m)

/-- What holds of a realm with its loads at any time. -/
structure Inv (h : Host σ) (fetch : Fetcher) (w : Workload σ) : Prop where
  sound : w.realm.catalog.Sound h.importMap
  answered : w.realm.catalog.AnsweredBy fetch
  loads : ∀ t ∈ w.loads, t.Inv h.importMap fetch w.realm.catalog

variable {h : Host σ} {fetch : Fetcher} {w w' : Workload σ}

/-! ## What moves keep -/

/-- A call does the loads no harm. -/
theorem Inv.call {r : Realm σ} (hw : w.Inv h fetch) (hsound : r.catalog.Sound h.importMap)
    (hloses : Realm.LosesNothing w.realm r) : Inv h fetch { w with realm := r } := by
  obtain ⟨hanswers, hlasts⟩ := hloses
  have hsame : ∀ url, r.catalog.answer? url = w.realm.catalog.answer? url := by
    intro url
    rw [Catalog.answer?, hanswers, Catalog.answer?]
  refine ⟨hsound, fun url answer hanswer => ?_, fun t ht => (hw.loads t ht).later ⟨?_, hlasts⟩⟩
  · exact hw.answered url answer (hsame url ▸ hanswer)
  · exact fun url answer hanswer => (hsame url).trans hanswer

/-- A step of one load does the others no harm. -/
theorem Inv.advance (hw : w.Inv h fetch) (position choice : Nat) :
    (w.advance h fetch position choice).Inv h fetch := by
  unfold Workload.advance
  split
  · exact hw
  · next t hload =>
      have ht := hw.loads t (List.mem_of_getElem? hload)
      have hgoes := ht.step hw.sound hw.answered choice
      refine ⟨hgoes.sound, hgoes.answered, fun other hother => ?_⟩
      rcases List.mem_or_eq_of_mem_set hother with hother | rfl
      · exact (hw.loads other hother).later hgoes.later
      · exact hgoes.inv

/-- A load may begin at any time. -/
theorem Inv.begin (hw : w.Inv h fetch) (root : ModuleKey) :
    (w.step h fetch (.begin root)).Inv h fetch := by
  have hgathers := Catalog.gathers_register h.library w.realm.catalog root
  have hlater := hw.sound.later_loads hgathers.loads
  refine ⟨hw.sound.gathers hgathers, hw.answered, fun t ht => ?_⟩
  rcases List.mem_append.1 ht with ht | ht
  · exact (hw.loads t ht).later hlater
  · obtain rfl := List.mem_singleton.1 ht
    exact LoadTask.inv_start root

/-- Every move keeps the invariant. -/
theorem Inv.step (hw : w.Inv h fetch) (m : Move σ) : (w.step h fetch m).Inv h fetch := by
  cases m with
  | begin root => exact hw.begin root
  | advance position choice => exact hw.advance position choice
  | instantiate key =>
      have hloses : Ends ((Realm.Call.instantiate key).run h) w.realm
          (fun _ => Realm.LosesNothing w.realm) fun _ => Realm.LosesNothing w.realm :=
        ends_discard.2 (Realm.ends_instantiate_loses w.realm key)
      exact hw.call (Realm.kept_after _ hw.sound).sound (Realm.Call.after_of_ends hloses)
  | evaluate execute key =>
      have hloses := Realm.ends_evaluate_loses (h := { h with execute }) key hw.sound
      exact hw.call (Realm.kept_after (h := { h with execute }) _ hw.sound).sound
        (Realm.Call.after_of_ends hloses)

/-- The invariant holds in every state that moves lead to. -/
theorem Reached.inv (hw : Reached h fetch w) : w.Inv h fetch := by
  induction hw with
  | fresh host => exact ⟨.empty, Realm.answeredBy_fresh host fetch, by simp [Workload.fresh]⟩
  | move m _ ih => exact ih.step m

/-- Moves lead on from a state that moves lead to. -/
theorem Reached.run (hw : Reached h fetch w) (moves : List (Move σ)) :
    Reached h fetch (w.run h fetch moves) := by
  induction moves generalizing w with
  | nil => exact hw
  | cons m moves ih => exact ih (hw.move m)

/-! ## Loads come to an end -/

/-- A step of a load leads it on. -/
theorem getElem?_advance {t : LoadTask} {position : Nat} (ht : w.loads[position]? = some t)
    (choice : Nat) : (w.advance h fetch position choice).loads[position]? =
      some (t.step h.importMap fetch choice w.realm.catalog).2 := by
  unfold Workload.advance
  rw [ht]
  exact List.getElem?_set_self (List.getElem?_eq_some_iff.1 ht).1

/-- A step of one load leaves the others where they are. -/
theorem getElem?_advance_of_ne {position other : Nat} (hne : other ≠ position) (choice : Nat) :
    (w.advance h fetch other choice).loads[position]? = w.loads[position]? := by
  unfold Workload.advance
  split
  · rfl
  · exact List.getElem?_set_ne hne

variable {t : LoadTask} {position : Nat} {keys : List ModuleKey}

/-- A load keeps its position and its root, and each step of its own leaves less to do. -/
theorem Inv.load_step (hw : w.Inv h fetch) (ht : w.loads[position]? = some t)
    (hkeys : ∀ m, fetch.Reaches h.importMap t.root m → m ∈ keys) (m : Move σ) :
    ∃ t', (w.step h fetch m).loads[position]? = some t' ∧ t'.root = t.root ∧
      t'.work keys.length ≤ t.work keys.length - if m.advances position then 1 else 0 := by
  cases m with
  | begin root =>
      have hlt := (List.getElem?_eq_some_iff.1 ht).1
      exact ⟨t, by rw [Workload.step, List.getElem?_append_left hlt, ht], rfl, Nat.le_refl _⟩
  | advance other choice =>
      -- the step of another load leaves this one as it is
      by_cases hsame : other = position
      · subst hsame
        have hload := hw.loads t (List.mem_of_getElem? ht)
        refine ⟨_, getElem?_advance ht choice, ?_, ?_⟩
        · exact (hload.step hw.sound hw.answered choice).root
        · simpa [Move.advances] using hload.work_step_le hw.sound hw.answered hkeys choice
      · refine ⟨t, (getElem?_advance_of_ne hsame choice).trans ht, rfl, ?_⟩
        simp [Move.advances, hsame]
  | instantiate key => exact ⟨t, ht, rfl, Nat.le_refl _⟩
  | evaluate execute key => exact ⟨t, ht, rfl, Nat.le_refl _⟩

/-- Each of its own steps leaves a load less to do, whatever the others do. -/
theorem Inv.load_run (hw : w.Inv h fetch) (ht : w.loads[position]? = some t)
    (hkeys : ∀ m, fetch.Reaches h.importMap t.root m → m ∈ keys) (moves : List (Move σ)) :
    ∃ t', (w.run h fetch moves).loads[position]? = some t' ∧ t'.root = t.root ∧
      t'.work keys.length ≤ t.work keys.length - moves.countP (Move.advances position) := by
  -- the bound is the same all along, since the root is
  induction moves generalizing w t with
  | nil => exact ⟨t, ht, rfl, Nat.le_refl _⟩
  | cons m moves ih =>
      obtain ⟨t₁, ht₁, hroot₁, hwork₁⟩ := hw.load_step ht hkeys m
      obtain ⟨t₂, ht₂, hroot₂, hwork₂⟩ := ih (hw.step m) ht₁ (hroot₁ ▸ hkeys)
      refine ⟨t₂, ht₂, hroot₂.trans hroot₁, ?_⟩
      rw [List.countP_cons]
      omega

/-! ## A load that nobody interrupts -/

/-- The last of several moves is made behind the others. -/
theorem run_concat (w : Workload σ) (moves : List (Move σ)) (m : Move σ) :
    w.run h fetch (moves ++ [m]) = (w.run h fetch moves).step h fetch m :=
  List.foldl_concat ..

/-- The steps of one load are moves in a row. -/
theorem exists_run_of_steps {s : Catalog × LoadTask} (ht : w.loads[position]? = some t)
    (hsteps : LoadTask.Steps h.importMap fetch (w.realm.catalog, t) s) :
    ∃ moves, w.run h fetch moves = ⟨{ w.realm with catalog := s.1 }, w.loads.set position s.2⟩ := by
  obtain ⟨hlt, hget⟩ := List.getElem?_eq_some_iff.1 ht
  induction hsteps with
  | refl => exact ⟨[], by rw [← hget, List.set_getElem_self]; rfl⟩
  | @tail s _ _ hstep ih =>
      obtain ⟨choice, rfl⟩ := hstep
      obtain ⟨moves, hmoves⟩ := ih
      have hload : (w.loads.set position s.2)[position]? = some s.2 := List.getElem?_set_self hlt
      refine ⟨moves ++ [.advance position choice], ?_⟩
      rw [run_concat, hmoves, Workload.step, Workload.advance, hload]
      simp only [List.set_set]

/-- A call that loads a module is a load whose steps nobody interrupts. -/
theorem Inv.exists_run_loadKey (hw : w.Inv h h.library.fetch) (key : ModuleKey) :
    ∃ moves, (w.run h h.library.fetch moves).realm = (Realm.Call.loadKey key).after h w.realm := by
  have hbegin : (w.step h h.library.fetch (.begin key)).loads[w.loads.length]? =
      some (.start key) := by
    rw [Workload.step, List.getElem?_concat_length]
  have hmoves : ∀ c t, LoadTask.Steps h.importMap h.library.fetch
      ((w.step h h.library.fetch (.begin key)).realm.catalog, .start key) (c, t) →
      ∃ moves, (w.run h h.library.fetch moves).realm = { w.realm with catalog := c } := by
    intro c t hsteps
    obtain ⟨moves, hmoves⟩ := exists_run_of_steps hbegin hsteps
    exact ⟨.begin key :: moves, congrArg Workload.realm hmoves⟩
  have hcall : Ends ((Realm.Call.loadKey key).run h) w.realm
      (fun _ r' => ∃ moves, (w.run h h.library.fetch moves).realm = r')
      fun _ r' => ∃ moves, (w.run h h.library.fetch moves).realm = r' := by
    have hload := LoadTask.steps_load h.importMap h.library key hw.sound.once
    refine (Realm.ends_loadKey_of hload).mono ?_ ?_
    · rintro _ _ ⟨c, ⟨t, -, hsteps⟩, rfl⟩
      exact hmoves c t hsteps
    · rintro _ _ ⟨_, c, ⟨t, -, hsteps⟩, -, rfl⟩
      exact hmoves c t hsteps
  exact Realm.Call.after_of_ends hcall

/-! ## How loads end -/

/-- Whether a load succeeds depends on the import graph only. -/
theorem Inv.outcome_iff (hw : w.Inv h fetch) (ht : t ∈ w.loads)
    {outcome : Except (Halt LoadFault) Unit} (hphase : t.phase = .ended outcome) :
    outcome = .ok () ↔
      ∀ m, fetch.Reaches h.importMap t.root m → ¬ fetch.Faulty h.importMap m := by
  have hstands := (hw.loads t ht).stands
  have hloads := hw.sound.loads fetch hw.answered
  simp only [LoadTask.Stands, hphase] at hstands
  cases outcome with
  | ok _ => exact iff_of_true rfl fun m hm => hloads.not_faulty_of_reaches hstands hm
  | error halt =>
      obtain ⟨fault, rfl, hfailure⟩ := hstands
      obtain ⟨-, hfaulty, hreaches, -⟩ := hloads.failed t.root fault hfailure
      exact iff_of_false (by simp) fun hnone => hnone fault.key hreaches hfaulty

/-- No module has failed for not having been discovered. -/
theorem Inv.ne_notDiscovered (hw : w.Inv h fetch) {key : ModuleKey} {fault : LoadFault}
    (hfailure : (w.realm.map.entry key).failure = some (.load fault))
    (specifier referrer : String) :
    fault.cause ≠ .resolve (.unbound specifier referrer .notDiscovered) :=
  ((hw.sound.loads fetch hw.answered).raised key fault hfailure).2.1.ne_notDiscovered
    specifier referrer

/-- A load that does not succeed reports the fault with which its module has failed. -/
theorem Inv.failure_of_ended (hw : w.Inv h fetch) (ht : t ∈ w.loads) {halt : Halt LoadFault}
    (hphase : t.phase = .ended (.error halt)) : ∃ fault e, halt = .fault fault ∧
      w.realm.map.get? t.root = some e ∧ e.failure = some (.load fault) := by
  have hstands := (hw.loads t ht).stands
  simp only [LoadTask.Stands, hphase] at hstands
  obtain ⟨fault, rfl, hfailure⟩ := hstands
  have hknown : w.realm.map.IsKnown t.root := by
    refine ModuleMap.isKnown_of_status_ne fun hregistered => ?_
    have hfailed := Entry.status_eq_failed_iff.2 (Option.isSome_of_eq_some hfailure)
    exact Status.noConfusion (hregistered.symm.trans hfailed)
  exact ⟨fault, _, rfl, ModuleMap.get?_eq_some_entry hknown, hfailure⟩

/-- However the steps of loads and calls follow each other, a load that comes to link has planned
all that it will meet and that is not settled, so that no module ever fails for not having been
discovered. Neither a load nor a call tries a step that a module cannot take. A load that ends has
succeeded if and only if it leads to no faulty module, which is just when it would have succeeded by
itself, and it does end after finitely many steps of its own if it leads to finitely many
modules. -/
theorem Reached.loads_settle (hw : Reached h fetch w) :
    (∀ t ∈ w.loads, t.phase = .linking →
      t.plan.Complete h.importMap w.realm.catalog t.root) ∧
    (∀ key e fault, w.realm.map.get? key = some e → e.failure = some (.load fault) →
      ∀ specifier referrer,
        fault.cause ≠ .resolve (.unbound specifier referrer .notDiscovered)) ∧
    (∀ t ∈ w.loads, ∀ halt, t.phase = .ended (.error halt) → ∃ fault e, halt = .fault fault ∧
      w.realm.map.get? t.root = some e ∧ e.failure = some (.load fault)) ∧
    (∀ (execute : Executor σ) (call : Realm.Call) violation r',
      call.run { h with execute } w.realm ≠ .error (.violation violation) r') ∧
    (∀ t ∈ w.loads, ∀ outcome, t.phase = .ended outcome →
      (outcome = .ok () ↔
        ∀ m, fetch.Reaches h.importMap t.root m → ¬ fetch.Faulty h.importMap m) ∧
      ∀ library : Library, library.fetch = fetch → (outcome = .ok () ↔
        ∃ c, Catalog.load h.importMap library t.root Catalog.empty = .ok () c)) ∧
    ∀ position t, w.loads[position]? = some t →
      ∀ keys : List ModuleKey, (∀ m, fetch.Reaches h.importMap t.root m → m ∈ keys) →
        ∃ n, ∀ moves : List (Move σ), n ≤ moves.countP (Move.advances position) →
          ∃ t' outcome, (w.run h fetch moves).loads[position]? = some t' ∧ t'.root = t.root ∧
            t'.phase = .ended outcome := by
  have hinv := hw.inv
  refine ⟨fun t ht => (hinv.loads t ht).complete, ?_, fun t ht _ => hinv.failure_of_ended ht,
    ?_, ?_, ?_⟩
  · intro key e fault he hfailure
    rw [← ModuleMap.entry_of_get? he] at hfailure
    exact hinv.ne_notDiscovered hfailure
  · intro execute call violation r' hresult
    have hrun := Realm.keeps_run (h := { h with execute }) call w.realm hinv.sound
    obtain ⟨⟨fault, hfault⟩, -⟩ := hrun.of_error hresult
    cases hfault
  · intro t ht outcome hphase
    refine ⟨hinv.outcome_iff ht hphase, ?_⟩
    rintro library rfl
    -- alone, a load begins with an empty catalog; the outcome depends on the graph only
    have hempty : Catalog.empty.Sound h.importMap := .empty
    have halone := hempty.load_iff (Realm.answeredBy_fresh () library.fetch) t.root
    exact (hinv.outcome_iff ht hphase).trans halone.symm
  · intro position t ht keys hkeys
    -- with as many steps as it has work, nothing is left to do
    refine ⟨t.work keys.length, fun moves hmoves => ?_⟩
    obtain ⟨t', ht', hroot, hwork⟩ := hinv.load_run ht hkeys moves
    have hdone : t'.work keys.length = 0 := by omega
    obtain ⟨outcome, hended⟩ := LoadTask.ended_of_work_eq_zero hdone
    exact ⟨t', outcome, ht', hroot, hended⟩

/-! ## Overlapping import cycles -/

/-- A host with two texts that import each other, and a third one that imports one of them and a
text that is not there. -/
def overlappingHost : Host Unit :=
  ⟨(Realm.fileKey "a.js").url, ImportMap.empty,
    .ofSources [((Realm.fileKey "a.js").url, "import './b.js';"),
      ((Realm.fileKey "b.js").url, "import './a.js';"),
      ((Realm.fileKey "c.js").url, "import './b.js'; import './gone.js';")],
    fun _ host => (.ok (), host)⟩

/-- Three loads begin. When the first one has made its plan, the others go on in turn until they
have ended, and what they have loaded is instantiated and evaluated. -/
def overlappingMoves : List (Move Unit) :=
  [.begin (Realm.fileKey "a.js"), .begin (Realm.fileKey "b.js"), .begin (Realm.fileKey "c.js")] ++
    List.replicate 10 (.advance 0 0) ++
    (List.replicate 20 [.advance 1 0, .advance 2 1]).flatten ++
    [.instantiate (Realm.fileKey "b.js"),
      .evaluate overlappingHost.execute (Realm.fileKey "b.js")]

/-- The realm after these moves, with one load that has still to link. -/
def overlappingWorkload : Workload Unit :=
  (fresh ()).run overlappingHost overlappingHost.library.fetch overlappingMoves

/-- The state is reached by these moves. -/
theorem reached_overlappingWorkload :
    Reached overlappingHost overlappingHost.library.fetch overlappingWorkload :=
  (Reached.fresh ()).run overlappingMoves

/-- The first load has planned all it needs and ends when it goes on, the second has ended well and
the third with a fault. -/
theorem loads_settle_overlapping :
    Reached overlappingHost overlappingHost.library.fetch overlappingWorkload ∧
      ∃ t₀ t₁ t₂ fault, overlappingWorkload.loads = [t₀, t₁, t₂] ∧
        (t₀.phase = .linking ∧
          t₀.plan.Complete ImportMap.empty overlappingWorkload.realm.catalog t₀.root ∧
          ∃ n, ∀ moves : List (Move Unit), n ≤ moves.countP (Move.advances 0) →
            ∃ t' outcome, (overlappingWorkload.run overlappingHost overlappingHost.library.fetch
              moves).loads[0]? = some t' ∧ t'.root = t₀.root ∧ t'.phase = .ended outcome) ∧
        (t₁.phase = .ended (.ok ()) ∧
          ∀ m, Fetcher.Reaches ImportMap.empty overlappingHost.library.fetch t₁.root m →
            ¬ Fetcher.Faulty ImportMap.empty overlappingHost.library.fetch m) ∧
        t₂.phase = .ended (.error (.fault fault)) ∧
          ¬ ∃ c, Catalog.load ImportMap.empty overlappingHost.library t₂.root Catalog.empty =
            .ok () c := by
  obtain ⟨hcomplete, -, -, -, houtcome, hends⟩ := reached_overlappingWorkload.loads_settle
  have hphases : overlappingWorkload.loads.map LoadTask.phase =
      [.linking, .ended (.ok ()), .ended (.error (.fault
        ⟨Realm.fileKey "gone.js", .resource (.fetch (.notFound "file:/gone.js"))⟩))] := by
    decide +kernel
  obtain ⟨t₀, _, hloads, hphase₀, hphases⟩ := List.map_eq_cons_iff.1 hphases
  obtain ⟨t₁, _, rfl, hphase₁, hphases⟩ := List.map_eq_cons_iff.1 hphases
  obtain ⟨t₂, rfl, hphase₂⟩ := List.map_eq_singleton_iff.1 hphases
  rw [hloads] at hcomplete houtcome
  obtain ⟨keys, hkeys⟩ :=
    Catalog.exists_reached ImportMap.empty overlappingHost.library t₀.root
  refine ⟨reached_overlappingWorkload, t₀, t₁, t₂, _, hloads, ?_, ?_, hphase₂, ?_⟩
  · exact ⟨hphase₀, hcomplete t₀ (by simp) hphase₀, hends 0 t₀ (by rw [hloads]; rfl) keys hkeys⟩
  · exact ⟨hphase₁, (houtcome t₁ (by simp) _ hphase₁).1.1 rfl⟩
  · have halone := (houtcome t₂ (by simp) _ hphase₂).2 overlappingHost.library rfl
    exact fun hloaded => absurd (halone.2 hloaded) (by simp)

end Workload

end ModuleGraph
