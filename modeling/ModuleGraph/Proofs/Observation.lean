import ModuleGraph.Proofs.RealmRuns

/-!
# Executors that observe

An executor may keep more in its state than another one and do the same otherwise, such as one that
records what it runs. `Executor.Refines` says this of two executors, for the function that takes the
state of the one to the state of the other. No realm can tell the two apart: calls with the one are
calls with the other, as far as the function can see (`Realm.Call.after_mapHost`).

The statement for walks follows their syntax, by rules for computations on two states
(`Mirrors`).
-/

namespace ModuleGraph

/-! ## Computations on two states -/

section Mirrors

variable {ε σ τ α β : Type}

/-- The end of a computation, with the state that a function makes of its state. -/
def mapEnd (f : σ → τ) : EStateM.Result ε σ α → EStateM.Result ε τ α
  | .ok a s => .ok a (f s)
  | .error e s => .error e (f s)

/-- One computation does on the states that a function makes what another one does on the states
that they are made of. -/
def Mirrors (f : σ → τ) (x : EStateM ε σ α) (y : EStateM ε τ α) : Prop :=
  ∀ s, y (f s) = mapEnd f (x s)

namespace Mirrors

variable {f : σ → τ} {x : EStateM ε σ α} {y : EStateM ε τ α}

/-- Giving an answer is mirrored. -/
theorem pure (a : α) : Mirrors f (pure a : EStateM ε σ α) (pure a) :=
  fun _ => rfl

/-- Giving a fault is mirrored. -/
theorem throw (e : ε) : Mirrors f (throw e : EStateM ε σ α) (throw e) :=
  fun _ => rfl

/-- Setting a state is mirrored. -/
theorem set (s : σ) : Mirrors f (set s : EStateM ε σ PUnit) (set (f s)) :=
  fun _ => rfl

/-- Changes of states are mirrored if the function takes the one to the other. -/
theorem modify {g : σ → σ} {g' : τ → τ} (h : ∀ s, g' (f s) = f (g s)) :
    Mirrors f (modify g : EStateM ε σ PUnit) (modify g') := by
  intro s
  show (EStateM.Result.ok PUnit.unit (g' (f s)) : EStateM.Result ε τ PUnit) = .ok .unit (f (g s))
  rw [h s]

/-- Computations are mirrored if their parts are. -/
theorem bind {g : α → EStateM ε σ β} {g' : α → EStateM ε τ β} (h : Mirrors f x y)
    (hg : ∀ a, Mirrors f (g a) (g' a)) : Mirrors f (x >>= g) (y >>= g') := by
  intro s
  show EStateM.bind y g' (f s) = mapEnd f (EStateM.bind x g s)
  unfold EStateM.bind
  rw [h s]
  cases x s with
  | ok a s' => exact hg a s'
  | error e s' => rfl

/-- Looking at the state is mirrored if what follows is. -/
theorem get_bind {g : σ → EStateM ε σ β} {g' : τ → EStateM ε τ β}
    (h : ∀ s, Mirrors f (g s) (g' (f s))) : Mirrors f (get >>= g) (get >>= g') :=
  fun s => h s s

/-- Throwing away an answer is mirrored. -/
theorem discard (h : Mirrors f x y) : Mirrors f (discard x) (discard y) := by
  intro s
  rw [discard_apply, discard_apply, h s]
  cases x s <;> rfl

/-- Handling a fault is mirrored if the handlers are. -/
theorem tryCatch {handle : ε → EStateM ε σ α} {handle' : ε → EStateM ε τ α} (h : Mirrors f x y)
    (hhandle : ∀ e, Mirrors f (handle e) (handle' e)) :
    Mirrors f (tryCatch x handle) (tryCatch y handle') := by
  intro s
  show EStateM.tryCatch y handle' (f s) = mapEnd f (EStateM.tryCatch x handle s)
  unfold EStateM.tryCatch
  rw [h s]
  cases x s with
  | ok a s' => rfl
  | error e s' => exact hhandle e s'

/-- A loop is mirrored if each of its rounds is. -/
theorem forM {g : α → EStateM ε σ PUnit} {g' : α → EStateM ε τ PUnit}
    (h : ∀ a, Mirrors f (g a) (g' a)) (as : List α) : Mirrors f (as.forM g) (as.forM g') := by
  induction as with
  | nil => exact .pure _
  | cons a as ih => exact .bind (h a) fun _ => ih

/-- A loop with a result is mirrored if each of its rounds is. -/
theorem foldlM {g : β → α → EStateM ε σ β} {g' : β → α → EStateM ε τ β}
    (h : ∀ b a, Mirrors f (g b a) (g' b a)) (as : List α) (b : β) :
    Mirrors f (as.foldlM g b) (as.foldlM g' b) := by
  induction as generalizing b with
  | nil => exact .pure _
  | cons a as ih =>
      rw [List.foldlM_cons, List.foldlM_cons]
      exact .bind (h b a) fun b' => ih b'

end Mirrors

end Mirrors

variable {σ τ : Type} {f : σ → τ}

/-- One executor does what another one does, and besides only what a function cannot see. -/
def Executor.Refines (f : σ → τ) (execute : Executor σ) (execute' : Executor τ) : Prop :=
  ∀ x s, execute' x (f s) = ((execute x s).1, f (execute x s).2)

/-! ## Walks -/

/-- The evaluator with the state that a function makes of its host's. -/
abbrev Evaluator.mapHost (f : σ → τ) (e : Evaluator σ) : Evaluator τ :=
  ⟨e.map, e.stack, e.ran, f e.host⟩

namespace EvalM

variable {execute : Executor σ} {execute' : Executor τ}

/-- Committing a step does not depend on the host. -/
theorem mirrors_commit (step : ModuleMap → Except Violation ModuleMap) :
    Mirrors (Evaluator.mapHost f) (commit step) (commit step) := by
  refine .get_bind fun e => ?_
  dsimp only
  cases step e.map with
  | ok map => exact .modify fun _ => rfl
  | error violation => exact .throw _

/-- Running a body is mirrored by an executor that refines. -/
theorem mirrors_runBody (h : execute.Refines f execute') (entry : Entry) :
    Mirrors (Evaluator.mapHost f) (runBody execute entry) (runBody execute' entry) := by
  unfold runBody
  split
  · next inst body _ _ =>
      refine .get_bind fun e => ?_
      have hbody := h ⟨entry.key, inst, body, e.map⟩ e.host
      simp only [hbody]
      refine .bind (.set _) fun _ => ?_
      cases (execute ⟨entry.key, inst, body, e.map⟩ e.host).1 with
      | ok _ => exact .pure _
      | error fault => exact .throw _
  · exact .throw _

/-- Finishing a cycle does not depend on the host. -/
theorem mirrors_finish (position : Nat) :
    Mirrors (Evaluator.mapHost f) (finish position) (finish position) :=
  .get_bind fun _ => .bind (.modify fun _ => rfl) fun _ =>
    .forM (fun member => mirrors_commit (·.markEvaluated member)) _

/-- Giving up a walk does not depend on the host. -/
theorem mirrors_abandon (fault : EvalFault) :
    Mirrors (Evaluator.mapHost f) (abandon fault) (abandon fault) := by
  refine .get_bind fun _ => .forM (fun member => .get_bind fun e => ?_) _
  show Mirrors _ _ (if e.map.status? member = some .instantiated then _ else _)
  split
  · exact mirrors_commit (·.markFailed member (.eval fault))
  · exact .pure _

/-- A visit is mirrored by an executor that refines. -/
theorem mirrors_visit (h : execute.Refines f execute') (depth : Nat) (key : ModuleKey) :
    Mirrors (Evaluator.mapHost f) (visit execute depth key) (visit execute' depth key) := by
  induction depth generalizing key with
  | zero => exact .pure _
  | succ n ih =>
      unfold visit
      refine .get_bind fun e => ?_
      dsimp only
      split
      · exact .throw _
      · next entry _ =>
          split
          · exact .pure _
          · split
            · exact .pure _
            · refine .bind (.set { e with stack := e.stack ++ [key] }) fun _ => ?_
              refine .bind (.foldlM (fun low dependency => ?_) _ _) fun low => ?_
              · exact .bind (ih dependency) fun _ => .pure _
              · refine .bind (mirrors_runBody h entry) fun _ => ?_
                by_cases hlow : low = e.stack.length
                · rw [if_pos hlow, if_pos hlow]
                  exact .bind (mirrors_finish _) fun _ => .pure _
                · rw [if_neg hlow, if_neg hlow]
                  exact .pure _
          · exact .throw _

/-- A walk is mirrored by an executor that refines. -/
theorem mirrors_run (h : execute.Refines f execute') (key : ModuleKey) :
    Mirrors (Evaluator.mapHost f) (run execute key) (run execute' key) := by
  unfold run
  refine .tryCatch (.get_bind fun e => .discard (mirrors_visit h _ key)) fun halt => ?_
  cases halt with
  | fault fault => exact .bind (mirrors_abandon fault) fun _ => .throw _
  | violation violation => exact .throw _

end EvalM

/-! ## Calls -/

/-- The host with another executor. -/
def Host.withExecutor (h : Host σ) (execute : Executor τ) : Host τ :=
  ⟨h.base, h.importMap, h.library, execute⟩

namespace Realm

/-- The realm with the state that a function makes of its host's. -/
def mapHost (f : σ → τ) (r : Realm σ) : Realm τ :=
  ⟨r.catalog, r.rounds, r.ran, f r.host⟩

variable {h : Host σ} {execute' : Executor τ}

/-- Resolving a specifier does not depend on the executor. -/
theorem mirrors_resolve (specifier : String) :
    Mirrors (mapHost f) (resolve h specifier) (resolve (h.withExecutor execute') specifier) := by
  intro r
  simp only [resolve, Host.withExecutor]
  cases resolveUrl h.importMap specifier h.base <;> rfl

/-- A load does not depend on the executor. -/
theorem mirrors_loadKey (key : ModuleKey) :
    Mirrors (mapHost f) (loadKey h key) (loadKey (h.withExecutor execute') key) := by
  intro r
  simp only [loadKey, Host.withExecutor, mapHost]
  cases Catalog.load h.importMap h.library key r.catalog <;> rfl

/-- Instantiation does not depend on the executor. -/
theorem mirrors_instantiate (key : ModuleKey) :
    Mirrors (mapHost f) (instantiate key) (instantiate key) := by
  intro r
  simp only [instantiate, mapHost, map]
  cases ModuleMap.instantiate r.rounds key r.catalog.map <;> rfl

/-- Evaluation is mirrored by an executor that refines. -/
theorem mirrors_evaluate (hexecute : h.execute.Refines f execute') (key : ModuleKey) :
    Mirrors (mapHost f) (evaluate h key) (evaluate (h.withExecutor execute') key) := by
  intro r
  have hrun := EvalM.mirrors_run hexecute key ⟨r.map, [], r.ran, r.host⟩
  have hstart : (⟨(r.mapHost f).map, [], (r.mapHost f).ran, (r.mapHost f).host⟩ : Evaluator τ) =
      Evaluator.mapHost f ⟨r.map, [], r.ran, r.host⟩ := rfl
  simp only [evaluate, Host.withExecutor]
  rw [hstart, hrun]
  cases EvalM.run h.execute key ⟨r.map, [], r.ran, r.host⟩ <;> rfl

/-- An import is mirrored by an executor that refines. -/
theorem mirrors_importKey (hexecute : h.execute.Refines f execute') (key : ModuleKey) :
    Mirrors (mapHost f) (importKey h key) (importKey (h.withExecutor execute') key) :=
  .bind (mirrors_loadKey key) fun _ => .bind (mirrors_instantiate key) fun _ =>
    .bind (mirrors_evaluate hexecute key) fun _ => .pure _

/-- Every call is mirrored by an executor that refines. -/
theorem Call.mirrors_run (hexecute : h.execute.Refines f execute') (call : Call) :
    Mirrors (mapHost f) (call.run h) (call.run (h.withExecutor execute')) := by
  cases call with
  | load specifier =>
      exact .discard (.bind (mirrors_resolve specifier) fun key =>
        .bind (mirrors_loadKey key) fun _ => .pure _)
  | loadKey key => exact mirrors_loadKey key
  | importSpecifier specifier =>
      exact .discard (.bind (mirrors_resolve specifier) fun key => mirrors_importKey hexecute key)
  | importKey key => exact .discard (mirrors_importKey hexecute key)
  | instantiate key => exact .discard (mirrors_instantiate key)
  | evaluate key => exact mirrors_evaluate hexecute key

/-- A call with an executor leads where a call with an executor leads that it refines. -/
theorem Call.after_mapHost (hexecute : h.execute.Refines f execute') (call : Call) (r : Realm σ) :
    (call.after h r).mapHost f = call.after (h.withExecutor execute') (r.mapHost f) := by
  have hrun := Call.mirrors_run hexecute call r
  unfold after
  rw [hrun]
  cases call.run h r <;> rfl

end Realm

end ModuleGraph
