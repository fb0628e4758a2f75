import Mathlib.Data.List.Basic

/-!
# How computations end

`Ends x s ok error` describes the end of a stateful computation that may fail: the answer and state
that satisfy `ok`, or the fault and state that satisfy `error`. The rules follow the syntax of a
computation. `ends_forM` and `ends_foldlM` take an invariant that speaks of what has been done and
of what is left to do.
-/

namespace ModuleGraph

variable {ε σ α β : Type}

/-- Started in `s`, the computation ends as `ok` or `error` says. -/
def Ends (x : EStateM ε σ α) (s : σ) (ok : α → σ → Prop) (error : ε → σ → Prop) : Prop :=
  match x s with
  | .ok a s' => ok a s'
  | .error e s' => error e s'

variable {x : EStateM ε σ α} {s : σ} {ok ok' : α → σ → Prop} {error error' : ε → σ → Prop}

/-- What is known of an end may be weakened. -/
theorem Ends.mono (h : Ends x s ok error) (hok : ∀ a s', ok a s' → ok' a s')
    (herror : ∀ e s', error e s' → error' e s') : Ends x s ok' error' := by
  unfold Ends at h ⊢
  split
  · next hx => exact hok _ _ (by simpa only [hx] using h)
  · next hx => exact herror _ _ (by simpa only [hx] using h)

/-- What is known of the state may be weakened, whatever the end. -/
theorem Ends.imp {property property' : σ → Prop}
    (h : Ends x s (fun _ => property) fun _ => property)
    (hstate : ∀ s', property s' → property' s') :
    Ends x s (fun _ => property') fun _ => property' :=
  h.mono (fun _ => hstate) fun _ => hstate

/-- Two descriptions of an end hold together. -/
theorem Ends.and (h : Ends x s ok error) (h' : Ends x s ok' error') :
    Ends x s (fun a s' => ok a s' ∧ ok' a s') fun e s' => error e s' ∧ error' e s' := by
  unfold Ends at h h' ⊢
  cases hx : x s with
  | ok a s' =>
      rw [hx] at h h'
      exact ⟨h, h'⟩
  | error e s' =>
      rw [hx] at h h'
      exact ⟨h, h'⟩

/-- An answer has the property of answers. -/
theorem Ends.of_ok (h : Ends x s ok error) {a : α} {s' : σ} (hx : x s = .ok a s') : ok a s' := by
  simpa only [Ends, hx] using h

/-- A fault has the property of faults. -/
theorem Ends.of_error (h : Ends x s ok error) {e : ε} {s' : σ} (hx : x s = .error e s') :
    error e s' := by
  simpa only [Ends, hx] using h

/-- An answer ends a computation in the state that it has. -/
@[simp] theorem ends_pure {a : α} : Ends (pure a) s ok error ↔ ok a s :=
  Iff.rfl

/-- A fault ends a computation in the state that it has. -/
@[simp] theorem ends_throw {e : ε} : Ends (throw e) s ok error ↔ error e s :=
  Iff.rfl

/-- Looking at the state answers with it. -/
@[simp] theorem ends_get {ok : σ → σ → Prop} : Ends get s ok error ↔ ok s s :=
  Iff.rfl

/-- Setting the state ends in the new one. -/
@[simp] theorem ends_set {s' : σ} {ok : PUnit → σ → Prop} :
    Ends (set s') s ok error ↔ ok ⟨⟩ s' :=
  Iff.rfl

/-- Changing the state ends in what it has become. -/
@[simp] theorem ends_modify {f : σ → σ} {ok : PUnit → σ → Prop} :
    Ends (modify f) s ok error ↔ ok ⟨⟩ (f s) :=
  Iff.rfl

/-- A computation of two parts ends as the second one does behind the first, or with a fault of the
first. -/
@[simp] theorem ends_bind {f : α → EStateM ε σ β} {ok : β → σ → Prop} :
    Ends (x >>= f) s ok error ↔ Ends x s (fun a s' => Ends (f a) s' ok error) error := by
  simp only [Ends, bind, EStateM.bind]
  cases x s <;> rfl

/-- A computation ends the same way when its answer is thrown away. -/
@[simp] theorem ends_discard {ok : PUnit → σ → Prop} :
    Ends (discard x) s ok error ↔ Ends x s (fun _ s' => ok ⟨⟩ s') error := by
  simp only [Ends, discard, Functor.discard, Functor.mapConst, Function.comp, EStateM.map]
  cases x s <;> rfl

/-- What does not depend on the answer holds without it. -/
theorem Ends.discard {property : σ → Prop} (h : Ends x s (fun _ => property) error) :
    Ends (discard x) s (fun _ => property) error :=
  ends_discard.2 h

/-- A discarded answer leaves the state as it is. -/
theorem discard_apply : discard x s =
    match x s with
    | .ok _ s' => .ok ⟨⟩ s'
    | .error e s' => .error e s' := by
  simp only [discard, Functor.discard, Functor.mapConst, Function.comp, EStateM.map]
  cases x s <;> rfl

/-- A computation with a handler ends with its answer, or as the handler of its fault does. -/
@[simp] theorem ends_tryCatch {handle : ε → EStateM ε σ α} :
    Ends (tryCatch x handle) s ok error ↔ Ends x s ok fun e s' => Ends (handle e) s' ok error := by
  simp only [Ends, tryCatch, tryCatchThe, MonadExceptOf.tryCatch, EStateM.tryCatch]
  cases x s <;> rfl

/-- The rule of loops without an answer. -/
theorem ends_forM {f : α → EStateM ε σ PUnit} (invariant : List α → List α → σ → Prop)
    (error : ε → σ → Prop)
    (hstep : ∀ done a rest s, invariant done (a :: rest) s →
      Ends (f a) s (fun _ s' => invariant (done ++ [a]) rest s') error) (as : List α)
    (h : invariant [] as s) : Ends (as.forM f) s (fun _ s' => invariant as [] s') error := by
  suffices hrest : ∀ rest done s, invariant done rest s →
      Ends (rest.forM f) s (fun _ s' => invariant (done ++ rest) [] s') error by
    simpa using hrest as [] s h
  intro rest
  induction rest with
  | nil =>
      intro done s h
      show invariant (done ++ []) [] s
      simpa using h
  | cons a rest ih =>
      intro done s h
      show Ends (f a >>= fun _ => rest.forM f) s _ _
      rw [ends_bind]
      refine (hstep done a rest s h).mono (fun _ s' h' => ?_) fun _ _ h' => h'
      simpa using ih (done ++ [a]) s' h'

/-- The rule of loops that carry an answer along. -/
theorem ends_foldlM {f : β → α → EStateM ε σ β} (invariant : List α → List α → β → σ → Prop)
    (error : ε → σ → Prop)
    (hstep : ∀ done a rest b s, invariant done (a :: rest) b s →
      Ends (f b a) s (fun b' s' => invariant (done ++ [a]) rest b' s') error)
    {as : List α} {b : β} (h : invariant [] as b s) :
    Ends (as.foldlM f b) s (fun b' s' => invariant as [] b' s') error := by
  suffices hrest : ∀ rest done b s, invariant done rest b s →
      Ends (rest.foldlM f b) s (fun b' s' => invariant (done ++ rest) [] b' s') error by
    simpa using hrest as [] b s h
  intro rest
  induction rest with
  | nil =>
      intro done b s h
      simpa using h
  | cons a rest ih =>
      intro done b s h
      rw [List.foldlM_cons, ends_bind]
      refine (hstep done a rest b s h).mono (fun b' s' h' => ?_) fun _ _ h' => h'
      simpa using ih (done ++ [a]) b' s' h'

/-- The rule of loops that collect answers. -/
theorem ends_mapM {f : α → EStateM ε σ β} (invariant : List α → List β → List α → σ → Prop)
    (error : ε → σ → Prop)
    (hstep : ∀ done bs a rest s, invariant done bs (a :: rest) s →
      Ends (f a) s (fun b s' => invariant (done ++ [a]) (bs ++ [b]) rest s') error)
    {as : List α} (h : invariant [] [] as s) :
    Ends (as.mapM f) s (fun bs s' => invariant as bs [] s') error := by
  suffices hrest : ∀ rest done bs s, invariant done bs rest s →
      Ends (rest.mapM f) s (fun bs' s' => invariant (done ++ rest) (bs ++ bs') [] s') error by
    simpa using hrest as [] [] s h
  intro rest
  induction rest with
  | nil =>
      intro done bs s h
      simpa using h
  | cons a rest ih =>
      intro done bs s h
      rw [List.mapM_cons]
      simp only [ends_bind, ends_pure]
      refine (hstep done bs a rest s h).mono (fun b s' h' => ?_) fun _ _ h' => h'
      refine (ih (done ++ [a]) (bs ++ [b]) s' h').mono (fun bs' s'' h'' => ?_) fun _ _ h'' => h''
      simpa using h''

end ModuleGraph
