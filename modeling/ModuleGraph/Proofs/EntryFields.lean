import Mathlib.Logic.Relation
import ModuleGraph.Proofs.Entries

/-!
# The life of an entry

The status of an entry, its dependencies, its instance and its failure are four fields that the
operations on a module map check and write one after the other. They stay consistent under all
operations in every order, an entry only moves forward, and an operation that panics has written
nothing (`ModuleMap.lifecycle`).
-/

namespace ModuleGraph

/-- The step from one status to the next, or to a failure unless the module has come to an end. -/
inductive Status.Next : Status → Status → Prop where
  | load : Next .registered .loading
  | finish : Next .loading .loaded
  | instantiate : Next .loaded .instantiated
  | evaluate : Next .instantiated .evaluated
  | fail {status : Status} (hfailed : status ≠ .failed) (hevaluated : status ≠ .evaluated) :
      Next status .failed

/-! ## Four fields -/

/-- The fields of an entry that operations check and write. -/
structure Fields where
  status : Status
  dependencies : Option (List ModuleKey)
  inst : Option Instance
  failure : Option ModuleFailure

/-- What the fields of an entry are. -/
def Entry.fields (e : Entry) : Fields :=
  ⟨e.status, e.progress.dependencies?, e.instance?, e.failure⟩

namespace Fields

/-- The fields of a new entry. -/
def fresh : Fields :=
  ⟨.registered, none, none, none⟩

/-- The fields of an entry say the same of its life. -/
structure Consistent (f : Fields) : Prop where
  failed : f.failure.isSome ↔ f.status = .failed
  unloaded : f.status = .registered ∨ f.status = .loading → f.dependencies = none ∧ f.inst = none
  loaded : f.status = .loaded ∨ f.status = .instantiated ∨ f.status = .evaluated →
    f.dependencies.isSome
  linked : f.status = .instantiated ∨ f.status = .evaluated → f.inst.isSome
  unlinked : f.status = .loaded → f.inst = none
  instances : f.inst.isSome → f.dependencies.isSome

/-- The status only moves on, and what has been set once stays. -/
structure Proceeds (f f' : Fields) : Prop where
  status : Relation.ReflTransGen Status.Next f.status f'.status
  dependencies : ∀ ds, f.dependencies = some ds → f'.dependencies = some ds
  inst : ∀ i, f.inst = some i → f'.inst = some i
  failure : ∀ failure, f.failure = some failure → f'.failure = some failure

/-- Moves an entry from one status to the next. -/
def transition (key : ModuleKey) (expected next : Status) : EStateM Violation Fields Unit := do
  let f ← get
  if f.status = expected then set { f with status := next } else throw (.illegalStep key next)

/-- Begins to load a module. -/
def markLoading (key : ModuleKey) : EStateM Violation Fields Unit :=
  transition key .registered .loading

/-- Ends the load of a module with its dependencies. -/
def markLoaded (key : ModuleKey) (dependencies : List ModuleKey) :
    EStateM Violation Fields Unit := do
  transition key .loading .loaded
  modify fun f => { f with dependencies := some dependencies }

/-- Gives a module its instance. -/
def markInstantiated (key : ModuleKey) (inst : Instance) : EStateM Violation Fields Unit := do
  transition key .loaded .instantiated
  modify fun f => { f with inst := some inst }

/-- Ends the evaluation of a module. -/
def markEvaluated (key : ModuleKey) : EStateM Violation Fields Unit :=
  transition key .instantiated .evaluated

/-- Fails a module. Both fields are written, the status first. -/
def markFailed (key : ModuleKey) (failure : ModuleFailure) : EStateM Violation Fields Unit := do
  let f ← get
  if f.status = .failed ∨ f.status = .evaluated then throw (.cannotFail key f.status)
  modify fun f => { f with status := .failed }
  modify fun f => { f with failure := some failure }

end Fields

/-! ## Operations -/

/-- An operation on a module map. The entry of a key that has none is made by a producer, which may
make one for another key. -/
inductive MapOperation where
  | getOrCreate (key produced : ModuleKey)
  | markLoading (key : ModuleKey)
  | markLoaded (key : ModuleKey) (dependencies : List ModuleKey)
  | markInstantiated (key : ModuleKey) (inst : Instance)
  | markEvaluated (key : ModuleKey)
  | markFailed (key : ModuleKey) (failure : ModuleFailure)

/-- Why an operation panics. -/
inductive Panic where
  | violation (violation : Violation)
  | otherKey (key produced : ModuleKey)

/-- The map with an entry for a key, unless the entry that is made for it has another key. -/
def ModuleMap.getOrCreate (map : ModuleMap) (key produced : ModuleKey) :
    Except Panic ModuleMap :=
  if (map.get? key).isSome ∨ produced = key then .ok (map.register key)
  else .error (.otherKey key produced)

/-- What an operation makes of a map. -/
def MapOperation.run (map : ModuleMap) : MapOperation → Except Panic ModuleMap
  | .getOrCreate key produced => map.getOrCreate key produced
  | .markLoading key => (map.markLoading key).mapError .violation
  | .markLoaded key dependencies => (map.markLoaded key dependencies).mapError .violation
  | .markInstantiated key inst => (map.markInstantiated key inst).mapError .violation
  | .markEvaluated key => (map.markEvaluated key).mapError .violation
  | .markFailed key failure => (map.markFailed key failure).mapError .violation

/-- The map behind operations. One that panics is passed over. -/
def ModuleMap.after (map : ModuleMap) (ops : List MapOperation) : ModuleMap :=
  ops.foldl (fun map op => (op.run map).toOption.getD map) map

/-! ## Operations that write fields -/

/-- The entries of a map as their fields. -/
abbrev FieldMap := List (ModuleKey × Fields)

/-- The fields of all entries. -/
def ModuleMap.fields (map : ModuleMap) : FieldMap :=
  map.entries.map fun e => (e.key, e.fields)

namespace FieldMap

/-- Writes the fields of a key. What is written stays, even if the writer panics. -/
def write (key : ModuleKey) (f : EStateM Violation Fields Unit) : EStateM Panic FieldMap Unit :=
  fun map =>
    match map.lookup key with
    | none => .error (.violation (.unknown key)) map
    | some fields =>
      match f fields with
      | .ok _ fields => .ok () (map.map fun p => if p.1 = key then (key, fields) else p)
      | .error violation fields =>
        .error (.violation violation) (map.map fun p => if p.1 = key then (key, fields) else p)

/-- Makes the entry of a key that has none. -/
def getOrCreate (key produced : ModuleKey) : EStateM Panic FieldMap Unit := do
  let map ← get
  if (map.lookup key).isNone then
    if produced = key then set (map ++ [(key, Fields.fresh)]) else throw (.otherKey key produced)

end FieldMap

/-- What an operation writes. -/
def MapOperation.write : MapOperation → EStateM Panic FieldMap Unit
  | .getOrCreate key produced => FieldMap.getOrCreate key produced
  | .markLoading key => FieldMap.write key (Fields.markLoading key)
  | .markLoaded key dependencies => FieldMap.write key (Fields.markLoaded key dependencies)
  | .markInstantiated key inst => FieldMap.write key (Fields.markInstantiated key inst)
  | .markEvaluated key => FieldMap.write key (Fields.markEvaluated key)
  | .markFailed key failure => FieldMap.write key (Fields.markFailed key failure)

/-- The fields of a map behind operations, with what was written by those that panic. -/
def FieldMap.after (fields : FieldMap) (ops : List MapOperation) : FieldMap :=
  ops.foldl (fun fields op =>
    match op.write fields with
    | .ok _ fields | .error _ fields => fields) fields

namespace ModuleMap

variable {map map' map'' : ModuleMap} {key : ModuleKey}

/-- The fields of a key are those of its entry. -/
theorem lookup_fields (map : ModuleMap) (key : ModuleKey) :
    map.fields.lookup key = (map.get? key).map Entry.fields := by
  obtain ⟨entries⟩ := map
  simp only [fields, get?]
  induction entries with
  | nil => rfl
  | cons e entries ih =>
      by_cases h : e.key = key
      · simp [h]
      · have h' : (key == e.key) = false := by simpa using Ne.symm h
        simpa [List.lookup_cons, h, h'] using ih

/-- A step succeeds just if the key has an entry that can take it, and only this entry changes. -/
theorem step_eq_ok_iff {f : Entry → Except Violation Entry} :
    map.step key f = .ok map' ↔
      ∃ e e', map.get? key = some e ∧ f e = .ok e' ∧ map' = map.update key fun _ => e' := by
  unfold step
  cases map.get? key with
  | none => simp
  | some e => cases hf : f e <;> simp [hf, Except.map, eq_comm]

/-- A key has no entry but the one that is found. -/
theorem eq_of_mem (hdistinct : map.Distinct) {e e' : Entry} (he : map.get? key = some e)
    (he' : e' ∈ map.entries) (hkey : e'.key = key) : e' = e := by
  have hfound := (mem_entries_iff hdistinct).1 he'
  rw [hkey, he] at hfound
  exact (Option.some.inj hfound).symm

/-- A writer of fields does to the fields of an entry what a step does to the entry. -/
theorem write_fields (hdistinct : map.Distinct) {f : Entry → Except Violation Entry}
    {g : EStateM Violation Fields Unit}
    (h : ∀ e, e.key = key → g e.fields = match f e with
      | .ok e' => .ok () e'.fields
      | .error violation => .error violation e.fields)
    (hkey : ∀ e e', f e = .ok e' → e'.key = e.key) :
    FieldMap.write key g map.fields = match (map.step key f).mapError Panic.violation with
      | .ok map' => .ok () map'.fields
      | .error panic => .error panic map.fields := by
  unfold FieldMap.write step
  rw [lookup_fields]
  cases hget : map.get? key with
  | none => rfl
  | some e =>
      have hwrite := h e (key_of_get? hget)
      simp only [Option.map_some, hwrite]
      cases hf : f e with
      | ok e' =>
          have hkey' : e'.key = key := (hkey e e' hf).trans (key_of_get? hget)
          refine congrArg (EStateM.Result.ok ()) ?_
          simp only [fields, update, List.map_map]
          refine List.map_congr_left fun x _ => ?_
          by_cases hx : x.key = key <;> simp [hx, hkey']
      | error violation =>
          refine congrArg (EStateM.Result.error _) ?_
          simp only [fields, List.map_map]
          refine List.map_congr_left fun x hmem => ?_
          by_cases hx : x.key = key
          · simp [eq_of_mem hdistinct hget hmem hx, key_of_get? hget]
          · simp [hx]

/-- An entry advances just if it has not failed and its progress allows the step. -/
theorem advance_eq_ok_iff {next : Status} {f : Progress → Option Progress} {e e' : Entry} :
    advance next f e = .ok e' ↔
      e.failure = none ∧ ∃ progress, f e.progress = some progress ∧ e' = { e with progress } := by
  unfold advance
  cases hfailure : e.failure with
  | some failure => simp
  | none => cases hf : f e.progress <;> simp [eq_comm]

/-- An entry that advances keeps its key. -/
theorem key_of_advance {next : Status} {f : Progress → Option Progress} {e e' : Entry}
    (h : advance next f e = .ok e') : e'.key = e.key := by
  obtain ⟨-, progress, -, rfl⟩ := advance_eq_ok_iff.1 h
  rfl

/-- What `markFailed` does to an entry. -/
def failing (failure : ModuleFailure) (e : Entry) : Except Violation Entry :=
  match e.status with
  | .failed | .evaluated => .error (.cannotFail e.key e.status)
  | _ => .ok { e with failure := some failure }

/-- A module fails by a step of its entry. -/
theorem markFailed_eq (map : ModuleMap) (key : ModuleKey) (failure : ModuleFailure) :
    map.markFailed key failure = map.step key (failing failure) := rfl

/-- An entry fails unless it has failed or has been evaluated, and keeps its progress. -/
theorem failing_eq_ok {failure : ModuleFailure} {e e' : Entry} (h : failing failure e = .ok e') :
    e.status ≠ .failed ∧ e.status ≠ .evaluated ∧ e' = { e with failure := some failure } := by
  unfold failing at h
  cases hstatus : e.status <;> rw [hstatus] at h <;> cases h <;> exact ⟨nofun, nofun, rfl⟩

/-- A key without an entry is given fresh fields. -/
theorem fields_register_of_not_isKnown (h : ¬ map.IsKnown key) :
    (map.register key).fields = map.fields ++ [(key, Fields.fresh)] := by
  have hregister : map.register key = ⟨map.entries ++ [Entry.ofKey key]⟩ := if_neg h
  rw [hregister, fields, List.map_append]
  rfl

/-- Making an entry writes the fields that the map then has, or panics as the map does. -/
theorem write_getOrCreate (key produced : ModuleKey) :
    FieldMap.getOrCreate key produced map.fields = match map.getOrCreate key produced with
      | .ok map' => .ok () map'.fields
      | .error panic => .error panic map.fields := by
  have hwrite : FieldMap.getOrCreate key produced map.fields =
      if (map.fields.lookup key).isNone then
        if produced = key then .ok () (map.fields ++ [(key, Fields.fresh)])
        else .error (.otherKey key produced) map.fields
      else .ok () map.fields := by
    show (if (map.fields.lookup key).isNone then
        if produced = key then set (map.fields ++ [(key, Fields.fresh)])
        else throw (.otherKey key produced)
      else pure () : EStateM Panic FieldMap Unit) map.fields = _
    split
    · split <;> rfl
    · rfl
  rw [hwrite, lookup_fields, Option.isNone_map]
  by_cases hknown : map.IsKnown key
  · have hsome : (map.get? key).isSome = true := hknown
    have hnone : ¬ (map.get? key).isNone = true := by simpa [Option.isSome_iff_ne_none] using hsome
    rw [if_neg hnone, getOrCreate, if_pos (Or.inl hsome), register_of_isKnown hknown]
  · have hnone : map.get? key = none := by simpa [IsKnown] using hknown
    rw [if_pos (by simp [hnone]), getOrCreate]
    by_cases hproduced : produced = key
    · rw [if_pos hproduced, if_pos (Or.inr hproduced), ← fields_register_of_not_isKnown hknown]
    · rw [if_neg hproduced, if_neg (by simp [hnone, hproduced])]

/-- An operation writes the fields of what it makes of the map, and nothing if it panics. -/
theorem write_eq (hdistinct : map.Distinct) (op : MapOperation) :
    op.write map.fields = match op.run map with
      | .ok map' => .ok () map'.fields
      | .error panic => .error panic map.fields := by
  cases op with
  | getOrCreate key produced => exact write_getOrCreate key produced
  | markLoading key =>
      refine write_fields hdistinct ?_ fun e e' => key_of_advance
      rintro ⟨key, declaration, progress, failure⟩ rfl
      cases failure <;> cases progress <;> rfl
  | markLoaded key dependencies =>
      refine write_fields hdistinct ?_ fun e e' => key_of_advance
      rintro ⟨key, declaration, progress, failure⟩ rfl
      cases failure <;> cases progress <;> rfl
  | markInstantiated key inst =>
      refine write_fields hdistinct ?_ fun e e' => key_of_advance
      rintro ⟨key, declaration, progress, failure⟩ rfl
      cases failure <;> cases progress <;> rfl
  | markEvaluated key =>
      refine write_fields hdistinct ?_ fun e e' => key_of_advance
      rintro ⟨key, declaration, progress, failure⟩ rfl
      cases failure <;> cases progress <;> rfl
  | markFailed key failure =>
      rw [MapOperation.run, markFailed_eq]
      refine write_fields hdistinct ?_ fun e e' he => by rw [(failing_eq_ok he).2.2]
      rintro ⟨key, declaration, progress, failure⟩ rfl
      cases failure <;> cases progress <;> rfl

end ModuleMap

/-! ## Entries move on -/

/-- Fields that stay proceed. -/
theorem Fields.Proceeds.refl (f : Fields) : f.Proceeds f :=
  ⟨.refl, fun _ h => h, fun _ h => h, fun _ h => h⟩

/-- Fields proceed over any number of steps. -/
theorem Fields.Proceeds.trans {f f' f'' : Fields} (h : f.Proceeds f') (h' : f'.Proceeds f'') :
    f.Proceeds f'' where
  status := h.status.trans h'.status
  dependencies ds hds := h'.dependencies ds (h.dependencies ds hds)
  inst i hi := h'.inst i (h.inst i hi)
  failure failure hf := h'.failure failure (h.failure failure hf)

/-- The fields of every entry are consistent: its progress cannot say otherwise. -/
theorem Entry.consistent_fields (e : Entry) : e.fields.Consistent := by
  obtain ⟨key, declaration, progress, failure⟩ := e
  cases failure <;> cases progress <;>
    constructor <;> simp [Entry.fields, Entry.status, Entry.instance?, Progress.status,
      Progress.dependencies?, Progress.instance?]

/-- An entry is the same entry later on: under the same key, with what it had. -/
structure Entry.Proceeds (e e' : Entry) : Prop where
  key : e'.key = e.key
  declaration : e'.declaration = e.declaration
  fields : e.fields.Proceeds e'.fields

namespace ModuleMap

variable {map map' map'' : ModuleMap} {key : ModuleKey}

/-- Every entry stays in its place and moves on there. -/
def Proceeds (map map' : ModuleMap) : Prop :=
  ∀ (i : Nat) (e : Entry), map.entries[i]? = some e →
    ∃ e', map'.entries[i]? = some e' ∧ e.Proceeds e'

/-- A map that stays proceeds. -/
theorem Proceeds.refl : map.Proceeds map :=
  fun _ e he => ⟨e, he, rfl, rfl, .refl _⟩

/-- A map proceeds over any number of steps. -/
theorem Proceeds.trans (h : map.Proceeds map') (h' : map'.Proceeds map'') :
    map.Proceeds map'' := by
  intro i e he
  obtain ⟨e', he', hkey, hdeclaration, hfields⟩ := h i e he
  obtain ⟨e'', he'', hkey', hdeclaration', hfields'⟩ := h' i e' he'
  exact ⟨e'', he'', hkey'.trans hkey, hdeclaration'.trans hdeclaration, hfields.trans hfields'⟩

/-- A map proceeds when a key is registered. -/
theorem proceeds_register (map : ModuleMap) (key : ModuleKey) :
    map.Proceeds (map.register key) := by
  unfold register
  split
  · exact .refl
  · intro i e he
    have hi := (List.getElem?_eq_some_iff.1 he).1
    exact ⟨e, (List.getElem?_append_left hi).trans he, rfl, rfl, .refl _⟩

/-- A step with one entry lets it move on, and all others as they are. -/
theorem proceeds_step (hdistinct : map.Distinct) {f : Entry → Except Violation Entry}
    (hf : ∀ e e', f e = .ok e' → e.Proceeds e') (h : map.step key f = .ok map') :
    map.Proceeds map' ∧ map'.Distinct := by
  obtain ⟨e, e', hget, he, rfl⟩ := step_eq_ok_iff.1 h
  refine ⟨fun i x hx => ?_, ?_⟩
  · rw [update, List.getElem?_map, hx]
    by_cases hkey : x.key = key
    · obtain rfl := eq_of_mem hdistinct hget (List.mem_of_getElem? hx) hkey
      exact ⟨e', by simp [hkey], hf x e' he⟩
    · exact ⟨x, by simp [hkey], rfl, rfl, .refl _⟩
  · have hkey : e'.key = key := (hf e e' he).key.trans (key_of_get? hget)
    have hupdate : (map.update key fun _ => e') =
        map.update key fun x => { e' with key := x.key } := by
      refine congrArg ModuleMap.mk (List.map_congr_left fun x _ => ?_)
      by_cases hx : x.key = key
      · simp [hx, Entry.with_key hkey]
      · simp [hx]
    rw [hupdate]
    exact distinct_update (fun _ => rfl) hdistinct

/-- An entry proceeds when its progress does. -/
theorem proceeds_of_advance {next : Status} {f : Progress → Option Progress} {e e' : Entry}
    (hf : ∀ p p', f p = some p' → Status.Next p.status p'.status ∧
      (∀ ds, p.dependencies? = some ds → p'.dependencies? = some ds) ∧
        ∀ i, p.instance? = some i → p'.instance? = some i)
    (h : advance next f e = .ok e') : e.Proceeds e' := by
  obtain ⟨hfailure, progress, hprogress, rfl⟩ := advance_eq_ok_iff.1 h
  obtain ⟨hnext, hdependencies, hinstance⟩ := hf _ _ hprogress
  refine ⟨rfl, rfl, .single ?_, hdependencies, hinstance, fun _ h => h⟩
  simpa [Entry.fields, Entry.status, hfailure] using hnext

/-- An entry proceeds when it fails. -/
theorem proceeds_of_failing {failure : ModuleFailure} {e e' : Entry}
    (h : failing failure e = .ok e') : e.Proceeds e' := by
  obtain ⟨hfailed, hevaluated, rfl⟩ := failing_eq_ok h
  have hnone : e.failure = none := by
    rw [ne_eq, Entry.status_eq_failed_iff] at hfailed
    simpa using hfailed
  refine ⟨rfl, rfl, .single (.fail hfailed hevaluated), fun _ h => h, fun _ h => h, ?_⟩
  simp [Entry.fields, hnone]

/-! ## Runs of operations -/

/-- A result is there before the fault is translated. -/
theorem mapError_eq_ok {ε ε' α : Type} {f : ε → ε'} {x : Except ε α} {a : α}
    (h : x.mapError f = .ok a) : x = .ok a := by
  cases x <;> cases h
  rfl

/-- An operation that does not panic lets the entries move on. -/
theorem proceeds_run (hdistinct : map.Distinct) {op : MapOperation} (h : op.run map = .ok map') :
    map.Proceeds map' ∧ map'.Distinct := by
  cases op with
  | getOrCreate key produced =>
      simp only [MapOperation.run, getOrCreate] at h
      split at h
      · obtain rfl := Except.ok.inj h
        exact ⟨proceeds_register map key, distinct_register hdistinct⟩
      · contradiction
  | markLoading key =>
      refine proceeds_step hdistinct (fun e e' => proceeds_of_advance fun p p' hp => ?_)
        (mapError_eq_ok h)
      cases p <;> cases hp
      exact ⟨.load, by simp [Progress.dependencies?], by simp [Progress.instance?]⟩
  | markLoaded key dependencies =>
      refine proceeds_step hdistinct (fun e e' => proceeds_of_advance fun p p' hp => ?_)
        (mapError_eq_ok h)
      cases p <;> cases hp
      exact ⟨.finish, by simp [Progress.dependencies?], by simp [Progress.instance?]⟩
  | markInstantiated key inst =>
      refine proceeds_step hdistinct (fun e e' => proceeds_of_advance fun p p' hp => ?_)
        (mapError_eq_ok h)
      cases p <;> cases hp
      exact ⟨.instantiate, fun _ h => h, by simp [Progress.instance?]⟩
  | markEvaluated key =>
      refine proceeds_step hdistinct (fun e e' => proceeds_of_advance fun p p' hp => ?_)
        (mapError_eq_ok h)
      cases p <;> cases hp
      exact ⟨.evaluate, fun _ h => h, fun _ h => h⟩
  | markFailed key failure =>
      have hstep : map.step key (failing failure) = .ok map' := mapError_eq_ok h
      exact proceeds_step hdistinct (fun e e' he => proceeds_of_failing he) hstep

/-- A map proceeds under all operations, and no key gets a second entry. -/
theorem proceeds_after (hdistinct : map.Distinct) (ops : List MapOperation) :
    map.Proceeds (map.after ops) ∧ (map.after ops).Distinct := by
  induction ops generalizing map with
  | nil => exact ⟨.refl, hdistinct⟩
  | cons op ops ih =>
      cases hrun : op.run map with
      | ok map' =>
          obtain ⟨hproceeds, hdistinct'⟩ := proceeds_run hdistinct hrun
          obtain ⟨hafter, hlast⟩ := ih hdistinct'
          have hcons : map.after (op :: ops) = map'.after ops := by
            simp [after, hrun, Except.toOption]
          rw [hcons]
          exact ⟨hproceeds.trans hafter, hlast⟩
      | error panic =>
          have hcons : map.after (op :: ops) = map.after ops := by
            simp [after, hrun, Except.toOption]
          rw [hcons]
          exact ih hdistinct

/-- What operations write in the fields is what the map has behind them. -/
theorem after_fields (hdistinct : map.Distinct) (ops : List MapOperation) :
    FieldMap.after map.fields ops = (map.after ops).fields := by
  induction ops generalizing map with
  | nil => rfl
  | cons op ops ih =>
      have hwrite := write_eq hdistinct op
      cases hrun : op.run map with
      | ok map' =>
          rw [hrun] at hwrite
          simpa [FieldMap.after, after, hwrite, hrun, Except.toOption] using
            ih (proceeds_run hdistinct hrun).2
      | error panic =>
          rw [hrun] at hwrite
          simpa [FieldMap.after, after, hwrite, hrun, Except.toOption] using ih hdistinct

/-- The entries of a map after operations, and after later ones: they are what the operations have
written in four fields, and no operation that panics writes anything. -/
structure Lifecycle (ops later : List MapOperation) : Prop where
  written : FieldMap.after [] ops = (empty.after ops).fields
  distinct : (empty.after ops).Distinct
  consistent : ∀ e ∈ (empty.after ops).entries, e.fields.Consistent
  proceeds : (empty.after ops).Proceeds (empty.after (ops ++ later))
  panics : ∀ (op : MapOperation) (panic : Panic) (fields : FieldMap),
    op.write (empty.after ops).fields = .error panic fields → fields = (empty.after ops).fields

/-- Operations in every order keep the fields of every entry consistent and let it move on, and one
that panics changes nothing. -/
theorem lifecycle (ops later : List MapOperation) : Lifecycle ops later := by
  have hempty : empty.Distinct := List.nodup_nil
  have hdistinct := (proceeds_after hempty ops).2
  refine ⟨after_fields hempty ops, hdistinct, fun e _ => e.consistent_fields, ?_,
    fun op panic fields hpanic => ?_⟩
  · have happend : empty.after (ops ++ later) = (empty.after ops).after later :=
      List.foldl_append
    rw [happend]
    exact (proceeds_after hdistinct later).1
  · rw [write_eq hdistinct] at hpanic
    split at hpanic <;> cases hpanic
    rfl

end ModuleMap

end ModuleGraph
