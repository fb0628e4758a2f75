import Mathlib.Data.List.Perm.Subperm
import ModuleGraph.Linking

/-!
# Who depends on a culprit

`ModuleMap.dependents_eq` is the main statement: the dependents of a culprit are the candidates that
it can be reached from, where all modules on the way are candidates (`ModuleMap.DependsVia`).

The search never takes a module twice on one path. A negative answer that is found below other
modules therefore says only that there is no way around them, and is not kept. What is kept answers
the question for the module alone (`ModuleMap.FindingsHold`), so that the candidates can share it.
-/

namespace ModuleGraph.ModuleMap

/-- A module is the culprit, or depends on it by way of candidates that are not avoided. -/
inductive DependsVia (map : ModuleMap) (candidates : List ModuleKey) (culprit : ModuleKey)
    (avoided : List ModuleKey) : ModuleKey → Prop
  | culprit : DependsVia map candidates culprit avoided culprit
  | step {key d : ModuleKey} : key ∈ candidates → key ∉ avoided →
      d ∈ (map.entry key).dependencies → DependsVia map candidates culprit avoided d →
      DependsVia map candidates culprit avoided key

variable {map : ModuleMap} {candidates avoided path : List ModuleKey} {culprit key k : ModuleKey}
  {findings : Findings} {n : Nat}

namespace DependsVia

/-- A way that avoids more avoids less. -/
theorem of_cons (h : map.DependsVia candidates culprit (k :: avoided) key) :
    map.DependsVia candidates culprit avoided key := by
  induction h with
  | culprit => exact .culprit
  | step hkey hfree hd _ ih => exact .step hkey (fun hmem => hfree (.tail _ hmem)) hd ih

/-- What depends on the culprit while modules are avoided also depends on it when none is. -/
theorem of_avoided (h : map.DependsVia candidates culprit avoided key) :
    map.DependsVia candidates culprit [] key := by
  induction avoided with
  | nil => exact h
  | cons k avoided ih => exact ih h.of_cons

/-- A way that meets a module goes on from its last occurrence without it. -/
theorem cons_or_suffix (k : ModuleKey) (h : map.DependsVia candidates culprit avoided key) :
    map.DependsVia candidates culprit (k :: avoided) key ∨
      ∃ d ∈ (map.entry k).dependencies, map.DependsVia candidates culprit (k :: avoided) d := by
  induction h with
  | culprit => exact .inl .culprit
  | @step key d hkey hfree hd _ ih =>
      rcases ih with ih | hlater
      · by_cases hsame : key = k
        · exact .inr ⟨d, hsame ▸ hd, ih⟩
        · exact .inl (.step hkey (by simp [hsame, hfree]) hd ih)
      · exact .inr hlater

/-- From a module that is not the culprit the way leads through one of its dependencies, and does
not come back. -/
theorem exists_dependency (h : map.DependsVia candidates culprit avoided key)
    (hne : key ≠ culprit) : key ∈ candidates ∧ key ∉ avoided ∧
      ∃ d ∈ (map.entry key).dependencies, map.DependsVia candidates culprit (key :: avoided) d := by
  rcases h.cons_or_suffix key with hcons | hlater
  · cases hcons with
    | culprit => exact absurd rfl hne
    | step _ hfree => exact absurd List.mem_cons_self hfree
  · cases h with
    | culprit => exact absurd rfl hne
    | step hkey hfree => exact ⟨hkey, hfree, hlater⟩

end DependsVia

/-- Each answer that is kept answers the question for its module alone. -/
def FindingsHold (map : ModuleMap) (candidates : List ModuleKey) (culprit : ModuleKey)
    (findings : Findings) : Prop :=
  ∀ key known, findings.lookup key = some known →
    (known = true ↔ map.DependsVia candidates culprit [] key)

/-- Findings hold with another one that answers the question for its module. -/
theorem FindingsHold.cons {known : Bool} (h : map.FindingsHold candidates culprit findings)
    (hkey : known = true ↔ map.DependsVia candidates culprit [] key) :
    map.FindingsHold candidates culprit ((key, known) :: findings) := by
  intro k known' hk
  rw [List.lookup_cons] at hk
  split at hk
  · next hsame =>
      obtain rfl : k = key := by simpa using hsame
      exact Option.some.inj hk ▸ hkey
  · exact h k known' hk

/-- An answer to the question for a module when those of the path are avoided. -/
structure Answers (map : ModuleMap) (candidates : List ModuleKey) (culprit : ModuleKey)
    (path : List ModuleKey) (key : ModuleKey) (answer : Bool × Findings) : Prop where
  findings : map.FindingsHold candidates culprit answer.2
  positive : answer.1 = true → map.DependsVia candidates culprit [] key
  negative : answer.1 = false → ¬ map.DependsVia candidates culprit path key

/-- One of several modules depends on the culprit, or none of them does. -/
theorem answers_anyM {ask : ModuleKey → StateM Findings Bool}
    (hask : ∀ d findings, map.FindingsHold candidates culprit findings →
      map.Answers candidates culprit path d ((ask d).run findings))
    (ds : List ModuleKey) (h : map.FindingsHold candidates culprit findings) :
    map.FindingsHold candidates culprit ((ds.anyM ask).run findings).2 ∧
      (((ds.anyM ask).run findings).1 = true →
        ∃ d ∈ ds, map.DependsVia candidates culprit [] d) ∧
      (((ds.anyM ask).run findings).1 = false →
        ∀ d ∈ ds, ¬ map.DependsVia candidates culprit path d) := by
  induction ds generalizing findings with
  | nil => exact ⟨h, by simp [List.anyM], by simp⟩
  | cons d ds ih =>
      obtain ⟨hfindings, hpositive, hnegative⟩ := hask d findings h
      rw [List.anyM]
      simp only [StateT.run_bind]
      cases hanswer : (ask d).run findings with
      | mk found findings' =>
          rw [hanswer] at hfindings hpositive hnegative
          cases found with
          | true =>
              exact ⟨hfindings, fun _ => ⟨d, List.mem_cons_self, hpositive rfl⟩, by simp [bind]⟩
          | false =>
              obtain ⟨hrest, hsome, hnone⟩ := ih hfindings
              refine ⟨hrest, fun hfound => ?_, fun hmissed => ?_⟩
              · obtain ⟨d', hd', hdepends⟩ := hsome hfound
                exact ⟨d', List.mem_cons_of_mem d hd', hdepends⟩
              · exact List.forall_mem_cons.2 ⟨hnegative rfl, hnone hmissed⟩

/-- What the search does with one module. -/
theorem run_reaches_succ (map : ModuleMap) (candidates : List ModuleKey) (culprit : ModuleKey)
    (n : Nat) (path : List ModuleKey) (key : ModuleKey) (findings : Findings) :
    (map.reaches candidates culprit (n + 1) path key).run findings =
      if key = culprit then (true, findings)
      else
        match findings.lookup key with
        | some known => (known, findings)
        | none =>
          if key ∉ candidates ∨ key ∈ path then (false, findings)
          else
            let answer := ((map.entry key).dependencies.anyM
              (map.reaches candidates culprit n (key :: path))).run findings
            if answer.1 ∨ path.isEmpty then (answer.1, (key, answer.1) :: answer.2)
            else answer := by
  rw [reaches]
  split
  · rfl
  simp only [StateT.run_bind, StateT.run_get, pure_bind]
  cases findings.lookup key with
  | some known => rfl
  | none =>
      simp only
      split
      · rfl
      simp only [StateT.run_bind]
      generalize StateT.run _ findings = answer
      obtain ⟨found, findings'⟩ := answer
      show StateT.run (if found ∨ path.isEmpty then _ else _) findings' = _
      split <;> rfl

/-- The search answers the question for a module, as long as its bound exceeds the number of
candidates that the path leaves. -/
theorem answers_reaches (key : ModuleKey) (hpath : path.Nodup) (hsub : path ⊆ candidates)
    (hbound : candidates.length < n + path.length)
    (h : map.FindingsHold candidates culprit findings) :
    map.Answers candidates culprit path key
      ((map.reaches candidates culprit n path key).run findings) := by
  induction n generalizing path key findings with
  | zero =>
      have hlength := (List.subperm_of_subset hpath hsub).length_le
      omega
  | succ n ih =>
      rw [run_reaches_succ]
      split
      · next hculprit =>
          exact ⟨h, fun _ => hculprit ▸ .culprit, fun hnot => absurd hnot (by simp)⟩
      next hculprit =>
      split
      · next known hlookup =>
          have hknown := h key known hlookup
          refine ⟨h, fun hfound => hknown.1 hfound, fun hmissed hdepends => ?_⟩
          have hfalse : known = false := hmissed
          simp [hfalse, hdepends.of_avoided] at hknown
      next hlookup =>
      split
      · next hclosed =>
          refine ⟨h, fun hfound => absurd hfound (by simp), fun _ hdepends => ?_⟩
          obtain ⟨hkey, hfree, -⟩ := hdepends.exists_dependency hculprit
          exact hclosed.elim (· hkey) hfree
      next hopen =>
      obtain ⟨hkey, hfree⟩ : key ∈ candidates ∧ key ∉ path := by simpa using hopen
      obtain ⟨hfindings, hsome, hnone⟩ := answers_anyM
        (fun d findings' h' => ih d (List.nodup_cons.2 ⟨hfree, hpath⟩)
          (List.cons_subset.2 ⟨hkey, hsub⟩) (by rw [List.length_cons]; omega) h')
        (map.entry key).dependencies h
      generalize StateT.run _ findings = answer at hfindings hsome hnone ⊢
      have hpositive : answer.1 = true → map.DependsVia candidates culprit [] key := by
        intro hfound
        obtain ⟨d, hd, hdepends⟩ := hsome hfound
        exact .step hkey (by simp) hd hdepends
      have hnegative : answer.1 = false → ¬ map.DependsVia candidates culprit path key := by
        intro hmissed hdepends
        obtain ⟨-, -, d, hd, hlater⟩ := hdepends.exists_dependency hculprit
        exact hnone hmissed d hd hlater
      dsimp only
      split
      · next hkept =>
          -- without a path a negative answer is not due to modules that are avoided
          refine ⟨hfindings.cons ⟨hpositive, fun hdepends => ?_⟩, hpositive, hnegative⟩
          rcases hkept with hfound | hempty
          · exact hfound
          · rw [List.isEmpty_iff.1 hempty] at hnegative
            simpa using mt hnegative (not_not_intro hdepends)
      · exact ⟨hfindings, hpositive, hnegative⟩

/-! ## The dependents -/

/-- A test that answers with the help of what has been found before keeps those that satisfy it. -/
theorem run_filterM_eq {α σ : Type} {p : α → StateM σ Bool} (invariant : σ → Prop) (q : α → Bool)
    (hp : ∀ a s, invariant s → ((p a).run s).1 = q a ∧ invariant ((p a).run s).2)
    (as : List α) {s : σ} (h : invariant s) : ((as.filterM p).run s).1 = as.filter q := by
  have haux : ∀ (as acc : List α) (s : σ), invariant s →
      ((as.filterAuxM p acc).run s).1 = (as.filter q).reverse ++ acc := by
    intro as
    induction as with
    | nil => exact fun acc s _ => rfl
    | cons a as ih =>
        intro acc s h
        obtain ⟨hq, hinvariant⟩ := hp a s h
        have hrest := ih (cond (p a s).1 (a :: acc) acc) (p a s).2 hinvariant
        refine hrest.trans ?_
        rw [show (p a s).1 = q a from hq, List.filter_cons]
        cases q a <;> simp
  have hmain : ((as.filterM p).run s).1 = ((as.filterAuxM p []).run s).1.reverse := rfl
  rw [hmain, haux as [] s h, List.append_nil, List.reverse_reverse]

/-- The dependents of a culprit are the candidates that lead to it by way of candidates. -/
theorem dependents_eq (map : ModuleMap) (culprit : ModuleKey) (candidates : List ModuleKey)
    [DecidablePred (map.DependsVia candidates culprit [])] :
    map.dependents culprit candidates =
      candidates.filter (map.DependsVia candidates culprit []) := by
  refine run_filterM_eq (map.FindingsHold candidates culprit) _ (fun key findings h => ?_)
    candidates (by simp [FindingsHold])
  obtain ⟨hfindings, hpositive, hnegative⟩ := answers_reaches (n := candidates.length + 1) key
    List.nodup_nil (List.nil_subset _) (Nat.lt_succ_self _) h
  refine ⟨?_, hfindings⟩
  generalize StateT.run _ findings = answer at hpositive hnegative ⊢
  cases hanswer : answer.1 with
  | true => exact (decide_eq_true (hpositive hanswer)).symm
  | false => exact (decide_eq_false (hnegative hanswer)).symm

end ModuleGraph.ModuleMap
