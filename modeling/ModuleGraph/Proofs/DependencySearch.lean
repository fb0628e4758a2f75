import ModuleGraph.Proofs.Dependents

/-!
# The search for a culprit ends

`ModuleMap.Searches` is the search for a way to a culprit without a bound on its depth. Among any
candidates, with cycles or without, it comes to exactly one end, which `ModuleMap.reaches` finds
within a depth of more than their number (`ModuleMap.Searches.unique`,
`ModuleMap.searches_reaches`). The main statement is `ModuleMap.reaches_after_asking`: of modules
that are asked about one after the other, with all findings kept between them, each is answered as
if it were asked about alone.
-/

namespace ModuleGraph.ModuleMap

/-- A candidate has a dependency. -/
def CandidateDependsOn (map : ModuleMap) (candidates : List ModuleKey) (key d : ModuleKey) : Prop :=
  key ∈ candidates ∧ d ∈ (map.entry key).dependencies

/-- What a search is about: whether a module below those of a path leads to the culprit, or whether
one of several modules does. -/
inductive Inquiry where
  | one (path : List ModuleKey) (key : ModuleKey)
  | any (path ds : List ModuleKey)

/-- The search for an inquiry ends with the answer `found`, and turns the findings that are kept
from `findings` into `findings'`. -/
inductive Searches (map : ModuleMap) (candidates : List ModuleKey) (culprit : ModuleKey) :
    Inquiry → (findings : Findings) → (found : Bool) → (findings' : Findings) → Prop where
  | culprit (path : List ModuleKey) (findings : Findings) :
      Searches map candidates culprit (.one path culprit) findings true findings
  | known {path : List ModuleKey} {key : ModuleKey} {findings : Findings} {found : Bool} :
      key ≠ culprit → findings.lookup key = some found →
      Searches map candidates culprit (.one path key) findings found findings
  | closed {path : List ModuleKey} {key : ModuleKey} {findings : Findings} :
      key ≠ culprit → findings.lookup key = none → key ∉ candidates ∨ key ∈ path →
      Searches map candidates culprit (.one path key) findings false findings
  | opened {path : List ModuleKey} {key : ModuleKey} {findings findings' : Findings}
      {found : Bool} :
      key ≠ culprit → findings.lookup key = none → ¬ (key ∉ candidates ∨ key ∈ path) →
      Searches map candidates culprit (.any (key :: path) (map.entry key).dependencies) findings
        found findings' →
      Searches map candidates culprit (.one path key) findings found
        (if found ∨ path.isEmpty then (key, found) :: findings' else findings')
  | none (path : List ModuleKey) (findings : Findings) :
      Searches map candidates culprit (.any path []) findings false findings
  | first {path ds : List ModuleKey} {d : ModuleKey} {findings findings' : Findings} :
      Searches map candidates culprit (.one path d) findings true findings' →
      Searches map candidates culprit (.any path (d :: ds)) findings true findings'
  | further {path ds : List ModuleKey} {d : ModuleKey} {findings findings' findings'' : Findings}
      {found : Bool} :
      Searches map candidates culprit (.one path d) findings false findings' →
      Searches map candidates culprit (.any path ds) findings' found findings'' →
      Searches map candidates culprit (.any path (d :: ds)) findings found findings''

variable {map : ModuleMap} {candidates path : List ModuleKey} {culprit key : ModuleKey}
  {findings findings₁ findings₂ : Findings} {found₁ found₂ : Bool} {n : Nat}

/-- A search has one end at most. -/
theorem Searches.unique {inquiry : Inquiry}
    (h : map.Searches candidates culprit inquiry findings found₁ findings₁)
    (h' : map.Searches candidates culprit inquiry findings found₂ findings₂) :
    found₁ = found₂ ∧ findings₁ = findings₂ := by
  -- the rules exclude each other: by the key, by what is kept of it, and by the path
  induction h generalizing found₂ findings₂ with
  | culprit =>
      cases h' with
      | culprit => exact ⟨rfl, rfl⟩
      | known hne | closed hne | opened hne => exact absurd rfl hne
  | known hne hlookup =>
      cases h' with
      | culprit => exact absurd rfl hne
      | known _ hlookup' => exact ⟨Option.some.inj (hlookup.symm.trans hlookup'), rfl⟩
      | closed _ hlookup' | opened _ hlookup' => cases hlookup.symm.trans hlookup'
  | closed hne hlookup hclosed =>
      cases h' with
      | culprit => exact absurd rfl hne
      | known _ hlookup' => cases hlookup.symm.trans hlookup'
      | closed => exact ⟨rfl, rfl⟩
      | opened _ _ hopen => exact absurd hclosed hopen
  | opened hne hlookup hopen _ ih =>
      cases h' with
      | culprit => exact absurd rfl hne
      | known _ hlookup' => cases hlookup.symm.trans hlookup'
      | closed _ _ hclosed => exact absurd hclosed hopen
      | opened _ _ _ hany =>
          obtain ⟨rfl, rfl⟩ := ih hany
          exact ⟨rfl, rfl⟩
  | none =>
      cases h' with
      | none => exact ⟨rfl, rfl⟩
  | first _ ih =>
      cases h' with
      | first hfound => exact ih hfound
      | further hmissed => exact absurd (ih hmissed).1 (by simp)
  | further _ _ ihFirst ihRest =>
      cases h' with
      | first hfound => exact absurd (ihFirst hfound).1 (by simp)
      | further hmissed hrest =>
          obtain ⟨-, rfl⟩ := ihFirst hmissed
          exact ihRest hrest

/-! ## An end within the depth -/

/-- A search through several modules is put together from the searches for each of them. -/
theorem searches_anyM {ask : ModuleKey → StateM Findings Bool}
    (hask : ∀ d findings, map.Searches candidates culprit (.one path d) findings
      ((ask d).run findings).1 ((ask d).run findings).2)
    (ds : List ModuleKey) (findings : Findings) :
    map.Searches candidates culprit (.any path ds) findings ((ds.anyM ask).run findings).1
      ((ds.anyM ask).run findings).2 := by
  induction ds generalizing findings with
  | nil => exact .none path findings
  | cons d ds ih =>
      have hd := hask d findings
      rw [List.anyM]
      simp only [StateT.run_bind]
      cases hanswer : (ask d).run findings with
      | mk found findings' =>
          rw [hanswer] at hd
          cases found with
          | true => exact .first hd
          | false => exact .further hd (ih findings')

/-- Within a depth that exceeds the number of candidates off the path the search comes to its
end. -/
theorem searches_reaches (hpath : path.Nodup) (hsub : path ⊆ candidates)
    (hdepth : candidates.length < n + path.length) (key : ModuleKey) (findings : Findings) :
    map.Searches candidates culprit (.one path key) findings
      ((map.reaches candidates culprit n path key).run findings).1
      ((map.reaches candidates culprit n path key).run findings).2 := by
  induction n generalizing path key findings with
  | zero =>
      have hlength := (List.subperm_of_subset hpath hsub).length_le
      omega
  | succ n ih =>
      rw [run_reaches_succ]
      split
      · next hculprit => exact hculprit ▸ .culprit path findings
      next hculprit =>
      split
      · next hlookup => exact .known hculprit hlookup
      next hlookup =>
      split
      · next hclosed => exact .closed hculprit hlookup hclosed
      next hopen =>
      obtain ⟨hkey, hfree⟩ : key ∈ candidates ∧ key ∉ path := by simpa using hopen
      have hany := searches_anyM
        (ih (List.nodup_cons.2 ⟨hfree, hpath⟩) (List.cons_subset.2 ⟨hkey, hsub⟩)
          (by rw [List.length_cons]; omega))
        (map.entry key).dependencies findings
      have hend := Searches.opened hculprit hlookup hopen hany
      generalize StateT.run _ findings = answer at hend ⊢
      dsimp only
      by_cases hkept : answer.1 = true ∨ path.isEmpty = true
      · rw [if_pos hkept] at hend ⊢
        exact hend
      · rw [if_neg hkept] at hend ⊢
        exact hend

/-! ## Answers to several questions -/

/-- A module depends on the culprit just if candidates with their dependencies lead to it. -/
theorem dependsVia_iff_reflTransGen : map.DependsVia candidates culprit [] key ↔
    Relation.ReflTransGen (map.CandidateDependsOn candidates) key culprit := by
  constructor
  · intro h
    induction h with
    | culprit => exact .refl
    | step hkey _ hd _ ih => exact .head ⟨hkey, hd⟩ ih
  · intro h
    induction h using Relation.ReflTransGen.head_induction_on with
    | refl => exact .culprit
    | head hfirst _ ih => exact .step hfirst.1 (by simp) hfirst.2 ih

/-- What is kept of the answers to several questions answers each of them. -/
theorem findingsHold_mapM (hdepth : candidates.length < n) (asked : List ModuleKey)
    (h : map.FindingsHold candidates culprit findings) :
    map.FindingsHold candidates culprit
      ((asked.mapM (map.reaches candidates culprit n [])).run findings).2 := by
  induction asked generalizing findings with
  | nil => exact h
  | cons key asked ih =>
      have hkey := answers_reaches key List.nodup_nil (List.nil_subset _) hdepth h
      rw [List.mapM_cons]
      simp only [StateT.run_bind]
      exact ih hkey.findings

/-- Whatever modules have been asked about before, the search from a module comes to exactly one
end, within a depth of more than the number of candidates. It finds the culprit if and only if the
module is the culprit or leads to it by way of candidates, and what has been kept of the answers
before makes no difference to this. -/
theorem reaches_after_asking (hdepth : candidates.length < n) (asked : List ModuleKey)
    (key : ModuleKey) :
    let findings := ((asked.mapM (map.reaches candidates culprit n [])).run []).2
    let answer := (map.reaches candidates culprit n [] key).run findings
    (∀ found findings', map.Searches candidates culprit (.one [] key) findings found findings' ↔
      answer = (found, findings')) ∧
    (answer.1 = true ↔
      Relation.ReflTransGen (map.CandidateDependsOn candidates) key culprit) ∧
    answer.1 = ((map.reaches candidates culprit n [] key).run []).1 := by
  intro findings answer
  have hanswers : ∀ findings, map.FindingsHold candidates culprit findings →
      (((map.reaches candidates culprit n [] key).run findings).1 = true ↔
        map.DependsVia candidates culprit [] key) := by
    intro findings h
    have hkey := answers_reaches key List.nodup_nil (List.nil_subset _) hdepth h
    exact ⟨hkey.positive, fun hdepends => by simpa using mt hkey.negative (not_not_intro hdepends)⟩
  have hnothing : map.FindingsHold candidates culprit [] := by simp [FindingsHold]
  have hanswer := hanswers findings (findingsHold_mapM hdepth asked hnothing)
  have hend := @searches_reaches map candidates [] culprit n List.nodup_nil
    (List.nil_subset candidates) hdepth key findings
  refine ⟨fun found findings' => ⟨fun h => ?_, fun h => ?_⟩,
    hanswer.trans dependsVia_iff_reflTransGen,
    Bool.eq_iff_iff.2 (hanswer.trans (hanswers [] hnothing).symm)⟩
  · exact Prod.ext (hend.unique h).1 (hend.unique h).2
  · have hfound : answer.1 = found ∧ answer.2 = findings' := by simp [h]
    exact hfound.1 ▸ hfound.2 ▸ hend

/-- The key of a fragment of some file. -/
def crossedKey (name : String) : ModuleKey :=
  ⟨⟨"file", none, .segments ["crossed.js"], none, none⟩, [name]⟩

/-- Two modules that depend on each other. Only the first depends on the culprit itself, and it does
so behind its dependency on the second. -/
def crossedMap : ModuleMap :=
  ⟨[⟨crossedKey "first", none, .loaded [crossedKey "second", crossedKey "culprit"], none⟩,
    ⟨crossedKey "second", none, .loaded [crossedKey "first"], none⟩]⟩

/-- The search from the first module asks about the second one, which leads nowhere but back; that
the second one leads to the culprit is found all the same when it is asked about itself. -/
theorem reaches_after_asking_crossed :
    let candidates := [crossedKey "first", crossedKey "second"]
    let findings := (([crossedKey "first"].mapM
      (crossedMap.reaches candidates (crossedKey "culprit") 3 [])).run []).2
    let answer := (crossedMap.reaches candidates (crossedKey "culprit") 3 []
      (crossedKey "second")).run findings
    candidates.length < 3 ∧ answer.1 = true ∧
      Relation.ReflTransGen (crossedMap.CandidateDependsOn candidates) (crossedKey "second")
        (crossedKey "culprit") ∧
      crossedMap.Searches candidates (crossedKey "culprit") (.one [] (crossedKey "second"))
        findings answer.1 answer.2 := by
  intro candidates findings answer
  have hanswer : answer.1 = true := by decide +kernel
  obtain ⟨hend, hfound, -⟩ := @reaches_after_asking crossedMap candidates (crossedKey "culprit") 3
    (by decide) [crossedKey "first"] (crossedKey "second")
  exact ⟨by decide, hanswer, hfound.1 hanswer, (hend answer.1 answer.2).2 rfl⟩

end ModuleGraph.ModuleMap
