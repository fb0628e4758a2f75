import ModuleGraph.ImportMap
import ModuleGraph.Proofs.Bodies
import Mathlib.Data.List.Sort
import Mathlib.Data.List.ReduceOption

/-!
# The order of the members of an import map

The members of a JSON object have no order, but an import map is read from a list of them. Whether a
list is accepted does not depend on its order, since every member is checked by itself
(`ofSource_isOk`). What is read is sorted by key, and so the order is forgotten as long as the keys
are distinct. Different keys may be the same URL, however, and then the first one counts
(`exists_resolve?_ne`). Apart from this, a map answers the same in whatever order its members are
listed (`Reorders.resolve?_eq`).
-/

namespace ModuleGraph

/-! ## The order of keys -/

section Precedes

variable {a b c : String}

/-- A key precedes those with fewer bytes, and of those with as many the ones that are no
smaller. -/
theorem precedes_iff : precedes a b = true ↔
    b.utf8ByteSize < a.utf8ByteSize ∨ a.utf8ByteSize = b.utf8ByteSize ∧ a ≤ b := by
  simp [precedes]

/-- Keys are ordered: precedence is transitive. -/
theorem precedes_trans (hab : precedes a b = true) (hbc : precedes b c = true) :
    precedes a c = true := by
  rw [precedes_iff] at *
  rcases hab with hab | ⟨hab, hle⟩
  · exact .inl (by omega)
  · rcases hbc with hbc | ⟨hbc, hle'⟩
    · exact .inl (by omega)
    · exact .inr ⟨by omega, String.le_trans hle hle'⟩

/-- Of two keys one precedes the other. -/
theorem precedes_total (a b : String) : (precedes a b || precedes b a) = true := by
  rw [Bool.or_eq_true, precedes_iff, precedes_iff]
  rcases Nat.lt_trichotomy a.utf8ByteSize b.utf8ByteSize with hlt | heq | hgt
  · exact .inr (.inl hlt)
  · exact (String.le_total a b).imp (fun h => .inr ⟨heq, h⟩) fun h => .inr ⟨heq.symm, h⟩
  · exact .inl (.inl hgt)

/-- Keys that precede each other are the same. -/
theorem precedes_antisymm (hab : precedes a b = true) (hba : precedes b a = true) : a = b := by
  rw [precedes_iff] at *
  rcases hab with hab | ⟨hsize, hle⟩
  · rcases hba with hba | ⟨hba, -⟩ <;> omega
  · rcases hba with hba | ⟨-, hle'⟩
    · omega
    · exact String.le_antisymm hle hle'

end Precedes

section LongestFirst

variable {α β : Type} {l l' : List (String × α)}

/-- Pairs in the order of their keys. -/
def longestFirst (l : List (String × α)) : List (String × α) :=
  l.mergeSort fun a b => precedes a.1 b.1

/-- Sorting by key leaves the pairs as they are, in another order. -/
theorem perm_longestFirst (l : List (String × α)) : (longestFirst l).Perm l :=
  List.mergeSort_perm _ _

/-- Sorted pairs are in the order of their keys. -/
theorem pairwise_longestFirst (l : List (String × α)) :
    (longestFirst l).Pairwise fun a b => precedes a.1 b.1 = true :=
  @List.pairwise_mergeSort _ (fun a b => precedes a.1 b.1) (fun _ _ _ => precedes_trans)
    (fun a b => precedes_total a.1 b.1) l

/-- The order of pairs is forgotten if what stands with a key is determined by it. -/
theorem longestFirst_eq_of_perm (h : l.Perm l')
    (hkeys : ∀ a ∈ l, ∀ b ∈ l, a.1 = b.1 → a.2 = b.2) : longestFirst l = longestFirst l' := by
  have hsorted : (longestFirst l).Perm (longestFirst l') :=
    (perm_longestFirst l).trans (h.trans (perm_longestFirst l').symm)
  refine hsorted.eq_of_pairwise (fun a b ha hb hab hba => ?_) (pairwise_longestFirst l)
    (pairwise_longestFirst l')
  have hkey := precedes_antisymm hab hba
  have hmem : b ∈ l := h.mem_iff.2 ((perm_longestFirst l').mem_iff.1 hb)
  exact Prod.ext hkey (hkeys a ((perm_longestFirst l).mem_iff.1 ha) b hmem hkey)

/-- The first answer is that of a pair which precedes all others that answer. -/
theorem exists_first {f : String × α → Option β} {x : β}
    (h : (longestFirst l).findSome? f = some x) :
    ∃ a ∈ l, f a = some x ∧ ∀ b ∈ l, (f b).isSome → precedes a.1 b.1 = true := by
  obtain ⟨before, a, behind, hparts, hx, hnone⟩ := List.findSome?_eq_some_iff.1 h
  have hsorted := pairwise_longestFirst l
  rw [hparts] at hsorted
  have hmem : ∀ b, b ∈ before ++ a :: behind ↔ b ∈ l := fun b =>
    hparts ▸ (perm_longestFirst l).mem_iff
  refine ⟨a, (hmem a).1 (by simp), hx, fun b hb hanswers => ?_⟩
  rcases List.mem_append.1 ((hmem b).2 hb) with hb | hb
  · simp [hnone b hb] at hanswers
  · rcases List.mem_cons.1 hb with rfl | hb
    · simpa using precedes_total b.1 b.1
    · exact List.rel_of_pairwise_cons (List.pairwise_append.1 hsorted).2.1 hb

/-- The first answer does not depend on the order of pairs either, if pairs of one key that answer
give the same answer. -/
theorem findSome?_longestFirst_eq_of_perm (h : l.Perm l') {f : String × α → Option β}
    (hanswers : ∀ a ∈ l, ∀ b ∈ l, a.1 = b.1 → ∀ x y, f a = some x → f b = some y → x = y) :
    (longestFirst l).findSome? f = (longestFirst l').findSome? f := by
  have hmem : ∀ {l : List (String × α)} {a}, a ∈ longestFirst l ↔ a ∈ l :=
    (perm_longestFirst _).mem_iff
  cases hfirst : (longestFirst l).findSome? f with
  | none =>
      refine (List.findSome?_eq_none_iff.2 fun a ha => ?_).symm
      exact List.findSome?_eq_none_iff.1 hfirst a (hmem.2 (h.mem_iff.2 (hmem.1 ha)))
  | some x =>
      obtain ⟨a, ha, hx, hleads⟩ := exists_first hfirst
      cases hfirst' : (longestFirst l').findSome? f with
      | none =>
          have hnone := List.findSome?_eq_none_iff.1 hfirst' a (hmem.2 (h.mem_iff.1 ha))
          rw [hx] at hnone
          cases hnone
      | some y =>
          obtain ⟨b, hb, hy, hleads'⟩ := exists_first hfirst'
          have hb := h.mem_iff.2 hb
          have hkey := precedes_antisymm (hleads b hb (by simp [hy]))
            (hleads' a (h.mem_iff.1 ha) (by simp [hx]))
          rw [hanswers a ha b hb hkey x y hx hy]

end LongestFirst

/-! ## What is read -/

section Except

variable {α β ε : Type} {x y : Except ε α}

/-- A computation succeeds just if it has a result. -/
theorem isOk_iff_exists : x.isOk = true ↔ ∃ a, x = .ok a := by
  cases x <;> simp [Except.isOk, Except.toBool]

/-- A computation has a result just if it gives this result. -/
theorem toOption_eq_some_iff {a : α} : x.toOption = some a ↔ x = .ok a := by
  cases x <;> simp [Except.toOption]

/-- Computations with the same results agree but for their faults. -/
theorem toOption_eq_of_forall (h : ∀ a, x = .ok a ↔ y = .ok a) : x.toOption = y.toOption := by
  ext a
  rw [toOption_eq_some_iff, toOption_eq_some_iff, h]

/-- A list succeeds just if all of its members do, with their results. -/
theorem mapM_eq_ok_iff {f : α → Except ε β} {as : List α} {bs : List β} :
    as.mapM f = .ok bs ↔
      (∀ a ∈ as, (f a).isOk = true) ∧ bs = as.filterMap fun a => (f a).toOption := by
  induction as generalizing bs with
  | nil =>
      constructor
      · intro h
        cases h
        exact ⟨by simp, rfl⟩
      · rintro ⟨-, rfl⟩
        rfl
  | cons a as ih =>
      rw [List.mapM_cons, List.forall_mem_cons]
      cases ha : f a with
      | error e =>
          constructor
          · intro h
            cases h
          · rintro ⟨⟨h, -⟩, -⟩
            cases h
      | ok b =>
          have htail : (b :: as.filterMap fun a => (f a).toOption) =
              (a :: as).filterMap fun a => (f a).toOption := by
            rw [List.filterMap_cons, ha]
            rfl
          rw [← htail]
          constructor
          · intro h
            obtain ⟨_, hb, h⟩ := Except.bind_eq_ok h
            cases hb
            obtain ⟨rest, hrest, h⟩ := Except.bind_eq_ok h
            cases h
            obtain ⟨hok, rfl⟩ := ih.1 hrest
            exact ⟨⟨rfl, hok⟩, rfl⟩
          · rintro ⟨⟨-, hok⟩, rfl⟩
            show (as.mapM f >>= fun rest => pure (b :: rest)) = _
            rw [ih.2 ⟨hok, rfl⟩]
            rfl

end Except

namespace SpecifierMap

variable {base : Url} {members members' : List (String × String)} {map : SpecifierMap}

/-- The entry of a member as written, unless its key is not usable. -/
def ofMember (base : Url) (m : String × String) : Except ImportMapFault (Option (String × Url)) :=
  entry? base m.1 m.2

/-- The usable entries of members as written, in their order. -/
def entriesOf (base : Url) (members : List (String × String)) : List (String × Url) :=
  (members.filterMap fun m => (ofMember base m).toOption).reduceOption

/-- An object is read just if each of its members is, and has the usable entries in order. -/
theorem ofMembers_eq_ok_iff : ofMembers base members = .ok map ↔
    (∀ m ∈ members, (ofMember base m).isOk = true) ∧
      map = ⟨longestFirst (entriesOf base members)⟩ := by
  constructor
  · intro h
    obtain ⟨read, hread, h⟩ := Except.bind_eq_ok h
    obtain ⟨hok, rfl⟩ := mapM_eq_ok_iff.1 hread
    exact ⟨hok, (Except.ok.inj h).symm⟩
  · rintro ⟨hok, rfl⟩
    have hread : members.mapM (ofMember base) = .ok _ := mapM_eq_ok_iff.2 ⟨hok, rfl⟩
    show (members.mapM (ofMember base) >>= fun entries => _) = _
    rw [hread]
    rfl

/-- Members that are listed in the order of look-up stay as they are. -/
theorem ofMembers_of_pairwise (hok : ∀ m ∈ members, (ofMember base m).isOk = true)
    (hsorted : (entriesOf base members).Pairwise fun a b => precedes a.1 b.1 = true) :
    ofMembers base members = .ok ⟨entriesOf base members⟩ := by
  refine ofMembers_eq_ok_iff.2 ⟨hok, ?_⟩
  rw [longestFirst, List.mergeSort_of_pairwise hsorted]

/-- An object is accepted just if each of its members is. -/
theorem ofMembers_isOk_iff : (ofMembers base members).isOk = true ↔
    ∀ m ∈ members, (ofMember base m).isOk = true := by
  rw [isOk_iff_exists]
  exact ⟨fun ⟨_, h⟩ => (ofMembers_eq_ok_iff.1 h).1, fun h => ⟨_, ofMembers_eq_ok_iff.2 ⟨h, rfl⟩⟩⟩

/-- Members whose keys are normalized to the same one have the same address. -/
def Agree (base : Url) (members : List (String × String)) : Prop :=
  ∀ a ∈ entriesOf base members, ∀ b ∈ entriesOf base members, a.1 = b.1 → a.2 = b.2

instance (base : Url) (members : List (String × String)) : Decidable (Agree base members) :=
  inferInstanceAs (Decidable (∀ a ∈ entriesOf base members, ∀ b ∈ entriesOf base members,
    a.1 = b.1 → a.2 = b.2))

/-- Members in another order have the same entries, in another order. -/
theorem perm_entriesOf (h : members.Perm members') (base : Url) :
    (entriesOf base members).Perm (entriesOf base members') :=
  (h.filterMap _).filterMap _

/-- An object is read alike in any order of its members, if those that normalize alike agree. -/
theorem ofMembers_eq_ok_iff_of_perm (h : members.Perm members') (hagree : Agree base members) :
    ofMembers base members = .ok map ↔ ofMembers base members' = .ok map := by
  rw [ofMembers_eq_ok_iff, ofMembers_eq_ok_iff,
    longestFirst_eq_of_perm (perm_entriesOf h base) hagree]
  simp only [h.mem_iff]

/-- An object is accepted in any order of its members or in none. -/
theorem ofMembers_isOk_iff_of_perm (h : members.Perm members') :
    (ofMembers base members).isOk = true ↔ (ofMembers base members').isOk = true := by
  rw [ofMembers_isOk_iff, ofMembers_isOk_iff]
  simp only [h.mem_iff]

end SpecifierMap

namespace ImportMap

variable {base : Url} {source : ImportMapSource} {map : ImportMap} {start : String}
  {members members' : List (String × String)} {s : String × SpecifierMap}

/-- The scopes of an import map as written, in their order. -/
def scopesOf (base : Url) (scopes : List (String × List (String × String))) :
    List (String × SpecifierMap) :=
  scopes.filterMap fun s => (scope base s.1 s.2).toOption

/-- A scope is read just if its prefix is an address and its object is read. -/
theorem scope_eq_ok_iff : scope base start members = .ok s ↔
    ∃ url, base.join start = .ok url ∧
      ∃ map, SpecifierMap.ofMembers base members = .ok map ∧ s = (url.text, map) := by
  unfold scope
  cases base.join start with
  | error fault => simp
  | ok url =>
      cases SpecifierMap.ofMembers base members with
      | error fault => simp [Except.map]
      | ok map => simp [Except.map, eq_comm]

/-- A scope is accepted just if its prefix and its object are. -/
theorem scope_isOk_iff : (scope base start members).isOk = true ↔
    (base.join start).isOk = true ∧ (SpecifierMap.ofMembers base members).isOk = true := by
  simp only [isOk_iff_exists, scope_eq_ok_iff]
  constructor
  · rintro ⟨_, url, hurl, map, hmap, -⟩
    exact ⟨⟨url, hurl⟩, map, hmap⟩
  · rintro ⟨⟨url, hurl⟩, map, hmap⟩
    exact ⟨_, url, hurl, map, hmap, rfl⟩

/-- An import map is read just if its object and its scopes are, with all of them in order. -/
theorem ofSource_eq_ok_iff : ofSource base source = .ok map ↔
    (SpecifierMap.ofMembers base source.imports).isOk = true ∧
      (∀ s ∈ source.scopes, (scope base s.1 s.2).isOk = true) ∧
      map = ⟨⟨longestFirst (SpecifierMap.entriesOf base source.imports)⟩,
        longestFirst (scopesOf base source.scopes)⟩ := by
  constructor
  · intro h
    obtain ⟨imports, himports, h⟩ := Except.bind_eq_ok h
    obtain ⟨scopes, hscopes, h⟩ := Except.bind_eq_ok h
    obtain ⟨hok, rfl⟩ := mapM_eq_ok_iff.1 hscopes
    obtain ⟨-, rfl⟩ := SpecifierMap.ofMembers_eq_ok_iff.1 himports
    exact ⟨isOk_iff_exists.2 ⟨_, himports⟩, hok, (Except.ok.inj h).symm⟩
  · rintro ⟨himports, hscopes, rfl⟩
    obtain ⟨imports, himports⟩ := isOk_iff_exists.1 himports
    obtain ⟨-, rfl⟩ := SpecifierMap.ofMembers_eq_ok_iff.1 himports
    rw [ofSource, himports, mapM_eq_ok_iff.2 ⟨hscopes, rfl⟩]
    rfl

/-- An import map is accepted just if its object and each of its scopes are. -/
theorem ofSource_isOk_iff : (ofSource base source).isOk = true ↔
    (SpecifierMap.ofMembers base source.imports).isOk = true ∧
      ∀ s ∈ source.scopes, (scope base s.1 s.2).isOk = true := by
  rw [isOk_iff_exists]
  constructor
  · rintro ⟨map, h⟩
    obtain ⟨himports, hscopes, -⟩ := ofSource_eq_ok_iff.1 h
    exact ⟨himports, hscopes⟩
  · rintro ⟨himports, hscopes⟩
    exact ⟨_, ofSource_eq_ok_iff.2 ⟨himports, hscopes, rfl⟩⟩

/-- A map without scopes whose members are listed in the order of look-up. -/
theorem ofSource_of_pairwise
    (hok : ∀ m ∈ members, (SpecifierMap.ofMember base m).isOk = true)
    (hsorted : (SpecifierMap.entriesOf base members).Pairwise fun a b =>
      precedes a.1 b.1 = true) :
    ofSource base ⟨members, []⟩ = .ok ⟨⟨SpecifierMap.entriesOf base members⟩, []⟩ := by
  rw [ofSource, SpecifierMap.ofMembers_of_pairwise hok hsorted]
  simp [pure, Except.pure, bind, Except.bind]

end ImportMap

/-! ## Other orders -/

namespace ImportMapSource

variable {base : Url} {source source' : ImportMapSource}

/-- Two scopes as written that list the same members. -/
structure SameScope (s t : String × List (String × String)) : Prop where
  start : s.1 = t.1
  members : s.2.Perm t.2

/-- The same members in another order: of `imports`, of `scopes` and of each scope. -/
structure Reorders (source source' : ImportMapSource) : Prop where
  imports : source.imports.Perm source'.imports
  scopes : ∃ listed, source.scopes.Perm listed ∧ List.Forall₂ SameScope listed source'.scopes

/-- No two members that are the same when normalized say different things: keys in one object have
the same address, and scopes of one prefix do not map a specifier to different URLs. -/
structure Unambiguous (base : Url) (source : ImportMapSource) : Prop where
  imports : SpecifierMap.Agree base source.imports
  inScopes : ∀ s ∈ source.scopes, SpecifierMap.Agree base s.2
  scopes : ∀ s ∈ ImportMap.scopesOf base source.scopes,
    ∀ t ∈ ImportMap.scopesOf base source.scopes, s.1 = t.1 →
      ∀ specifier x y, s.2.find? specifier = some x → t.2.find? specifier = some y → x = y

section SameScopes

variable {listed scopes : List (String × List (String × String))}

/-- Scopes are accepted in any order of their members or in none. -/
theorem forall_scope_isOk_iff (h : List.Forall₂ SameScope listed scopes) (base : Url) :
    (∀ s ∈ listed, (ImportMap.scope base s.1 s.2).isOk = true) ↔
      ∀ s ∈ scopes, (ImportMap.scope base s.1 s.2).isOk = true := by
  induction h with
  | nil => simp
  | cons hst _ ih =>
      rw [List.forall_mem_cons, List.forall_mem_cons, ih, ImportMap.scope_isOk_iff,
        ImportMap.scope_isOk_iff, hst.start, SpecifierMap.ofMembers_isOk_iff_of_perm hst.members]

/-- Scopes that list the same members are read as the same scopes, if their members agree. -/
theorem scopesOf_eq_of_forall₂ (h : List.Forall₂ SameScope listed scopes)
    (hagree : ∀ s ∈ listed, SpecifierMap.Agree base s.2) :
    ImportMap.scopesOf base listed = ImportMap.scopesOf base scopes := by
  induction h with
  | nil => rfl
  | @cons s t listed scopes hst _ ih =>
      rw [List.forall_mem_cons] at hagree
      have hsame : (ImportMap.scope base s.1 s.2).toOption =
          (ImportMap.scope base t.1 t.2).toOption := by
        refine toOption_eq_of_forall fun r => ?_
        simp only [ImportMap.scope_eq_ok_iff, hst.start,
          SpecifierMap.ofMembers_eq_ok_iff_of_perm hst.members hagree.1]
      have htail := ih hagree.2
      unfold ImportMap.scopesOf at htail ⊢
      rw [List.filterMap_cons, List.filterMap_cons, hsame, htail]

end SameScopes

/-- Whether members are accepted does not depend on their order. -/
theorem Reorders.isOk_iff (h : source.Reorders source') (base : Url) :
    (ImportMap.ofSource base source).isOk = true ↔
      (ImportMap.ofSource base source').isOk = true := by
  obtain ⟨listed, hlisted, hsame⟩ := h.scopes
  rw [ImportMap.ofSource_isOk_iff, ImportMap.ofSource_isOk_iff,
    SpecifierMap.ofMembers_isOk_iff_of_perm h.imports, ← forall_scope_isOk_iff hsame]
  simp only [hlisted.mem_iff]

/-- In whatever order the members of an import map are listed, the map is refused or it is not. If
no two members that are the same when normalized say different things, it answers the same. -/
theorem Reorders.resolve?_eq (h : source.Reorders source') (base : Url) :
    (ImportMap.ofSource base source).isOk = (ImportMap.ofSource base source').isOk ∧
      (Unambiguous base source → ∀ map map', ImportMap.ofSource base source = .ok map →
        ImportMap.ofSource base source' = .ok map' → ∀ specifier referrer,
          map.resolve? specifier referrer = map'.resolve? specifier referrer) := by
  refine ⟨Bool.eq_iff_iff.2 (h.isOk_iff base), fun hunambiguous map map' hmap hmap' specifier
    referrer => ?_⟩
  obtain ⟨-, -, rfl⟩ := ImportMap.ofSource_eq_ok_iff.1 hmap
  obtain ⟨-, -, rfl⟩ := ImportMap.ofSource_eq_ok_iff.1 hmap'
  have himports := SpecifierMap.perm_entriesOf h.imports base
  obtain ⟨listed, hlisted, hsame⟩ := h.scopes
  have hscopes : (ImportMap.scopesOf base source.scopes).Perm
      (ImportMap.scopesOf base source'.scopes) := by
    rw [← scopesOf_eq_of_forall₂ hsame fun s hs =>
      hunambiguous.inScopes s (hlisted.mem_iff.2 hs)]
    exact hlisted.filterMap _
  unfold ImportMap.resolve?
  rw [longestFirst_eq_of_perm himports hunambiguous.imports]
  refine congrArg (Option.bind _) (funext fun s => ?_)
  dsimp only
  rw [findSome?_longestFirst_eq_of_perm hscopes fun a ha b hb hkey x y hx hy => ?_]
  rw [hkey] at hx
  split at hx
  · rw [if_pos ‹_›] at hy
    exact hunambiguous.scopes a ha b hb hkey s x y hx hy
  · cases hx

/-- A local URL. -/
def localUrl (segments : List String) : Url :=
  ⟨"file", some (.ofHost ""), .segments segments, none, none⟩

/-- The URL of an application. -/
def appBase : Url :=
  localUrl ["app", ""]

/-- Two keys that are one URL, with the same address, and two scopes of one prefix. -/
def spelledTwice : ImportMapSource :=
  ⟨[("./a.js", "/x.js"), ("file:///app/a.js", "/x.js"), ("lib/", "/vendor/")],
    [("/app/", [("b", "/b.js")]), ("../app/", [("c", "/c.js")])]⟩

/-- The members of `spelledTwice` from the last to the first. -/
def spelledBackwards : ImportMapSource :=
  ⟨spelledTwice.imports.reverse, spelledTwice.scopes.reverse⟩

/-- The second list has the members of the first in another order. -/
theorem reorders_spelledBackwards : spelledTwice.Reorders spelledBackwards :=
  ⟨(List.reverse_perm _).symm, spelledTwice.scopes.reverse, (List.reverse_perm _).symm,
    List.forall₂_same.2 fun _ _ => ⟨rfl, .refl _⟩⟩

/-- Both scopes are read under the same prefix. -/
theorem scopesOf_spelledTwice : ImportMap.scopesOf appBase spelledTwice.scopes =
    [(appBase.text, ⟨[("b", localUrl ["b.js"])]⟩),
      (appBase.text, ⟨[("c", localUrl ["c.js"])]⟩)] := by
  have hscope : ∀ start name address url, appBase.join start = .ok appBase →
      SpecifierMap.ofMember appBase (name, address) = .ok (some (name, url)) →
      ImportMap.scope appBase start [(name, address)] = .ok (appBase.text, ⟨[(name, url)]⟩) := by
    intro start name address url hstart hentry
    refine ImportMap.scope_eq_ok_iff.2
      ⟨_, hstart, _, SpecifierMap.ofMembers_eq_ok_iff.2 ⟨?_, rfl⟩, ?_⟩
    · simp [hentry, Except.isOk, Except.toBool]
    · simp [SpecifierMap.entriesOf, hentry, Except.toOption, List.reduceOption, longestFirst]
  have hb := hscope "/app/" "b" "/b.js" (localUrl ["b.js"]) (by decide +kernel) (by decide +kernel)
  have hc := hscope "../app/" "c" "/c.js" (localUrl ["c.js"]) (by decide +kernel)
    (by decide +kernel)
  simp [ImportMap.scopesOf, spelledTwice, hb, hc, Except.toOption]

/-- The members that normalize alike say the same. -/
theorem unambiguous_spelledTwice : Unambiguous appBase spelledTwice := by
  have hagree : ∀ s ∈ spelledTwice.scopes, SpecifierMap.Agree appBase s.2 := by
    decide +kernel
  refine ⟨by decide +kernel, hagree, ?_⟩
  rw [scopesOf_spelledTwice]
  -- one scope maps `b` only and the other one `c` only
  have hname : ∀ {name url specifier x}, endsInSlash name = false →
      (⟨[(name, url)]⟩ : SpecifierMap).find? specifier = some x → specifier = name := by
    intro name url specifier x hslash h
    by_contra hne
    simp [SpecifierMap.find?, SpecifierMap.answer?, Ne.symm hne, hslash] at h
  have hb : endsInSlash "b" = false := by decide
  have hc : endsInSlash "c" = false := by decide
  intro s hs t ht _ specifier x y hx hy
  simp only [List.mem_cons, List.not_mem_nil, or_false] at hs ht
  rcases hs with rfl | rfl <;> rcases ht with rfl | rfl
  · exact Option.some.inj (hx.symm.trans hy)
  · exact absurd ((hname hb hx).symm.trans (hname hc hy)) (by decide)
  · exact absurd ((hname hc hx).symm.trans (hname hb hy)) (by decide)
  · exact Option.some.inj (hx.symm.trans hy)

/-- Both orders of the members are accepted and answer alike. -/
theorem resolve?_eq_spelledTwice :
    spelledTwice.Reorders spelledBackwards ∧ Unambiguous appBase spelledTwice ∧
      (ImportMap.ofSource appBase spelledTwice).isOk = true ∧
      (ImportMap.ofSource appBase spelledBackwards).isOk = true ∧
      ∀ map map', ImportMap.ofSource appBase spelledTwice = .ok map →
        ImportMap.ofSource appBase spelledBackwards = .ok map' → ∀ specifier referrer,
          map.resolve? specifier referrer = map'.resolve? specifier referrer := by
  obtain ⟨hok, hsame⟩ := reorders_spelledBackwards.resolve?_eq appBase
  have haccepted : (ImportMap.ofSource appBase spelledTwice).isOk = true := by
    decide +kernel
  exact ⟨reorders_spelledBackwards, unambiguous_spelledTwice, haccepted, hok ▸ haccepted,
    hsame unambiguous_spelledTwice⟩

/-- Two keys that are one URL, with different addresses. -/
def colliding : ImportMapSource :=
  ⟨[("./a.js", "/x.js"), ("file:///app/a.js", "/y.js")], []⟩

/-- The members of `colliding` from the last to the first. -/
def collidingBackwards : ImportMapSource :=
  ⟨colliding.imports.reverse, []⟩

/-- Of two keys that are one URL the first one counts, so that their order matters. -/
theorem exists_resolve?_ne : colliding.Reorders collidingBackwards ∧
    ∃ map map', ImportMap.ofSource appBase colliding = .ok map ∧
      ImportMap.ofSource appBase collidingBackwards = .ok map' ∧
      map.resolve? "./a.js" appBase = some (localUrl ["x.js"]).text ∧
      map'.resolve? "./a.js" appBase = some (localUrl ["y.js"]).text := by
  refine ⟨⟨(List.reverse_perm _).symm, [], .refl _, .nil⟩, _, _,
    ImportMap.ofSource_of_pairwise (by decide +kernel) (by decide +kernel),
    ImportMap.ofSource_of_pairwise (by decide +kernel) (by decide +kernel),
    by decide +kernel, by decide +kernel⟩

end ImportMapSource

end ModuleGraph
