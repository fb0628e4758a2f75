import ModuleGraph.Proofs.MemberOrder
import Mathlib.Data.List.MinMax

/-!
# The longest key answers

What an import map answers, as it is meant: the longest key that is about a specifier answers for
its object, and of the scopes that hold the referrer the longest one that has an answer
(`ImportMapSource.longestAnswer?`). An import map scans lists that are sorted when it is read.
`ImportMap.resolve?_eq_longestAnswer?` says that this comes to the same, as long as the keys of an
object are distinct when normalized, and so are the scopes.

The lists are sorted by length in bytes. All keys about one specifier are leading parts of it, and
of these the one with more characters has more bytes (`length_le_of_utf8ByteSize_le`).
-/

namespace ModuleGraph

/-! ## Keys about a text -/

/-- A key is about a text: it is the text, or it ends in a slash and is a leading part of it. -/
def Covers (key text : String) : Prop :=
  key = text ∨ endsInSlash key = true ∧ key.toList <+: text.toList

instance : DecidableRel Covers := fun key text =>
  inferInstanceAs (Decidable (key = text ∨ endsInSlash key = true ∧ key.toList <+: text.toList))

section Covers

variable {a b key text : String}

/-- A key that is about a text is a leading part of it. -/
theorem Covers.isPrefix (h : Covers key text) : key.toList <+: text.toList := by
  rcases h with rfl | ⟨-, h⟩
  · exact List.prefix_rfl
  · exact h

/-- A referrer is in the scopes whose prefixes are about it. -/
theorem inScope_iff : ImportMap.inScope text key = true ↔ Covers key text := by
  simp only [ImportMap.inScope, Covers, Bool.or_eq_true, Bool.and_eq_true, beq_iff_eq,
    List.isPrefixOf_iff_prefix, @eq_comm _ key]

/-- Of two leading parts of a text, the one with more bytes does not have fewer characters. -/
theorem length_le_of_utf8ByteSize_le (ha : a.toList <+: text.toList) (hb : b.toList <+: text.toList)
    (h : b.utf8ByteSize ≤ a.utf8ByteSize) : b.length ≤ a.length := by
  by_contra hlonger
  rw [Nat.not_le, ← String.length_toList, ← String.length_toList] at hlonger
  obtain ⟨rest, hrest⟩ := List.prefix_of_prefix_length_le ha hb hlonger.le
  have hb : b = a ++ String.ofList rest := by
    rw [← String.toList_inj]
    simp [hrest]
  have hempty : (String.ofList rest).utf8ByteSize = 0 := by
    rw [hb, String.utf8ByteSize_append] at h
    omega
  rw [String.utf8ByteSize_eq_zero_iff] at hempty
  rw [hb, hempty, String.append_empty] at hlonger
  exact Nat.lt_irrefl _ hlonger

/-- Keys of one length about the same text are the same. -/
theorem Covers.eq_of_length_eq (ha : Covers a text) (hb : Covers b text)
    (h : a.length = b.length) : a = b := by
  rw [← String.length_toList, ← String.length_toList] at h
  have hbegins := List.prefix_of_prefix_length_le ha.isPrefix hb.isPrefix h.le
  exact String.toList_inj.1 (hbegins.eq_of_length h)

/-- Of two keys about a text, the one that comes first is no shorter. -/
theorem Covers.length_le (ha : Covers a text) (hb : Covers b text) (h : precedes a b = true) :
    b.length ≤ a.length := by
  refine length_le_of_utf8ByteSize_le ha.isPrefix hb.isPrefix ?_
  rcases precedes_iff.1 h with h | ⟨h, -⟩ <;> omega

end Covers

/-! ## Sorted lists -/

section LongestFirst

variable {α β : Type} {l : List (String × α)} {text : String}

/-- Of pairs with distinct keys about a text, the key tells which pair it is. -/
theorem eq_of_covers {a b : String × α} (hkeys : (l.map Prod.fst).Nodup) (ha : a ∈ l) (hb : b ∈ l)
    (hcovers : Covers a.1 text) (hcovers' : Covers b.1 text) (h : a.1.length = b.1.length) :
    a = b :=
  List.inj_on_of_nodup_map hkeys ha hb (hcovers.eq_of_length_eq hcovers' h)

/-- Pairs from the one with the longest key to the one with the shortest. -/
def byLength (l : List (String × α)) : List (String × α) :=
  l.mergeSort fun a b => b.1.length ≤ a.1.length

/-- Sorted pairs go from longer keys to shorter ones. -/
theorem pairwise_byLength (l : List (String × α)) :
    (byLength l).Pairwise fun a b => b.1.length ≤ a.1.length := by
  have htotal : ∀ a b : String × α,
      (decide (b.1.length ≤ a.1.length) || decide (a.1.length ≤ b.1.length)) = true := by
    intro a b
    rcases Nat.le_total b.1.length a.1.length with h | h <;> simp [h]
  have hsorted := @List.pairwise_mergeSort (String × α) (fun a b => b.1.length ≤ a.1.length)
    (fun _ _ _ hab hbc => decide_eq_true (Nat.le_trans (of_decide_eq_true hbc)
      (of_decide_eq_true hab))) htotal l
  exact hsorted.imp of_decide_eq_true

/-- Among the pairs whose keys are about one text, the order of look-up is that of length. -/
theorem filter_longestFirst (hkeys : (l.map Prod.fst).Nodup) (text : String) :
    (longestFirst l).filter (fun a => Covers a.1 text) =
      byLength (l.filter fun a => Covers a.1 text) := by
  have hperm : ((longestFirst l).filter fun a => Covers a.1 text).Perm
      (byLength (l.filter fun a => Covers a.1 text)) :=
    ((perm_longestFirst l).filter _).trans (List.mergeSort_perm _ _).symm
  have hmem : ∀ {a}, a ∈ (longestFirst l).filter (fun a => Covers a.1 text) →
      a ∈ l ∧ Covers a.1 text := by
    intro a ha
    obtain ⟨hsorted, hcovers⟩ := List.mem_filter.1 ha
    exact ⟨(perm_longestFirst l).mem_iff.1 hsorted, of_decide_eq_true hcovers⟩
  refine hperm.eq_of_pairwise (fun a b ha hb hab hba => ?_)
    (((pairwise_longestFirst l).filter _).imp_of_mem fun ha hb hleads => ?_) (pairwise_byLength _)
  · obtain ⟨ha, hcovers⟩ := hmem ha
    obtain ⟨hb, hcovers'⟩ := hmem (hperm.mem_iff.2 hb)
    exact eq_of_covers hkeys ha hb hcovers hcovers' (Nat.le_antisymm hba hab)
  · exact (hmem ha).2.length_le (hmem hb).2 hleads

end LongestFirst

/-! ## Objects -/

namespace SpecifierMap

variable {entries : List (String × Url)} {specifier : String}

/-- What the entry of a key that is about a specifier says: the address for the key itself, and
otherwise the rest of the specifier joined to the address. -/
def answerOf (specifier : String) (entry : String × Url) : Option String :=
  if entry.1 = specifier then some entry.2.text
  else
    (entry.2.join (String.ofList (specifier.toList.drop entry.1.length))).toOption.map Url.text

/-- The entry with the longest key that is about a specifier. -/
def longest? (entries : List (String × Url)) (specifier : String) : Option (String × Url) :=
  (entries.filter fun e => Covers e.1 specifier).argmax fun e => e.1.length

/-- The answer of the longest key. -/
def longestAnswer? (entries : List (String × Url)) (specifier : String) : Option String :=
  (longest? entries specifier).bind (answerOf specifier)

/-- The entry of a key that is about a specifier answers. -/
theorem answer?_of_covers {entry : String × Url} (h : Covers entry.1 specifier) :
    answer? specifier entry = some (answerOf specifier entry) := by
  unfold answer? answerOf
  split
  · rfl
  · next hne =>
      obtain ⟨hslash, hleads⟩ := h.resolve_left hne
      rw [if_pos hslash, dropLeading?, if_pos (List.isPrefixOf_iff_prefix.2 hleads),
        String.length_toList]
      rfl

/-- The entry of a key that is not about a specifier does not answer. -/
theorem answer?_of_not_covers {entry : String × Url} (h : ¬Covers entry.1 specifier) :
    answer? specifier entry = none := by
  rw [Covers, not_or, not_and] at h
  unfold answer?
  rw [if_neg h.1]
  split
  · next hslash =>
      rw [dropLeading?, if_neg fun hleads => h.2 hslash (List.isPrefixOf_iff_prefix.1 hleads)]
      rfl
  · rfl

/-- An entry answers just if its key is about the specifier, and says what the key does. -/
theorem answer?_eq_some_iff {entry : String × Url} {answer : Option String} :
    answer? specifier entry = some answer ↔
      Covers entry.1 specifier ∧ answer = answerOf specifier entry := by
  by_cases h : Covers entry.1 specifier
  · simp [answer?_of_covers h, h, eq_comm]
  · simp [answer?_of_not_covers h, h]

/-- No key is the longest one just if none is about the specifier. -/
theorem longest?_eq_none_iff :
    longest? entries specifier = none ↔ ∀ e ∈ entries, ¬Covers e.1 specifier := by
  simp [longest?]

/-- The longest key is found where it stands for itself alone. -/
theorem longest?_eq_some {entry : String × Url} (hkeys : (entries.map Prod.fst).Nodup)
    (hentry : entry ∈ entries) (hcovers : Covers entry.1 specifier)
    (h : ∀ e ∈ entries, Covers e.1 specifier → e.1.length ≤ entry.1.length) :
    longest? entries specifier = some entry := by
  have hmem : ∀ {e}, e ∈ entries.filter (fun e => Covers e.1 specifier) ↔
      e ∈ entries ∧ Covers e.1 specifier := by
    simp
  refine List.argmax_eq_some_iff.2
    ⟨hmem.2 ⟨hentry, hcovers⟩, fun e he => ?_, fun e he hlonger => ?_⟩
  · exact h e (hmem.1 he).1 (hmem.1 he).2
  · obtain ⟨he, hcovers'⟩ := hmem.1 he
    rw [eq_of_covers hkeys hentry he hcovers hcovers'
      (Nat.le_antisymm hlonger (h e he hcovers'))]

/-- Looked up in sorted entries, a specifier has the answer of the longest key about it. -/
theorem find?_longestFirst (hkeys : (entries.map Prod.fst).Nodup) (specifier : String) :
    find? ⟨longestFirst entries⟩ specifier = longestAnswer? entries specifier := by
  unfold find? longestAnswer?
  dsimp only
  cases hfirst : (longestFirst entries).findSome? (answer? specifier) with
  | none =>
      have hnone : ∀ e ∈ entries, ¬Covers e.1 specifier := by
        intro e he hcovers
        have hanswer := List.findSome?_eq_none_iff.1 hfirst e ((perm_longestFirst _).mem_iff.2 he)
        rw [answer?_of_covers hcovers] at hanswer
        cases hanswer
      rw [longest?_eq_none_iff.2 hnone]
      rfl
  | some answer =>
      obtain ⟨entry, hentry, hanswer, hleads⟩ := exists_first hfirst
      obtain ⟨hcovers, rfl⟩ := answer?_eq_some_iff.1 hanswer
      rw [longest?_eq_some hkeys hentry hcovers fun e he hcovers' => ?_]
      · rfl
      · exact hcovers.length_le hcovers' (hleads e he (by simp [answer?_of_covers hcovers']))

end SpecifierMap

/-! ## Import maps -/

namespace ImportMapSource

/-- The scopes of an import map as written, each by its prefix, with their entries. -/
def scopeEntries (base : Url) (source : ImportMapSource) :
    List (String × List (String × Url)) :=
  source.scopes.filterMap fun s =>
    (base.join s.1).toOption.map fun url => (url.text, SpecifierMap.entriesOf base s.2)

/-- The scopes that hold a referrer, from the longest to the shortest. -/
def scopesOver (base : Url) (source : ImportMapSource) (referrer : Url) :
    List (String × List (String × Url)) :=
  byLength ((source.scopeEntries base).filter fun s => Covers s.1 referrer.text)

/-- The URL that an import map is meant to give for a specifier: of the scopes that hold the
referrer the first one answers that can, from the longest to the shortest, and otherwise `imports`
does. -/
def longestAnswer? (base : Url) (source : ImportMapSource) (specifier : String) (referrer : Url) :
    Option String :=
  (normalizeSpecifier? specifier referrer).bind fun specifier =>
    ((source.scopesOver base referrer).findSome? fun s =>
      SpecifierMap.longestAnswer? s.2 specifier).or
      (SpecifierMap.longestAnswer? (SpecifierMap.entriesOf base source.imports) specifier)

/-- The keys of each object are distinct when normalized, and so are the prefixes of the scopes. -/
structure Distinct (base : Url) (source : ImportMapSource) : Prop where
  imports : ((SpecifierMap.entriesOf base source.imports).map Prod.fst).Nodup
  inScopes : ∀ s ∈ source.scopes, ((SpecifierMap.entriesOf base s.2).map Prod.fst).Nodup
  scopes : ((source.scopeEntries base).map Prod.fst).Nodup

end ImportMapSource

namespace ImportMap

variable {base : Url} {source : ImportMapSource} {map : ImportMap} {text : String}

/-- The scopes of a map that is accepted are those that are written. -/
theorem scopesOf_eq_map (hok : ∀ s ∈ source.scopes, (scope base s.1 s.2).isOk = true) :
    scopesOf base source.scopes =
      (source.scopeEntries base).map fun s => (s.1, ⟨longestFirst s.2⟩) := by
  rw [ImportMapSource.scopeEntries, List.map_filterMap]
  refine List.filterMap_congr fun s hs => ?_
  obtain ⟨r, hr⟩ := isOk_iff_exists.1 (hok s hs)
  obtain ⟨url, hurl, map, hmap, rfl⟩ := scope_eq_ok_iff.1 hr
  obtain ⟨-, rfl⟩ := SpecifierMap.ofMembers_eq_ok_iff.1 hmap
  rw [hr, hurl]
  rfl

/-- Each scope of an import map has the entries of a scope that is written. -/
theorem mem_scopeEntries {s : String × List (String × Url)} (h : s ∈ source.scopeEntries base) :
    ∃ written ∈ source.scopes, s.2 = SpecifierMap.entriesOf base written.2 := by
  obtain ⟨written, hwritten, hs⟩ := List.mem_filterMap.1 h
  obtain ⟨url, -, rfl⟩ := Option.map_eq_some_iff.1 hs
  exact ⟨written, hwritten, rfl⟩

/-- The first scope that holds the referrer and has an answer is the longest one. -/
theorem findSome?_scopes (hok : ∀ s ∈ source.scopes, (scope base s.1 s.2).isOk = true)
    (hdistinct : source.Distinct base) (specifier : String) (referrer : Url) :
    ((longestFirst (scopesOf base source.scopes)).findSome? fun s =>
        if inScope referrer.text s.1 then s.2.find? specifier else none) =
      (source.scopesOver base referrer).findSome? fun s =>
        SpecifierMap.longestAnswer? s.2 specifier := by
  have hsorted : longestFirst (scopesOf base source.scopes) =
      (longestFirst (source.scopeEntries base)).map fun s => (s.1, ⟨longestFirst s.2⟩) := by
    rw [scopesOf_eq_map hok, longestFirst, longestFirst, List.map_mergeSort]
    exact fun _ _ _ _ => rfl
  have hanswers : ∀ s ∈ longestFirst (source.scopeEntries base),
      SpecifierMap.find? ⟨longestFirst s.2⟩ specifier =
        SpecifierMap.longestAnswer? s.2 specifier := by
    intro s hs
    obtain ⟨written, hwritten, hentries⟩ := mem_scopeEntries ((perm_longestFirst _).mem_iff.1 hs)
    exact SpecifierMap.find?_longestFirst
      (hentries ▸ hdistinct.inScopes written hwritten) specifier
  rw [hsorted, List.findSome?_map, ImportMapSource.scopesOver,
    ← filter_longestFirst hdistinct.scopes]
  generalize longestFirst (source.scopeEntries base) = l at hanswers
  induction l with
  | nil => rfl
  | cons s l ih =>
      rw [List.forall_mem_cons] at hanswers
      by_cases hs : Covers s.1 referrer.text
      · rw [List.filter_cons_of_pos (by simpa using hs), List.findSome?_cons, List.findSome?_cons,
          ih hanswers.2]
        simp [inScope_iff.2 hs, hanswers.1]
      · simp [hs, mt inScope_iff.1 hs, ih hanswers.2]

/-- An import map answers as it is meant: by the longest key of the longest scope that has an
answer, and otherwise by the longest key of `imports`. -/
theorem resolve?_eq_longestAnswer? (htext : ImportMapSource.ofText text = .ok source)
    (h : ofJson text base = .ok map) (hdistinct : source.Distinct base) (specifier : String)
    (referrer : Url) :
    map.resolve? specifier referrer = source.longestAnswer? base specifier referrer := by
  have hsource : ofSource base source = .ok map := by
    rw [ofJson, htext] at h
    exact h
  obtain ⟨-, hscopes, rfl⟩ := ofSource_eq_ok_iff.1 hsource
  unfold resolve? ImportMapSource.longestAnswer?
  refine congrArg (Option.bind _) (funext fun s => ?_)
  dsimp only
  rw [findSome?_scopes hscopes hdistinct, SpecifierMap.find?_longestFirst hdistinct.imports]

/-- An import map with nested keys and nested scopes. One key is not ASCII. -/
def nestedText : String :=
  "\x7b\"imports\": \x7b\"lib/\": \"/src/\", \"lib/ü/\": \"/u/\"\x7d,
    \"scopes\": \x7b\"/app/sub/\": \x7b\"lib/ü/\": \"/sub/\"\x7d,
      \"/app/\": \x7b\"lib/\": \"/top/\", \"lib/x\": \"/x.js\"\x7d\x7d\x7d"

/-- The members of `nestedText`. -/
def nestedSource : ImportMapSource :=
  ⟨[("lib/", "/src/"), ("lib/ü/", "/u/")],
    [("/app/sub/", [("lib/ü/", "/sub/")]), ("/app/", [("lib/", "/top/"), ("lib/x", "/x.js")])]⟩

/-- The rest of a specifier is no reference for the longest key of the longest scope, and the scope
around it answers. -/
theorem resolve?_eq_longestAnswer?_nested :
    ImportMapSource.ofText nestedText = .ok nestedSource ∧
      nestedSource.Distinct ImportMapSource.appBase ∧
      ∃ map, ofJson nestedText ImportMapSource.appBase = .ok map ∧
        (∀ specifier referrer, map.resolve? specifier referrer =
          nestedSource.longestAnswer? ImportMapSource.appBase specifier referrer) ∧
        map.resolve? "lib/ü/https://[" (ImportMapSource.localUrl ["app", "sub", "main.js"]) =
          some "file:///top/%C3%BC/https://[" := by
  have htext : ImportMapSource.ofText nestedText = .ok nestedSource := by
    decide +kernel
  have hdistinct : nestedSource.Distinct ImportMapSource.appBase :=
    ⟨by decide +kernel, by decide +kernel, by decide +kernel⟩
  obtain ⟨map, hmap⟩ : ∃ map, ofJson nestedText ImportMapSource.appBase = .ok map :=
    isOk_iff_exists.1 (by decide +kernel)
  have hanswers := resolve?_eq_longestAnswer? htext hmap hdistinct
  refine ⟨htext, hdistinct, map, hmap, hanswers, ?_⟩
  have hscopes : nestedSource.scopesOver ImportMapSource.appBase
      (ImportMapSource.localUrl ["app", "sub", "main.js"]) =
        nestedSource.scopeEntries ImportMapSource.appBase := by
    rw [ImportMapSource.scopesOver, List.filter_eq_self.2 (by decide +kernel), byLength,
      List.mergeSort_of_pairwise (by decide +kernel)]
  rw [hanswers, ImportMapSource.longestAnswer?, hscopes]
  decide +kernel

end ImportMap

end ModuleGraph
