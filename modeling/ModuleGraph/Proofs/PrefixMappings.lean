import ModuleGraph.Proofs.LongestKeys
import ModuleGraph.Proofs.UrlDescents

/-!
# Mappings of prefixes

A key of an import map that ends in a slash maps all specifiers that it is a leading part of: what
is left of the specifier is joined to the address of the key. `ImportMap.through?` tells by which
key and address an import map answers.

The address ends in a slash, but this does not confine what is joined to it. The rest of a specifier
may be any reference, which leads up, to another place on the host or anywhere
(`ImportMap.exists_not_confined`). Where it is a path that stays inside, the URL does begin with the
address (`ImportMap.confined`).
-/

namespace ModuleGraph

/-- A specifier, the key and the address that map it, and the URL that it is mapped to. -/
structure Mapping where
  specifier : String
  key : String
  address : Url
  url : String
deriving DecidableEq, Repr

namespace SpecifierMap

variable {map : SpecifierMap} {specifier : String} {m : Mapping}

/-- The mapping of a normalized specifier: by the first entry that is about it, if this has an
answer. -/
def through? (map : SpecifierMap) (specifier : String) : Option Mapping :=
  (map.entries.find? fun e => Covers e.1 specifier).bind fun e =>
    (answerOf specifier e).map fun url => ⟨specifier, e.1, e.2, url⟩

/-- The mapping of a specifier leads to the URL that the map finds for it. -/
theorem map_url_through? (map : SpecifierMap) (specifier : String) :
    (map.through? specifier).map Mapping.url = map.find? specifier := by
  obtain ⟨entries⟩ := map
  unfold through? find?
  dsimp only
  induction entries with
  | nil => rfl
  | cons e entries ih =>
      by_cases he : Covers e.1 specifier
      · simp [he, answer?_of_covers he, Function.comp_def]
      · simpa [he, answer?_of_not_covers he] using ih

/-- A mapping is by an entry of the map. -/
theorem of_through? (h : map.through? specifier = some m) :
    m.specifier = specifier ∧ (m.key, m.address) ∈ map.entries ∧ Covers m.key specifier ∧
      answerOf specifier (m.key, m.address) = some m.url := by
  obtain ⟨e, he, h⟩ := Option.bind_eq_some_iff.1 h
  obtain ⟨url, hurl, rfl⟩ := Option.map_eq_some_iff.1 h
  exact ⟨rfl, List.mem_of_find?_eq_some he, by simpa using List.find?_some he, hurl⟩

/-- The address of an entry is a URL that is relative to the base of the map, and behind a key that
ends in a slash it ends in one. -/
theorem of_mem_entriesOf {base : Url} {members : List (String × String)} {e : String × Url}
    (h : e ∈ entriesOf base members) :
    ∃ address, base.join address = .ok e.2 ∧
      (endsInSlash e.1 = true → endsInSlash e.2.text = true) := by
  obtain ⟨written, -, hmember⟩ := List.mem_filterMap.1 (List.reduceOption_mem_iff.1 h)
  replace hmember := toOption_eq_some_iff.1 hmember
  unfold ofMember SpecifierMap.entry? at hmember
  split at hmember
  · cases hmember
  · split at hmember
    · cases hmember
    · next url hurl =>
        split at hmember
        · cases hmember
        · next hslash =>
            cases hmember
            exact ⟨_, hurl, by simpa using hslash⟩

end SpecifierMap

namespace ImportMap

variable {base referrer : Url} {text specifier : String} {map : ImportMap} {m : Mapping}

/-- The mapping of a specifier that is written in the module of a referring URL. -/
def through? (map : ImportMap) (specifier : String) (referrer : Url) : Option Mapping := do
  let specifier ← normalizeSpecifier? specifier referrer
  let inScopes := map.scopes.findSome? fun s =>
    if inScope referrer.text s.1 then s.2.through? specifier else none
  inScopes.or (map.imports.through? specifier)

/-- The mapping is the one by which a map answers. -/
theorem map_url_through? (map : ImportMap) (specifier : String) (referrer : Url) :
    (map.through? specifier referrer).map Mapping.url = map.resolve? specifier referrer := by
  unfold through? resolve?
  cases normalizeSpecifier? specifier referrer with
  | none => rfl
  | some s =>
      have hscopes : (map.scopes.findSome? fun scope =>
            if inScope referrer.text scope.1 then scope.2.through? s else none).map Mapping.url =
          map.scopes.findSome? fun scope =>
            if inScope referrer.text scope.1 then scope.2.find? s else none := by
        rw [List.map_findSome?]
        congr 1
        funext scope
        rw [Function.comp_apply, apply_ite (Option.map Mapping.url),
          SpecifierMap.map_url_through?, Option.map_none]
      show Option.map Mapping.url (Option.or _ _) = Option.or _ _
      rw [Option.map_or, SpecifierMap.map_url_through?, hscopes]

/-- A mapping is by an entry of `imports` or of a scope. -/
theorem of_through? (h : map.through? specifier referrer = some m) :
    normalizeSpecifier? specifier referrer = some m.specifier ∧
      ∃ object, (object = map.imports ∨ ∃ start, (start, object) ∈ map.scopes) ∧
        object.through? m.specifier = some m := by
  obtain ⟨s, hs, h⟩ := Option.bind_eq_some_iff.1 h
  rcases Option.or_eq_some_iff.1 h with hscope | ⟨-, himports⟩
  · obtain ⟨scope, hmem, hscope⟩ := List.exists_of_findSome?_eq_some hscope
    split at hscope
    · obtain ⟨rfl, -⟩ := SpecifierMap.of_through? hscope
      exact ⟨hs, scope.2, .inr ⟨scope.1, hmem⟩, hscope⟩
    · cases hscope
  · obtain ⟨rfl, -⟩ := SpecifierMap.of_through? himports
    exact ⟨hs, map.imports, .inl rfl, himports⟩

/-- What a map that has been read answers by has been written as members of an object. -/
theorem exists_members (h : ofJson text base = .ok map) {object : SpecifierMap}
    (hobject : object = map.imports ∨ ∃ start, (start, object) ∈ map.scopes) :
    ∃ members, SpecifierMap.ofMembers base members = .ok object := by
  obtain ⟨source, -, hsource⟩ := Except.bind_eq_ok h
  obtain ⟨himports, -, rfl⟩ := ofSource_eq_ok_iff.1 hsource
  rcases hobject with rfl | ⟨start, hscope⟩
  · obtain ⟨object, hread⟩ := isOk_iff_exists.1 himports
    obtain ⟨-, rfl⟩ := SpecifierMap.ofMembers_eq_ok_iff.1 hread
    exact ⟨_, hread⟩
  · obtain ⟨written, -, hscope⟩ := List.mem_filterMap.1 ((perm_longestFirst _).mem_iff.1 hscope)
    obtain ⟨_, _, _, hobject, heq⟩ := scope_eq_ok_iff.1 (toOption_eq_some_iff.1 hscope)
    obtain ⟨-, rfl⟩ := Prod.mk.inj heq
    exact ⟨_, hobject⟩

/-- A specifier behind a key that ends in a slash is mapped to the rest of it, joined to the address
of the key. If the address has neither query nor fragment and the rest stays inside of it, the URL
begins with the address. -/
theorem confined {written : String} (hbase : Url.parse written = .ok base)
    (h : ofJson text base = .ok map) (hm : map.through? specifier referrer = some m)
    (hslash : endsInSlash m.key = true) (hproper : m.key ≠ m.specifier) :
    normalizeSpecifier? specifier referrer = some m.specifier ∧
      map.resolve? specifier referrer = some m.url ∧
      ∃ rest url, m.specifier = m.key ++ rest ∧ rest ≠ "" ∧ m.address.join rest = .ok url ∧
        m.url = url.text ∧
        (m.address.query = none → m.address.fragment = none → m.address.Descends rest →
          m.address.text.toList <+: m.url.toList) := by
  obtain ⟨hspecifier, object, hobject, hthrough⟩ := of_through? hm
  obtain ⟨members, hmembers⟩ := exists_members h hobject
  obtain ⟨-, rfl⟩ := SpecifierMap.ofMembers_eq_ok_iff.1 hmembers
  obtain ⟨-, hentry, hcovers, hanswer⟩ := SpecifierMap.of_through? hthrough
  obtain ⟨address, hjoin, haddress⟩ :=
    SpecifierMap.of_mem_entriesOf ((perm_longestFirst _).mem_iff.1 hentry)
  have hread := Url.hasReadPath_join (Url.hasReadPath_parse hbase) hjoin
  obtain ⟨rest, hrest⟩ := hcovers.isPrefix
  have hwhole : m.specifier = m.key ++ String.ofList rest := by
    rw [← String.toList_inj]
    simp [hrest]
  rw [SpecifierMap.answerOf, if_neg hproper, ← hrest, ← String.length_toList, List.drop_left]
    at hanswer
  obtain ⟨url, hurl, htext⟩ := Option.map_eq_some_iff.1 hanswer
  have hjoined := toOption_eq_some_iff.1 hurl
  refine ⟨hspecifier, ?_, String.ofList rest, url, hwhole, ?_, hjoined, htext.symm,
    fun hquery hfragment hdescends => ?_⟩
  · rw [← map_url_through?, hm]
    rfl
  · intro hempty
    rw [hwhole, hempty, String.append_empty] at hproper
    exact hproper rfl
  · rw [← htext]
    exact Url.join_isPrefix hread (haddress hslash) hquery hfragment hdescends hjoined

/-- An import map with prefixes. One of its addresses has a query. -/
def prefixText : String :=
  "\x7b\"imports\": \x7b\"lib/\": \"/vendor/\", \"q/\": \"/?a/\"\x7d\x7d"

/-- The address of `lib/`. -/
def vendor : Url :=
  ImportMapSource.localUrl ["vendor", ""]

/-- The address of `q/`. -/
def queried : Url :=
  { ImportMapSource.localUrl [""] with query := some "a/" }

/-- The map of `prefixText`. -/
def prefixMap : ImportMap :=
  ⟨⟨[("lib/", vendor), ("q/", queried)]⟩, []⟩

/-- The map that is read from the text. -/
theorem ofJson_prefixText : ofJson prefixText ImportMapSource.appBase = .ok prefixMap := by
  have htext : ImportMapSource.ofText prefixText =
      .ok ⟨[("lib/", "/vendor/"), ("q/", "/?a/")], []⟩ := by
    decide +kernel
  have hentries : SpecifierMap.entriesOf ImportMapSource.appBase
      [("lib/", "/vendor/"), ("q/", "/?a/")] = [("lib/", vendor), ("q/", queried)] := by
    decide +kernel
  have hread := @ofSource_of_pairwise ImportMapSource.appBase
    [("lib/", "/vendor/"), ("q/", "/?a/")] (by decide +kernel) (hentries ▸ by decide +kernel)
  rw [hentries] at hread
  rw [ofJson, htext]
  exact hread

/-- A path that stays inside is mapped to a URL that begins with the address. -/
theorem confined_vendor :
    Url.parse ImportMapSource.appBase.text = .ok ImportMapSource.appBase ∧
      ofJson prefixText ImportMapSource.appBase = .ok prefixMap ∧
      prefixMap.through? "lib/a/../b" ImportMapSource.appBase =
        some ⟨"lib/a/../b", "lib/", vendor, "file:///vendor/b"⟩ ∧
      endsInSlash "lib/" = true ∧ "lib/" ≠ "lib/a/../b" ∧
      (vendor.query = none ∧ vendor.fragment = none ∧ vendor.Descends "a/../b") ∧
      normalizeSpecifier? "lib/a/../b" ImportMapSource.appBase = some "lib/a/../b" ∧
      prefixMap.resolve? "lib/a/../b" ImportMapSource.appBase = some "file:///vendor/b" ∧
      ∃ rest url, "lib/a/../b" = "lib/" ++ rest ∧ rest ≠ "" ∧ vendor.join rest = .ok url ∧
        "file:///vendor/b" = url.text ∧
        (vendor.query = none → vendor.fragment = none → vendor.Descends rest →
          vendor.text.toList <+: "file:///vendor/b".toList) := by
  have hbase : Url.parse ImportMapSource.appBase.text = .ok ImportMapSource.appBase := by
    decide +kernel
  have hthrough : prefixMap.through? "lib/a/../b" ImportMapSource.appBase =
      some ⟨"lib/a/../b", "lib/", vendor, "file:///vendor/b"⟩ := by
    decide +kernel
  have hslash : endsInSlash "lib/" = true := by decide
  have hproper : "lib/" ≠ "lib/a/../b" := by decide
  exact ⟨hbase, ofJson_prefixText, hthrough, hslash, hproper,
    ⟨rfl, rfl, by decide +kernel⟩, confined hbase ofJson_prefixText hthrough hslash hproper⟩

/-- The rest of a specifier may lead up, to another place on the host or to another URL, and a
query of the address is dropped. -/
theorem exists_not_confined :
    ofJson prefixText ImportMapSource.appBase = .ok prefixMap ∧
      (∀ r ∈ [("../b", "file:///b"), ("a/../../b", "file:///b"), ("/b", "file:///b"),
          ("\\b", "file:///b"), ("web:b", "web:b")],
        prefixMap.through? ("lib/" ++ r.1) ImportMapSource.appBase =
            some ⟨"lib/" ++ r.1, "lib/", vendor, r.2⟩ ∧
          ¬vendor.text.toList <+: r.2.toList) ∧
      prefixMap.through? "q/b" ImportMapSource.appBase = some ⟨"q/b", "q/", queried, "file:///b"⟩ ∧
        ¬queried.text.toList <+: "file:///b".toList :=
  ⟨ofJson_prefixText, by decide +kernel, by decide +kernel, by decide +kernel⟩

end ImportMap

end ModuleGraph
