import ModuleGraph.Proofs.FragmentOrder
import ModuleGraph.Proofs.KnownModules
import ModuleGraph.Proofs.RealmLinking
import ModuleGraph.Proofs.UrlTexts

/-!
# The texts of keys

The text of a key is read as this key, so that different keys have different texts
(`ModuleKey.parse_text`). It takes two things. The URL must be read off its own text, and the path
must be proper: its segments are names, or stand for inline modules. `Realm.Runs.parse_texts` says
that the keys in the module map of a realm have proper paths, whether they have been read, resolved
from a specifier or made for the declarations of a source text.
-/

namespace ModuleGraph

/-- A URL is read off its own text. -/
def Url.Rereads (u : Url) : Prop :=
  Url.parse u.text = .ok u

/-! ## Reading the text of a key -/

/-- A member of pieces with separators is in one of the pieces or in a separator. -/
theorem Text.mem_of_mem_intercalate {α : Type} {sep : List α} {pieces : List (List α)} {a : α}
    (h : a ∈ sep.intercalate pieces) : a ∈ sep ∨ ∃ piece ∈ pieces, a ∈ piece := by
  induction pieces with
  | nil => simp at h
  | cons piece pieces ih =>
      cases pieces with
      | nil => exact .inr ⟨piece, List.mem_cons_self, by simpa using h⟩
      | cons next rest =>
          rw [List.intercalate_cons_cons, List.mem_append, List.mem_append] at h
          rcases h with (h | h) | h
          · exact .inr ⟨piece, List.mem_cons_self, h⟩
          · exact .inl h
          · exact (ih h).imp_right fun ⟨piece', hpiece', ha⟩ =>
              ⟨piece', List.mem_cons_of_mem _ hpiece', ha⟩

namespace FragmentPath

variable {path : FragmentPath} {c : Char}

/-- The text of a proper path has no blank characters. -/
theorem graphic_of_mem_text (h : path.IsProper) (hc : c ∈ path.text.toList) : Url.Graphic c := by
  rw [text, String.toList_intercalate] at hc
  rcases Text.mem_of_mem_intercalate hc with hslash | ⟨piece, hpiece, hmem⟩
  · obtain rfl := List.mem_singleton.1 hslash
    decide
  · obtain ⟨segment, hsegment, rfl⟩ := List.mem_map.1 hpiece
    exact (fragmentSet_of_mem_segment (h segment hsegment) hmem).2.2

/-- The text of a proper path has no character that addresses drop. -/
theorem visible_text (h : path.IsProper) : Url.visible path.text.toList = path.text.toList := by
  refine List.filter_eq_self.2 fun c hc => ?_
  have hgraphic : 0x20 < c.toNat := graphic_of_mem_text h hc
  have hne : ∀ d : Char, d.toNat ≤ 0x20 → c ≠ d := by
    rintro d hd rfl
    omega
  simp [Url.isIgnored, hne '\t' (by decide), hne '\n' (by decide), hne '\r' (by decide)]

end FragmentPath

namespace ModuleKey

variable {k : ModuleKey} {url : Url} {fragment : String} {path : FragmentPath}

/-- A fragment that spells a path is not empty, so that the path counts. -/
theorem ofReference_of_fragment (hfragment : url.fragment = some fragment)
    (hpath : FragmentPath.ofFragment? fragment = some path) :
    ofReference url = .ok (ofUrl url path) := by
  have hne : fragment ≠ "" := by
    rintro rfl
    have hempty : FragmentPath.ofFragment? "" = none := by decide
    rw [hempty] at hpath
    cases hpath
  unfold ofReference
  split
  · next hnone => simp [hnone] at hfragment
  · next hempty => exact absurd (Option.some.inj (hfragment.symm.trans hempty)) hne
  · next hother =>
      obtain rfl := Option.some.inj (hfragment.symm.trans hother)
      rw [hpath]

/-- The text of a key with a proper path is read as this key. -/
theorem parse_text (hurl : k.url.Rereads) (hpath : k.path.IsProper) :
    ModuleKey.parse k.text = .ok k := by
  obtain ⟨url, path⟩ := k
  have hkey : ofUrl url path = ⟨url, path⟩ := ModuleKey.ext (Url.IsBare.withoutFragment_eq) rfl
  cases path with
  | nil =>
      have htext : (⟨url, []⟩ : ModuleKey).text = url.text := rfl
      rw [parse, htext, hurl]
      simp only [ofReference, Url.fragment_of_isBare]
      exact congrArg Except.ok hkey
  | cons segment segments =>
      have htext : (⟨url, segment :: segments⟩ : ModuleKey).text =
          url.text ++ "#" ++ FragmentPath.text (segment :: segments) := rfl
      have hparse := Url.parse_append_hash hurl fun c hc =>
        FragmentPath.graphic_of_mem_text hpath (List.mem_of_getLast? hc)
      rw [String.ofList_toList] at hparse
      -- the URL has the path in ASCII, and it is decoded from there
      have hread := FragmentPath.ofFragment?_encoded (List.cons_ne_nil _ _) hpath
      rw [← FragmentPath.visible_text hpath] at hread
      rw [parse, htext, hparse]
      exact (ofReference_of_fragment rfl hread).trans (congrArg Except.ok hkey)

end ModuleKey

/-! ## Keys that are read or resolved -/

namespace FragmentPath

variable {path : FragmentPath}

/-- The empty path is proper. -/
theorem isProper_nil : IsProper [] :=
  fun _ h => absurd h List.not_mem_nil

/-- A segment that is decoded is a proper one. -/
theorem isSegment_of_decodeSegment? {cs : List Char} {segment : String}
    (h : decodeSegment? cs = some segment) : isSegment segment.toList = true := by
  unfold decodeSegment? at h
  split at h
  · next hsegment =>
      obtain rfl := Option.some.inj h
      rwa [String.toList_ofList]
  · obtain ⟨decoded, -, hname⟩ := Option.bind_eq_some_iff.1 h
    split at hname
    · next hidentifier =>
        obtain rfl := Option.some.inj hname
        rw [String.toList_ofList]
        exact isSegment_iff.2 (.inl hidentifier)
    · cases hname

/-- A path that has been read is proper. -/
theorem isProper_of_ofFragment? {fragment : String} (h : ofFragment? fragment = some path) :
    path.IsProper := by
  have hall : ∀ (pieces : List (List Char)) (path : FragmentPath),
      pieces.mapM decodeSegment? = some path → path.IsProper := by
    intro pieces
    induction pieces with
    | nil =>
        rintro path hpath
        obtain rfl := Option.some.inj hpath
        exact isProper_nil
    | cons piece pieces ih =>
        intro path hpath
        rw [List.mapM_cons] at hpath
        obtain ⟨segment, hsegment, hpath⟩ := Option.bind_eq_some_iff.1 hpath
        obtain ⟨segments, hsegments, hpath⟩ := Option.bind_eq_some_iff.1 hpath
        obtain rfl := Option.some.inj hpath
        exact List.forall_mem_cons.2 ⟨isSegment_of_decodeSegment? hsegment, ih _ hsegments⟩
  exact hall _ _ h

end FragmentPath

namespace ModuleKey

variable {key : ModuleKey} {importMap : ImportMap} {base : Url}

/-- The path of a key that is made from an address is proper. -/
theorem isProper_of_ofReference {url : Url} (h : ofReference url = .ok key) :
    key.path.IsProper := by
  unfold ofReference at h
  split at h
  · obtain rfl := Except.ok.inj h
    exact FragmentPath.isProper_nil
  · obtain rfl := Except.ok.inj h
    exact FragmentPath.isProper_nil
  · split at h
    · next hpath =>
        obtain rfl := Except.ok.inj h
        exact FragmentPath.isProper_of_ofFragment? hpath
    · cases h

/-- The path of a key that is read is proper. -/
theorem isProper_of_parse {text : String} (h : parse text = .ok key) : key.path.IsProper := by
  unfold parse at h
  split at h
  · exact isProper_of_ofReference h
  · cases h

/-- The path of a key that a specifier resolves to is proper. -/
theorem isProper_of_resolveUrl {specifier : String}
    (h : resolveUrl importMap specifier base = .ok key) : key.path.IsProper := by
  have hreference : ∀ text, referenceKey text base = .ok key → key.path.IsProper := by
    intro text htext
    unfold referenceKey at htext
    split at htext <;> split at htext
    · exact isProper_of_ofReference htext
    · cases htext
    · exact isProper_of_ofReference htext
    · cases htext
    · cases htext
  unfold resolveUrl at h
  dsimp only at h
  split at h
  · cases h
  · exact hreference _ (ModuleMap.mapError_eq_ok h)

/-- The path of a key that a request resolves to is proper if those in its scope are. -/
theorem isProper_of_resolve {specifier : Specifier} {scope : Scope}
    (hscope : ∀ entry ∈ scope, entry.2.IsProper)
    (h : resolve importMap specifier base scope = .ok key) : key.path.IsProper := by
  unfold resolve at h
  split at h
  · exact isProper_of_resolveUrl h
  · split at h
    · next hfind =>
        obtain rfl := Except.ok.inj h
        exact hscope _ (mem_of_lookup hfind)
    · cases h

end ModuleKey

/-! ## Keys of declarations -/

/-- All paths in a resource are proper: those of its fragments, and those to which the names in its
bodies lead. -/
structure Resource.IsProper (r : Resource) : Prop where
  fragments : ∀ f ∈ r.fragments, f.path.IsProper
  scopes : ∀ path body, r.body? path = some body → ∀ entry ∈ body.scope, entry.2.IsProper

section Declarations

variable {text : List Char} {body : List Statement} {path : FragmentPath} {depth : Nat}
  {form : FragmentForm} {segment : String} {d : ModuleDeclaration}

/-- All names of the modules that a body declares, at any depth, are identifier names. -/
def NamesProperly (body : List Statement) : Prop :=
  ∀ d name, Declares body d → d.name = some name → Text.isIdentifierName name.toList = true

/-- All names of modules in a source text are identifier names. -/
theorem NamesProperly.of_parse {text : List Char} {tree : SyntaxTree}
    (h : SyntaxTree.parse text = .ok tree) : NamesProperly tree.body :=
  fun _ _ hd hname => isIdentifierName_of_declares h hd hname

/-- The segment of an inline module is a proper one. -/
theorem FragmentPath.isSegment_inlineSegment (i : Nat) :
    isSegment (inlineSegment i).toList = true := by
  rw [toList_inlineSegment, isSegment_iff]
  exact .inr ⟨_, rfl, Nat.toDigits_ne_nil, fun d hd =>
    Nat.isDigit_of_mem_toDigits (b := 10) (by decide) (by decide) hd⟩

/-- A module that stands directly in a body is declared there. -/
theorem Member.declares (h : Member body segment form d) : Declares body d :=
  declares_iff.2 ⟨⟨segment, form, d⟩, mem_childrenFrom.2 h, .inl rfl⟩

/-- The names inside of a declared module are proper, too. -/
theorem NamesProperly.inside (h : NamesProperly body) (hd : Declares body d) :
    NamesProperly d.body :=
  fun e name he hname => h e name (hd.trans he) hname

/-- The segments of the modules in a body are proper. -/
theorem Member.isSegment (hnamed : NamesProperly body) (h : Member body segment form d) :
    FragmentPath.isSegment segment.toList = true := by
  have hd := h.declares
  cases h with
  | named _ hname => exact FragmentPath.isSegment_iff.2 (.inl (hnamed d _ hd hname))
  | inline _ => exact FragmentPath.isSegment_inlineSegment _

/-- The path to a declaration is proper. -/
theorem DeclaredAt.isProper (hnamed : NamesProperly body)
    (h : DeclaredAt body path depth form d) : path.IsProper ∧ Declares body d := by
  induction h with
  | here h =>
      exact ⟨List.forall_mem_singleton.2 (h.isSegment hnamed), h.declares⟩
  | inside h _ ih =>
      obtain ⟨hpath, hd⟩ := ih (hnamed.inside h.declares)
      exact ⟨List.forall_mem_cons.2 ⟨h.isSegment hnamed, hpath⟩, h.declares.trans hd⟩

/-- The names in a body lead to proper paths. -/
theorem Body.isProper_scope (hnamed : NamesProperly body) (hpath : path.IsProper) :
    ∀ entry ∈ (Body.ofStatements text path body).scope, entry.2.IsProper := by
  intro entry hentry
  obtain ⟨name, hname, rfl⟩ := List.mem_map.1 hentry
  obtain ⟨st, hst, hfragment⟩ := List.mem_filterMap.1 hname
  cases st with
  | module d =>
      have hmember : Member body name .importable d := .named hst hfragment
      exact List.forall_mem_append.2
        ⟨hpath, List.forall_mem_singleton.2 (hmember.isSegment hnamed)⟩
  | _ => cases hfragment

end Declarations

/-- The paths in the resource of a source text are proper. -/
theorem Resource.isProper_ofText {text : String} {r : Resource} (h : Resource.ofText text = .ok r) :
    r.IsProper := by
  obtain ⟨tree, hparse, htree⟩ := Resource.ofText_eq_ok h
  have hnamed := NamesProperly.of_parse hparse
  obtain ⟨-, hroot, htraversal⟩ := Resource.traversal_ofTree htree
  have hfragment : ∀ f ∈ r.fragments, f.path.IsProper ∧
      ∀ entry ∈ f.body.scope, entry.2.IsProper := by
    intro f hf
    obtain ⟨e, he, hfe⟩ := htraversal.declaredAt_of_mem hf
    obtain ⟨hpath, hdeclares⟩ := he.isProper hnamed
    refine ⟨hpath, ?_⟩
    rw [hfe]
    exact Body.isProper_scope (hnamed.inside hdeclares) hpath
  refine ⟨fun f hf => (hfragment f hf).1, fun path body hbody => ?_⟩
  unfold Resource.body? at hbody
  split at hbody
  · obtain rfl := Option.some.inj hbody
    rw [hroot]
    exact Body.isProper_scope hnamed FragmentPath.isProper_nil
  · obtain ⟨f, hf, rfl⟩ := Option.map_eq_some_iff.1 hbody
    exact (hfragment f (List.mem_of_find?_eq_some hf)).2

/-- The answers for source texts lead to modules with proper paths only. -/
theorem Catalog.FromTexts.closed {c : Catalog} (h : c.FromTexts) (importMap : ImportMap) :
    c.Closed importMap fun key => key.path.IsProper where
  declared url resource hanswer := by
    obtain ⟨text, htext⟩ := h url resource hanswer
    exact ⟨FragmentPath.isProper_nil, (Resource.isProper_ofText htext).fragments⟩
  requested key answer _ hanswer d hd := by
    cases answer with
    | error fault => cases hd
    | ok resource =>
        obtain ⟨text, htext⟩ := h key.url resource hanswer
        simp only [PlanNode.ofAnswer, PlanNode.ofResource] at hd
        split at hd
        · cases hd
        next body hbody =>
        split at hd
        · next dependencies hdependencies =>
            obtain ⟨request, -, hresolve⟩ :=
              exists_mem_of_forall₂ (forall₂_of_mapM_ok hdependencies).flip hd
            exact ModuleKey.isProper_of_resolve
              ((Resource.isProper_ofText htext).scopes key.path body hbody) hresolve
        · cases hd

/-! ## Keys in the module map of a realm -/

/-- A key that a call may be about: it has been read, or resolved from a specifier, which stands
outside of all modules or in the body of one. -/
inductive ModuleKey.Requested : ModuleKey → Prop
  | parsed {text : String} {key : ModuleKey} (h : ModuleKey.parse text = .ok key) : Requested key
  | resolved {importMap : ImportMap} {specifier : String} {base : Url} {key : ModuleKey}
      (h : resolveUrl importMap specifier base = .ok key) : Requested key
  | inBody {importMap : ImportMap} {text : String} {resource : Resource} {path : FragmentPath}
      {body : Body} {specifier : Specifier} {base : Url} {key : ModuleKey}
      (htext : Resource.ofText text = .ok resource) (hbody : resource.body? path = some body)
      (h : resolve importMap specifier base body.scope = .ok key) : Requested key

/-- The path of a requested key is proper. -/
theorem ModuleKey.Requested.isProper {key : ModuleKey} (h : key.Requested) :
    key.path.IsProper := by
  cases h with
  | parsed h => exact isProper_of_parse h
  | resolved h => exact isProper_of_resolveUrl h
  | inBody htext hbody h =>
      exact isProper_of_resolve ((Resource.isProper_ofText htext).scopes _ _ hbody) h

namespace Realm

variable {σ : Type} {h : Host σ} {r : Realm σ} {keys : List ModuleKey}

/-- The text of each key in the module map is read as this key, and different keys have different
texts, if the URLs in the map are read off their texts. -/
theorem Runs.parse_texts {host : σ} (hruns : Runs h (Realm.fresh host) keys r)
    (htexts : r.catalog.FromTexts) (hkeys : ∀ key ∈ keys, key.Requested)
    (hurls : ∀ key, r.map.IsKnown key → key.url.Rereads) :
    (∀ key, r.map.IsKnown key → ModuleKey.parse key.text = .ok key) ∧
      ∀ key key', r.map.IsKnown key → r.map.IsKnown key' → key.text = key'.text → key = key' := by
  have hproper : r.map.Within fun key => key.path.IsProper :=
    hruns.within (fun key hkey => (hkeys key hkey).isProper) (htexts.closed h.importMap)
  have hparse : ∀ key, r.map.IsKnown key → ModuleKey.parse key.text = .ok key :=
    fun key hkey => ModuleKey.parse_text (hurls key hkey) (hproper key hkey)
  refine ⟨hparse, fun key key' hkey hkey' htext => ?_⟩
  have hsame := hparse key hkey
  rw [htext, hparse key' hkey'] at hsame
  exact (Except.ok.inj hsame).symm

/-- The key of a module in a local file, with an empty host. -/
def localKey (name : String) (path : FragmentPath) : ModuleKey :=
  ⟨⟨"file", some (.ofHost ""), .segments [name], none, none⟩, path⟩

/-- A host with two texts. One declares a module whose name is not ASCII, and both have an inline
module. -/
def spelledHost : Host Unit :=
  ⟨(localKey "app.js" []).url, ImportMap.empty,
    .ofSources [((localKey "app.js" []).url,
        "module größe \x7b export const m = module \x7b import './lib.js'; \x7d; \x7d"),
      ((localKey "lib.js" []).url, "export const n = module \x7b\x7d;")],
    fun _ host => (.ok (), host)⟩

/-- The modules that calls ask for: one declared in `app.js`, and one inside of it. -/
def spelledRequests : List ModuleKey :=
  [localKey "app.js" ["größe"], localKey "app.js" ["größe", "%0"]]

/-- The realm that has loaded them. -/
def spelledRealm : Realm Unit :=
  Call.afterAll spelledHost (spelledRequests.map .loadKey) (fresh ())

/-- The modules that are known then. -/
def spelledKeys : List ModuleKey :=
  [localKey "app.js" ["größe"], localKey "app.js" [], localKey "app.js" ["größe", "%0"],
    localKey "lib.js" [], localKey "lib.js" ["%0"]]

/-- The realm has loaded both modules. -/
theorem runs_spelledRealm : Runs spelledHost (fresh ()) spelledRequests spelledRealm :=
  .call spelledHost.library spelledHost.execute (.loadKey (localKey "app.js" ["größe", "%0"]))
    (.call spelledHost.library spelledHost.execute (.loadKey (localKey "app.js" ["größe"])) .start)

/-- The texts of all known keys are read as these keys, names that are not ASCII included. -/
theorem parse_texts_spelled :
    Runs spelledHost (fresh ()) spelledRequests spelledRealm ∧
      spelledRealm.catalog.FromTexts ∧
      (∀ key ∈ spelledRequests, key.Requested) ∧
      (∀ key, spelledRealm.map.IsKnown key ↔ key ∈ spelledKeys) ∧
      (∀ key ∈ spelledKeys, key.url.Rereads) ∧
      (∀ key ∈ spelledKeys, ModuleKey.parse key.text = .ok key) ∧
      ∀ key ∈ spelledKeys, ∀ key' ∈ spelledKeys, key.text = key'.text → key = key' := by
  have htexts : spelledRealm.catalog.FromTexts :=
    Catalog.fromTexts_of_answeredBy (answeredBy_afterAll spelledHost () _)
  have hrequested : ∀ key ∈ spelledRequests, key.Requested := by
    have hresolve : resolveUrl ImportMap.empty "/app.js#größe" (localKey "app.js" []).url =
        .ok (localKey "app.js" ["größe"]) := by
      decide +kernel
    have hparse : ModuleKey.parse "file:///app.js#gr%C3%B6%C3%9Fe/%0" =
        .ok (localKey "app.js" ["größe", "%0"]) := by
      decide +kernel
    exact List.forall_mem_cons.2 ⟨.resolved hresolve, List.forall_mem_singleton.2 (.parsed hparse)⟩
  have hentries : spelledRealm.map.entries.map Entry.key = spelledKeys := by
    decide +kernel
  have hknown : ∀ key, spelledRealm.map.IsKnown key ↔ key ∈ spelledKeys := by
    intro key
    rw [← hentries, ModuleMap.mem_keys_iff]
  have hurls : ∀ key ∈ spelledKeys, Url.parse key.url.text = .ok key.url := by
    decide +kernel
  obtain ⟨hparse, hdistinct⟩ := runs_spelledRealm.parse_texts htexts hrequested
    fun key hkey => hurls key ((hknown key).1 hkey)
  exact ⟨runs_spelledRealm, htexts, hrequested, hknown, hurls,
    fun key hkey => hparse key ((hknown key).2 hkey),
    fun key hkey key' hkey' => hdistinct key key' ((hknown key).2 hkey) ((hknown key').2 hkey')⟩

end Realm

end ModuleGraph
