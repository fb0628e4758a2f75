import ModuleGraph.Proofs.DistinctNames

/-!
# Resolution of fragment names

The scope of a body has the names of the modules among its statements. So a fragment specifier in
this body is resolved if and only if it is one of them, and it leads to the same module as the
reference of `#` and the path of this module (`Resource.resolve_fragment_iff`). The first way is by
the scope alone. The second is by way of a URL, in which the path is percent-encoded.
-/

namespace ModuleGraph

/-! ## References to the same document -/

namespace Url

/-- A reference of `#` and a fragment is the base with this fragment. -/
theorem join_hash (base : Url) {fragment : String} (h : EndsGraphic fragment) :
    base.join ("#" ++ fragment) = .ok (base.withFragment fragment.toList) := by
  have htext : ("#" ++ fragment).toList = '#' :: fragment.toList := by simp
  have hlast : ∀ c, ('#' :: fragment.toList).getLast? = some c → Graphic c := by
    intro c hc
    rw [← htext] at hc
    exact EndsGraphic.append (.of_all (by decide)) h c hc
  have htrimmed : trimmed ("#" ++ fragment).toList = '#' :: fragment.toList := by
    rw [htext, trimmed_eq hlast, List.dropWhile_cons_of_neg (by decide)]
  have hscheme : splitScheme ('#' :: fragment.toList) = none := by
    simp [splitScheme, show '#'.isAlpha = false by decide]
  have hvisible : visible ('#' :: fragment.toList) = '#' :: visible fragment.toList :=
    visible_append_hash [] fragment.toList
  unfold join parseReference
  dsimp only
  rw [htrimmed, hscheme]
  simp [sameDocument, withTail, withFragment, hvisible]

end Url

/-- The empty import map answers nothing. -/
theorem ImportMap.resolve?_empty (specifier : String) (referrer : Url) :
    ImportMap.empty.resolve? specifier referrer = none := by
  unfold ImportMap.resolve?
  cases normalizeSpecifier? specifier referrer <;> rfl

/-- The reference of `#` and a path leads to this path in the resource of the base. -/
theorem resolveUrl_hash {path : FragmentPath} (hne : path ≠ []) (h : path.IsProper) (base : Url) :
    resolveUrl ImportMap.empty ("#" ++ path.text) base = .ok (.ofUrl base path) := by
  have htext : ("#" ++ path.text).toList = '#' :: path.text.toList := by simp
  have hnonempty : "#" ++ path.text ≠ "" := by
    intro hempty
    rw [hempty] at htext
    cases htext
  have hjoin := base.join_hash (.of_forall fun c hc => FragmentPath.graphic_of_mem_text h hc)
  -- the URL has the path percent-encoded, and it is decoded from there
  have hread := FragmentPath.ofFragment?_encoded hne h
  rw [← FragmentPath.visible_text h] at hread
  have hkey : referenceKey ("#" ++ path.text) base = .ok (.ofUrl base path) := by
    rw [referenceKey, if_pos (.inl (by rw [htext]; rfl)), hjoin]
    exact ModuleKey.ofReference_of_fragment rfl hread
  unfold resolveUrl
  rw [if_neg hnonempty, ImportMap.resolve?_empty, Option.getD_none, hkey]
  rfl

/-! ## Names in a body -/

section Names

variable {importMap : ImportMap} {base : Url} {name : String} {path : FragmentPath}
  {text : List Char} {statements : List Statement}

/-- The scope of a body leads from each of its names to the module of this name. -/
theorem Scope.find?_children (path : FragmentPath) (names : List String) (name : String) :
    Scope.find? (names.map fun n => (n, path.child n)) name =
      if name ∈ names then some (path.child name) else none := by
  rw [Scope.find?]
  induction names with
  | nil => rfl
  | cons first names ih =>
      rw [List.map_cons, List.lookup_cons, ih]
      by_cases hfirst : name = first
      · subst hfirst
        simp
      · rw [beq_false_of_ne hfirst]
        simp [hfirst]

/-- The fragment names of statements are those of the modules among them. -/
theorem mem_fragmentNames_iff : name ∈ statements.filterMap Statement.fragmentName? ↔
    ∃ d, .module d ∈ statements ∧ d.name = some name := by
  rw [List.mem_filterMap]
  constructor
  · rintro ⟨st, hst, hname⟩
    cases st with
    | module d => exact ⟨d, hst, hname⟩
    | _ => cases hname
  · rintro ⟨d, hd, hname⟩
    exact ⟨.module d, hd, hname⟩

/-- A fragment specifier is resolved by the names of the modules among the statements. -/
theorem resolve_ofStatements (importMap : ImportMap) (base : Url) (name : String)
    (text : List Char) (path : FragmentPath) (statements : List Statement) :
    resolve importMap (.fragment name) base (Body.ofStatements text path statements).scope =
      if name ∈ statements.filterMap Statement.fragmentName? then
        .ok (.ofUrl base (path.child name))
      else .error (.unbound name base.text .notDeclared) := by
  rw [resolve, Body.ofStatements]
  dsimp only
  rw [Scope.find?_children]
  by_cases hname : name ∈ statements.filterMap Statement.fragmentName?
  · rw [if_pos hname, if_pos hname]
  · rw [if_neg hname, if_neg hname]

end Names

/-! ## Fragments of a resource -/

namespace Resource

variable {text : List Char} {tree : SyntaxTree} {r : Resource} {path : FragmentPath}
  {statements : List Statement}

/-- In each body of a source text, a fragment specifier is resolved if and only if it is the name of
a module among the statements of this body. Its key has the path to this module, and this path is
also a reference to it. -/
theorem resolve_fragment_iff (h : SyntaxTree.parse text = .ok tree) (hr : ofTree tree = .ok r)
    (hbody : HasBodyAt tree.body path statements) : ∃ b, r.body? path = some b ∧
      ∀ (importMap : ImportMap) (base : Url) (name : String),
        ((∃ key, resolve importMap (.fragment name) base b.scope = .ok key) ↔
          ∃ d, .module d ∈ statements ∧ d.name = some name) ∧
        ∀ key, resolve importMap (.fragment name) base b.scope = .ok key →
          key = .ofUrl base (path ++ [name]) ∧ (base.IsBare → key.url = base) ∧
            (∃ f, r.fragment? key.path = some f ∧ f.form = .importable) ∧
            resolve ImportMap.empty (.url ("#" ++ key.path.text)) base b.scope = .ok key := by
  have hproper := NamesProperly.of_parse h
  refine ⟨_, (body?_eq_some_iff hproper hr).2 ⟨statements, hbody, rfl⟩,
    fun importMap base name => ?_⟩
  rw [resolve_ofStatements, ← mem_fragmentNames_iff]
  by_cases hname : name ∈ statements.filterMap Statement.fragmentName?
  · rw [if_pos hname]
    refine ⟨⟨fun _ => hname, fun _ => ⟨_, rfl⟩⟩, fun key hkey => ?_⟩
    obtain rfl := Except.ok.inj hkey
    obtain ⟨d, hd, hdname⟩ := mem_fragmentNames_iff.1 hname
    have hdeclared := hbody.declaredAt_child (.named hd hdname)
    have hfragment := (fragment?_eq_some_iff hproper hr).2 ⟨_, _, d, hdeclared, rfl⟩
    exact ⟨rfl, fun hbare => hbare.withoutFragment_eq, ⟨_, hfragment, rfl⟩,
      resolveUrl_hash hdeclared.path_ne_nil (hdeclared.isProper hproper).1 base⟩
  · rw [if_neg hname]
    refine ⟨⟨?_, fun hmem => absurd hmem hname⟩, ?_⟩
    · rintro ⟨key, hkey⟩
      cases hkey
    · rintro key hkey
      cases hkey

/-- A text with a module inside of an inline module, which is inside of a module whose name is not
ASCII. -/
def scopedText : List Char :=
  "module größe \x7b f(module \x7b module x \x7b \x7d \x7d); \x7d".toList

/-- The statements of the inline module in `scopedText`. -/
def scopedInner : List Statement :=
  [.module (.mk (some "x") false .statement [] ⟨28, 40⟩ ⟨38, 39⟩)]

/-- The statements of `scopedText`. -/
def scopedBody : List Statement :=
  [.module (.mk (some "größe") false .statement
    [.code (.mk ⟨17, 44⟩ [.mk none false .nested scopedInner ⟨19, 42⟩ ⟨27, 41⟩])]
    ⟨0, 46⟩ ⟨16, 45⟩)]

/-- The statements of the text with modules inside of each other. -/
theorem parse_scopedText : SyntaxTree.parse scopedText = .ok ⟨scopedText, scopedBody⟩ := by
  have htokens : Token.ofChars scopedText =
      [⟨.identifier "module", ⟨0, 6⟩, false⟩, ⟨.identifier "größe", ⟨7, 14⟩, false⟩,
        ⟨.leftBrace, ⟨15, 16⟩, false⟩, ⟨.identifier "f", ⟨17, 18⟩, false⟩,
        ⟨.leftParen, ⟨18, 19⟩, false⟩, ⟨.identifier "module", ⟨19, 25⟩, false⟩,
        ⟨.leftBrace, ⟨26, 27⟩, false⟩, ⟨.identifier "module", ⟨28, 34⟩, false⟩,
        ⟨.identifier "x", ⟨35, 36⟩, false⟩, ⟨.leftBrace, ⟨37, 38⟩, false⟩,
        ⟨.rightBrace, ⟨39, 40⟩, false⟩, ⟨.rightBrace, ⟨41, 42⟩, false⟩,
        ⟨.rightParen, ⟨42, 43⟩, false⟩, ⟨.semicolon, ⟨43, 44⟩, false⟩,
        ⟨.rightBrace, ⟨45, 46⟩, false⟩, ⟨.endOfInput, ⟨46, 46⟩, false⟩] := by
    decide +kernel
  exact SyntaxTree.parse_of_tokens htokens rfl

/-- In the inline module, its own module is found by both ways, and the outer one is not. -/
theorem resolve_fragment_iff_scoped :
    SyntaxTree.parse scopedText = .ok ⟨scopedText, scopedBody⟩ ∧
      ∃ r b, ofTree ⟨scopedText, scopedBody⟩ = .ok r ∧ r.body? ["größe", "%0"] = some b ∧
        let base := (Realm.localKey "app.js" []).url
        let key := Realm.localKey "app.js" ["größe", "%0", "x"]
        resolve ImportMap.empty (.fragment "x") base b.scope = .ok key ∧
          resolve ImportMap.empty (.url "#größe/%0/x") base b.scope = .ok key ∧
          ¬ ∃ key, resolve ImportMap.empty (.fragment "größe") base b.scope = .ok key := by
  obtain ⟨r, hr⟩ : ∃ r, ofTree ⟨scopedText, scopedBody⟩ = .ok r := ⟨_, rfl⟩
  have hinner : HasBodyAt scopedBody ["größe", "%0"] scopedInner :=
    .inside (.named (List.mem_singleton_self _) rfl) (.inside (.inline (i := 0) rfl) .here)
  obtain ⟨b, hb, hresolve⟩ := resolve_fragment_iff parse_scopedText hr hinner
  obtain ⟨hx, hsame⟩ := hresolve ImportMap.empty (Realm.localKey "app.js" []).url "x"
  obtain ⟨key, hkey⟩ := hx.2 ⟨_, List.mem_singleton_self _, rfl⟩
  obtain ⟨rfl, -, -, hreference⟩ := hsame key hkey
  refine ⟨parse_scopedText, r, b, hr, hb, hkey, hreference, fun hfound => ?_⟩
  obtain ⟨d, hd, hname⟩ := (hresolve ImportMap.empty _ "größe").1.1 hfound
  obtain rfl := Statement.module.inj (List.mem_singleton.1 hd)
  exact absurd hname (by decide)

end Resource

end ModuleGraph
