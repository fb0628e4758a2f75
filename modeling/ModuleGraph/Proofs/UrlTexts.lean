import ModuleGraph.Proofs.UrlFragments

/-!
# The text of a URL, with a fragment behind it

`Url.parse_append_hash` says that the text of a URL that has none, with `#` and a fragment behind
it, is read as this URL with the fragment, as long as the text alone is read as the URL.

The reader drops controls and spaces at the ends of a text. So the text of a URL must not end in
one, or the fragment would keep what is dropped without it. Most parts of a URL are encoded by sets
that hold controls and the space (`graphic_of_mem_encode`), but a flat path may have spaces: at its
end they are dropped together with the fragment (`Url.IsBare`), unless a query follows
(`endsWell_parse`).
-/

namespace ModuleGraph.Url

variable {k : SchemeKind} {c : Char} {cs : List Char} {s t : String}

/-- Neither a control of ASCII nor a space. -/
def Graphic (c : Char) : Prop :=
  0x20 < c.toNat

instance (c : Char) : Decidable (Graphic c) :=
  inferInstanceAs (Decidable (0x20 < c.toNat))

/-- Whether characters are graphic is computed along the list. -/
theorem graphic_of_all (h : (cs.all fun c => 0x20 < c.toNat) = true) : ∀ c ∈ cs, Graphic c :=
  fun c hc => of_decide_eq_true (List.all_eq_true.1 h c hc)

/-- The last character, if there is one, is graphic. -/
def EndsGraphic (s : String) : Prop :=
  ∀ c, s.toList.getLast? = some c → Graphic c

/-- A text of graphic characters ends in one. -/
theorem EndsGraphic.of_forall (h : ∀ c ∈ s.toList, Graphic c) : EndsGraphic s :=
  fun c hc => h c (List.mem_of_getLast? hc)

/-- A text of characters above the space ends in a graphic one. -/
theorem EndsGraphic.of_all (h : (s.toList.all fun c => 0x20 < c.toNat) = true) : EndsGraphic s :=
  .of_forall (graphic_of_all h)

/-- Two texts that end graphic do so together. -/
theorem EndsGraphic.append (hs : EndsGraphic s) (ht : EndsGraphic t) : EndsGraphic (s ++ t) := by
  intro c hc
  rw [String.toList_append, List.getLast?_append] at hc
  cases hlast : t.toList.getLast? with
  | some d =>
      rw [hlast, Option.some_or] at hc
      exact ht c (hlast.trans hc)
  | none =>
      rw [hlast, Option.none_or] at hc
      exact hs c hc

/-- A text ends as its last part does, if that is not empty. -/
theorem EndsGraphic.behind (ht : EndsGraphic t) (hne : t ≠ "") (s : String) :
    EndsGraphic (s ++ t) := by
  intro c hc
  rw [String.toList_append, List.getLast?_append] at hc
  cases hlast : t.toList.getLast? with
  | some d =>
      rw [hlast, Option.some_or] at hc
      exact ht c (hlast.trans hc)
  | none =>
      rw [List.getLast?_eq_none_iff] at hlast
      exact absurd (String.toList_eq_nil_iff.1 hlast) hne

/-! ## Encoded text -/

/-- Outside of the control set every character but the space is graphic. -/
theorem graphic_of_controlSet (h : Percent.controlSet c = false) (hspace : c ≠ ' ') :
    Graphic c := by
  have hne : c.toNat ≠ 0x20 := by
    intro heq
    exact hspace (by rw [← Char.ofNat_toNat c, heq])
  simp only [Percent.controlSet, Bool.or_eq_false_iff, decide_eq_false_iff_not] at h
  have hlow := h.1
  unfold Graphic
  omega

/-- Outside of the query set every character is graphic. -/
theorem graphic_of_querySet (h : Percent.querySet c = false) : Graphic c := by
  simp only [Percent.querySet, Bool.or_eq_false_iff, beq_eq_false_iff_ne] at h
  exact graphic_of_controlSet (by tauto) (by tauto)

/-- Outside of the special query set every character is graphic. -/
theorem graphic_of_specialQuerySet (h : Percent.specialQuerySet c = false) : Graphic c := by
  rw [Percent.specialQuerySet, Bool.or_eq_false_iff] at h
  exact graphic_of_querySet h.1

/-- Outside of the path set every character is graphic. -/
theorem graphic_of_pathSet (h : Percent.pathSet c = false) : Graphic c := by
  simp only [Percent.pathSet, Percent.fragmentSet, Bool.or_eq_false_iff, beq_eq_false_iff_ne] at h
  exact graphic_of_controlSet (by tauto) (by tauto)

/-- The characters of triplets are graphic. -/
theorem graphic_of_mem_tripletChars (h : c ∈ Percent.tripletChars) : Graphic c :=
  graphic_of_all (by decide) c h

/-- What is encoded by a set that holds controls and the space is graphic. -/
theorem graphic_of_mem_encode {set : Char → Bool} (hset : ∀ c, set c = false → Graphic c)
    (h : c ∈ Percent.encode set cs) : Graphic c := by
  rcases Percent.mem_encode h with ⟨-, -, hc⟩ | hc
  · exact hset c hc
  · exact graphic_of_mem_tripletChars hc

/-! ## Paths -/

/-- A path in the making, from its end: it has a slash and all of it is graphic. -/
structure Rooted (path : List Char) : Prop where
  slash : '/' ∈ path
  graphic : ∀ c ∈ path, Graphic c

namespace Rooted

variable {path : List Char}

/-- A rooted path stays so without its last slash. -/
theorem dropSlash (h : Rooted path) : Rooted (Url.dropSlash path) := by
  unfold Url.dropSlash
  split
  · next before =>
      dsimp only
      split
      · next hdrop =>
          simp only [Bool.and_eq_true, List.contains_iff_mem] at hdrop
          exact ⟨hdrop.1, fun c hc => h.graphic c (List.mem_cons_of_mem _ hc)⟩
      · exact h
  · exact h

/-- A rooted path stays so with a slash at its end. -/
theorem withSlash (h : Rooted path) : Rooted (Url.withSlash path) := by
  unfold Url.withSlash
  split
  · exact h
  · refine ⟨List.mem_cons_self, fun c hc => ?_⟩
    rcases List.mem_cons.1 hc with rfl | hc
    · decide
    · exact h.graphic c hc

/-- A rooted path stays so when it is shortened. -/
theorem shorten (h : Rooted path) (k : SchemeKind) : Rooted (Url.shorten k path) := by
  unfold Url.shorten
  dsimp only
  split
  · exact h
  · refine ⟨?_, fun c hc => h.graphic c ((List.dropWhile_sublist _).subset hc)⟩
    obtain ⟨before, behind, hparts, hnot⟩ := List.eq_append_cons_of_mem h.slash
    rw [hparts, Text.dropWhile_append_stop (by decide)]
    simp

/-- A rooted path stays so with graphic characters at its end. -/
theorem append (h : Rooted path) (hcs : ∀ c ∈ cs, Graphic c) : Rooted (cs ++ path) :=
  ⟨List.mem_append_right _ h.slash, fun c hc => (List.mem_append.1 hc).elim (hcs c) (h.graphic c)⟩

end Rooted

/-- A segment in the making is graphic, and so is the path before it. -/
structure SegmentDraft.Tidy (d : SegmentDraft) : Prop where
  before : Rooted d.before
  segment : ∀ c ∈ d.segment, Graphic c

/-- A tidy segment stays so with a run of characters more. -/
theorem SegmentDraft.Tidy.append {d : SegmentDraft} (h : d.Tidy) (k : SchemeKind)
    (run : List Char) : (d.append k run).Tidy := by
  have hclose : d.close.Tidy := by
    have hwritten : ∀ c ∈ '/' :: d.segment, Graphic c := by
      intro c hc
      rcases List.mem_cons.1 hc with rfl | hc
      · decide
      · exact h.segment c hc
    exact ⟨h.before.append fun c hc => hwritten c (List.mem_of_mem_drop hc),
      fun c hc => hwritten c (List.mem_of_mem_take hc)⟩
  have hrun : ∀ d : SegmentDraft, d.Tidy → Tidy
      { d with segment := (Percent.encode Percent.pathSet run).reverse ++ d.segment } := by
    intro d hd
    refine ⟨hd.before, fun c hc => ?_⟩
    rcases List.mem_append.1 hc with hc | hc
    · exact graphic_of_mem_encode (fun _ => graphic_of_pathSet) (List.mem_reverse.1 hc)
    · exact hd.segment c hc
  unfold SegmentDraft.append
  split
  · exact h
  · dsimp only
    split
    · exact hrun _ hclose
    · exact hrun _ h

/-- A tidy segment stays so with all runs of characters that are put to it. -/
theorem SegmentDraft.Tidy.appendAll {d : SegmentDraft} (h : d.Tidy) (k : SchemeKind)
    (runs : List (List Char)) : (runs.foldl (SegmentDraft.append k) d).Tidy := by
  induction runs generalizing d with
  | nil => exact h
  | cons run runs ih => exact ih (h.append k run)

/-- A rooted path stays so with a segment more. -/
theorem PathDraft.rooted_addSegment {path : PathDraft} (h : Rooted path.written) (k : SchemeKind)
    (slashFollows : Bool) (cs : List Char) :
    Rooted (path.addSegment k slashFollows cs).written := by
  have hstart : SegmentDraft.Tidy ⟨path.written, []⟩ := ⟨h, by simp⟩
  have htidy := hstart.appendAll k (Text.splitWhere isIgnored cs)
  have hslash : ∀ c ∈ if slashFollows then ['/'] else [], Graphic c := by
    cases slashFollows <;> exact graphic_of_all (by decide)
  unfold PathDraft.addSegment
  dsimp only
  generalize (Text.splitWhere isIgnored cs).foldl (SegmentDraft.append k) ⟨path.written, []⟩ = d
    at htidy ⊢
  obtain ⟨hbefore, hsegment⟩ := htidy
  split
  · have hparent := hbefore.dropSlash.shorten k
    dsimp only
    split
    · exact hparent.withSlash
    · exact hparent
  · exact hbefore.withSlash
  · next first heq _ _ =>
      rw [heq] at hbefore
      split
      · have hdrive : Rooted (':' :: d.segment.drop 1 ++ [first]) := by
          refine hbefore.append fun c hc => ?_
          rcases List.mem_cons.1 hc with rfl | hc
          · decide
          · exact hsegment c (List.mem_of_mem_drop hc)
        have hwhole := hdrive.append hslash
        simpa using hwhole
      · simpa using (hbefore.append hsegment).append hslash
  · simpa using (hbefore.append hsegment).append hslash

/-- A rooted path stays so with all segments that are added. -/
theorem PathDraft.rooted_addSegments (k : SchemeKind) (segments : List (List Char))
    {path : PathDraft} (h : Rooted path.written) :
    Rooted (path.addSegments k segments).written := by
  induction segments generalizing path with
  | nil => exact h
  | cons segment rest ih =>
      cases rest with
      | nil => exact rooted_addSegment h k false segment
      | cons next rest => exact ih (rooted_addSegment h k true segment)

/-- A piece of a list has members of the list only. -/
theorem subset_of_mem_splitWhere {α : Type} {p : α → Bool} {as piece : List α}
    (h : piece ∈ Text.splitWhere p as) : piece ⊆ as := by
  induction as generalizing piece with
  | nil => simp_all [Text.splitWhere]
  | cons a as ih =>
      rw [Text.splitWhere] at h
      split at h
      · rcases List.mem_cons.1 h with rfl | h
        · simp
        · exact List.subset_cons_of_subset _ (ih h)
      · split at h
        · rw [List.mem_singleton.1 h]
          simp
        · next heq =>
            rcases List.mem_cons.1 h with rfl | h
            · exact List.cons_subset_cons _ (ih (heq ▸ List.mem_cons_self))
            · exact List.subset_cons_of_subset _ (ih (heq ▸ List.mem_cons_of_mem _ h))

/-- A path that starts with a slash has segments, and they are graphic. -/
theorem readPath_segments (k : SchemeKind) (cs : List Char) :
    (readPath k ['/'] cs).segments ≠ [] ∧
      ∀ segment ∈ (readPath k ['/'] cs).segments, ∀ c ∈ segment.toList, Graphic c := by
  have hof : ∀ text : List Char, text ≠ [] → (∀ c ∈ text, Graphic c) →
      segmentsOfText text ≠ [] ∧
        ∀ segment ∈ segmentsOfText text, ∀ c ∈ segment.toList, Graphic c := by
    rintro (_ | ⟨c, text⟩) hne hgraphic
    · exact absurd rfl hne
    · refine ⟨by simp [segmentsOfText, Text.splitWhere_ne_nil], fun segment hsegment c hc => ?_⟩
      obtain ⟨piece, hpiece, rfl⟩ := List.mem_map.1 hsegment
      rw [String.toList_ofList] at hc
      exact hgraphic c (List.mem_cons_of_mem _ (subset_of_mem_splitWhere hpiece hc))
  have hstart : Rooted (⟨['/'].reverse, false⟩ : PathDraft).written :=
    ⟨by simp, graphic_of_all (by decide)⟩
  have hrooted := PathDraft.rooted_addSegments k
    (Text.splitWhere (isSlash k) (cs.takeWhile fun c => c != '?' && c != '#')) hstart
  unfold readPath
  dsimp only
  generalize (⟨['/'].reverse, false⟩ : PathDraft).addSegments k
    (Text.splitWhere (isSlash k) (cs.takeWhile fun c => c != '?' && c != '#')) = path at hrooted ⊢
  have hgraphic : ∀ c ∈ path.written.reverse, Graphic c :=
    fun c hc => hrooted.graphic c (List.mem_reverse.1 hc)
  split
  · refine hof _ (by simp) fun c hc => ?_
    rcases List.mem_cons.1 hc with rfl | hc
    · decide
    · exact hgraphic c ((List.dropWhile_sublist _).subset hc)
  · exact hof _ (by simpa using List.ne_nil_of_mem hrooted.slash) hgraphic

/-! ## Where a text can end -/

/-- The parts that a URL's text can end with do not end in a control or a space. Only a flat path
can, and it is then followed by a query. -/
structure EndsWell (u : Url) : Prop where
  query : ∀ query, u.query = some query → EndsGraphic query
  segments : ∀ list, u.path = .segments list → ∀ segment ∈ list, EndsGraphic segment
  authority : u.path = .segments [] → ∀ a, u.authority = some a → EndsGraphic a.text
  flat : ∀ text, u.path = .flat text → u.authority = none ∧ ∀ c ∈ text.toList, Graphic c ∨ c = ' '

/-- What follows as query and fragment does not matter. -/
theorem EndsWell.withTail {u : Url} (h : u.EndsWell) (cs : List Char) :
    (withTail u cs).EndsWell := by
  refine ⟨fun query hquery => ?_, h.segments, h.authority, h.flat⟩
  have hset : ∀ c, (if (schemeKind u.scheme).isSpecial then Percent.specialQuerySet
      else Percent.querySet) c = false → Graphic c := by
    intro c hc
    split at hc
    · exact graphic_of_specialQuerySet hc
    · exact graphic_of_querySet hc
  simp only [Url.withTail] at hquery
  split at hquery
  · obtain rfl := Option.some.inj hquery
    refine .of_forall fun c hc => ?_
    rw [encoded, String.toList_ofList] at hc
    exact graphic_of_mem_encode hset hc
  · cases hquery

/-- A URL whose path starts with a slash. -/
theorem endsWell_readPath (scheme : String) (authority : Option Authority) (k : SchemeKind)
    (cs rest : List Char) :
    (withTail ⟨scheme, authority, .segments (readPath k ['/'] cs).segments, none, none⟩
      rest).EndsWell := by
  obtain ⟨hne, hgraphic⟩ := readPath_segments k cs
  refine EndsWell.withTail ⟨by simp, ?_, fun hnil => ?_, by simp⟩ _
  · rintro list hlist segment hsegment
    obtain rfl := UrlPath.segments.inj hlist
    exact .of_forall (hgraphic segment hsegment)
  · exact absurd (UrlPath.segments.inj hnil) hne

/-- A URL whose path has been read ends well. -/
theorem endsWell_withPath (scheme : String) (authority : Option Authority) (cs : List Char) :
    (withPath scheme authority ['/'] cs).EndsWell :=
  endsWell_readPath scheme authority _ cs _

/-- An address of version six ends graphic. -/
theorem endsGraphic_ipv6Text (groups : List Nat) : EndsGraphic (Address.ipv6Text groups) := by
  have hbracket : EndsGraphic "]" := .of_all (by decide)
  unfold Address.ipv6Text
  dsimp only
  split
  · exact hbracket.behind (by decide) _
  · exact hbracket.behind (by decide) _

/-- A host of another scheme ends graphic. -/
theorem endsGraphic_otherHost {host : String} (h : otherHost cs = .ok host) :
    EndsGraphic host := by
  unfold otherHost at h
  split at h
  · simp only [specialHost] at h
    split at h
    · split at h
      · obtain rfl := Except.ok.inj h
        exact endsGraphic_ipv6Text _
      · cases h
    · cases h
  · split at h
    · cases h
    · next hallowed =>
        obtain rfl := Except.ok.inj h
        refine .of_forall fun c hc => ?_
        rw [encoded, String.toList_ofList] at hc
        rcases Percent.mem_encode hc with ⟨hmem, -, hset⟩ | hc
        · refine graphic_of_controlSet hset ?_
          rintro rfl
          exact hallowed (List.any_eq_true.2 ⟨' ', hmem, by decide⟩)
        · exact graphic_of_mem_tripletChars hc

/-- An authority ends graphic if its host does and stands behind each user name. -/
theorem endsGraphic_authority {username password host : String} (port : Option Nat)
    (hhost : EndsGraphic host) (h : host = "" → username = "" ∧ password = "") :
    EndsGraphic (Authority.text ⟨username, password, host, port⟩) := by
  have hname : EndsGraphic (Authority.userinfo ⟨username, password, host, port⟩ ++ host) := by
    by_cases hempty : host = ""
    · obtain ⟨rfl, rfl⟩ := h hempty
      subst hempty
      exact .of_forall (by simp [Authority.userinfo])
    · exact hhost.behind hempty _
  cases port with
  | none => exact hname.append (.of_forall (by simp))
  | some n =>
      have hdigits : EndsGraphic (toString n) := by
        refine .of_forall fun c hc => ?_
        rw [Nat.toString_eq_repr, Nat.toList_repr] at hc
        have hdigit := Nat.isDigit_of_mem_toDigits (by decide) (by decide) hc
        simp only [Char.isDigit, Bool.and_eq_true, decide_eq_true_eq, UInt32.le_iff_toNat_le]
          at hdigit
        exact Nat.lt_of_lt_of_le (by decide) hdigit.1
      exact (hdigits.behind (by simp) ":").behind (by simp) _

/-! ## What has been read -/

variable {scheme : String} {u : Url}

/-- A URL without a path ends well if its authority does. -/
theorem endsWell_withoutPath {a : Authority}
    (ha : (schemeKind scheme).isSpecial = false → EndsGraphic a.text) (cs : List Char) :
    (withoutPath scheme (some a) cs).EndsWell := by
  unfold withoutPath
  split
  · exact endsWell_withPath _ _ _
  · next hspecial =>
      refine EndsWell.withTail ⟨by simp, by simp, fun _ b hb => ?_, by simp⟩ _
      obtain rfl := Option.some.inj hb
      exact ha (by simpa using hspecial)

/-- A URL behind an authority ends well if the authority does. -/
theorem endsWell_afterAuthority {a : Authority} (h : afterAuthority scheme (some a) cs = .ok u)
    (ha : (schemeKind scheme).isSpecial = false → EndsGraphic a.text) : u.EndsWell := by
  by_cases hstop : ∀ c rest, cs = c :: rest → c = '?' ∨ c = '#'
  · rw [afterAuthority_of_stop hstop] at h
    obtain rfl := Except.ok.inj h
    exact endsWell_withoutPath ha cs
  · push Not at hstop
    obtain ⟨c, rest, rfl, hquery, hhash⟩ := hstop
    rw [afterAuthority_cons hquery hhash] at h
    obtain rfl := Except.ok.inj h
    exact endsWell_withPath _ _ _

/-- A URL behind a host ends well if the host does. -/
theorem endsWell_afterHost {username password host : String}
    (h : afterHost scheme username password host cs = .ok u)
    (hhost : (schemeKind scheme).isSpecial = false → EndsGraphic host) : u.EndsWell := by
  unfold afterHost at h
  split at h
  · cases h
  · next hempty =>
      have hauthority : ∀ port, (schemeKind scheme).isSpecial = false →
          EndsGraphic (Authority.text ⟨username, password, host, port⟩) := by
        intro port hspecial
        refine endsGraphic_authority port (hhost hspecial) fun hnil => ?_
        simp only [hnil, true_and, not_or, not_not] at hempty
        exact ⟨hempty.2.1, hempty.2.2⟩
      split at h
      · cases hport : port scheme (cs.drop 1) with
        | error fault =>
            rw [hport] at h
            cases h
        | ok r =>
            rw [hport] at h
            exact endsWell_afterAuthority h (hauthority r.1)
      · exact endsWell_afterAuthority h (hauthority none)

/-- A URL behind a user name ends well. -/
theorem endsWell_afterUserinfo {userinfo : List Char}
    (h : afterUserinfo scheme userinfo cs = .ok u) : u.EndsWell := by
  unfold afterUserinfo at h
  cases hhost : hostOf (schemeKind scheme) (splitHost (schemeKind scheme) false cs).1 with
  | error fault =>
      rw [hhost] at h
      cases h
  | ok host =>
      rw [hhost] at h
      refine endsWell_afterHost h fun hspecial => ?_
      rw [hostOf, hspecial] at hhost
      exact endsGraphic_otherHost hhost

/-- A URL behind slashes ends well. -/
theorem endsWell_afterSlashes (h : afterSlashes scheme cs = .ok u) : u.EndsWell := by
  rw [afterSlashes_eq] at h
  split at h
  · split at h
    · cases h
    · exact endsWell_afterUserinfo h
  · exact endsWell_afterUserinfo h
  · exact endsWell_afterUserinfo h

/-- A `file` URL behind two slashes ends well. -/
theorem endsWell_fileAfterSlashes (h : fileAfterSlashes cs = .ok u) : u.EndsWell := by
  have hhost : ∀ (host : String) (cs : List Char), (afterFileHost host cs).EndsWell :=
    fun host cs => endsWell_readPath _ _ _ _ _
  simp only [fileAfterSlashes, ← inAuthority.eq_def] at h
  split at h
  · obtain rfl := Except.ok.inj h
    exact hhost "" cs
  · cases hread : fileHost (visible (cs.takeWhile (inAuthority .file))) with
    | error fault =>
        rw [hread] at h
        cases h
    | ok host =>
        rw [hread] at h
        obtain rfl := Except.ok.inj h
        exact hhost host _

/-- A `file` URL without slashes ends well. -/
theorem endsWell_fileRelative (h : fileRelative none cs = .ok u) : u.EndsWell := by
  have hslash : ∀ cs, (fileAfterSlash none cs).EndsWell := fun cs => by
    simp only [fileAfterSlash, ite_self]
    exact endsWell_withPath _ _ _
  unfold fileRelative at h
  split at h
  · next heq => cases heq
  · obtain rfl := Except.ok.inj h
    exact endsWell_withPath _ _ _
  · split at h
    · split at h
      · split at h
        · exact endsWell_fileAfterSlashes h
        · obtain rfl := Except.ok.inj h
          exact hslash _
      · obtain rfl := Except.ok.inj h
        exact hslash _
    · obtain rfl := Except.ok.inj h
      exact endsWell_withPath _ _ _

/-- A URL of another scheme ends well. -/
theorem endsWell_otherAbsolute (h : otherAbsolute scheme cs = .ok u) : u.EndsWell := by
  unfold otherAbsolute at h
  split at h
  · exact endsWell_afterSlashes h
  · obtain rfl := Except.ok.inj h
    exact endsWell_withPath _ _ _
  · obtain rfl := Except.ok.inj h
    refine EndsWell.withTail ⟨by simp, by simp, by simp, fun text htext => ⟨rfl, fun c hc => ?_⟩⟩ _
    obtain rfl := UrlPath.flat.inj htext
    rw [encoded, String.toList_ofList] at hc
    rcases Percent.mem_encode hc with ⟨-, -, hset⟩ | hc
    · by_cases hspace : c = ' '
      · exact .inr hspace
      · exact .inl (graphic_of_controlSet hset hspace)
    · exact .inl (graphic_of_mem_tripletChars hc)

/-- A URL behind its scheme ends well. -/
theorem endsWell_afterScheme (h : afterScheme scheme cs = .ok u) : u.EndsWell := by
  unfold afterScheme at h
  split at h
  · exact endsWell_fileRelative h
  · exact endsWell_afterSlashes h
  · exact endsWell_otherAbsolute h

/-- A URL that is read off a text ends well. -/
theorem endsWell_parse {text : String} (h : parse text = .ok u) : u.EndsWell := by
  rw [parse_eq] at h
  split at h
  · exact endsWell_afterScheme h
  · cases h

/-- A bare URL has no fragment. -/
theorem fragment_of_isBare (u : Url) [h : u.IsBare] : u.fragment = none := by
  rw [← h.withoutFragment_eq]
  rfl

/-- A flat path that ends in a space is not bare, unless a query follows. -/
theorem endsGraphic_flat {text : String} (htrim : trimFlat (.flat text) = .flat text)
    (h : ∀ c ∈ text.toList, Graphic c ∨ c = ' ') : EndsGraphic text := by
  intro c hc
  refine (h c (List.mem_of_getLast? hc)).resolve_right ?_
  rintro rfl
  have htext := congrArg String.toList (UrlPath.flat.inj htrim)
  rw [String.toList_ofList] at htext
  obtain ⟨rest, hrest⟩ : ∃ rest, text.toList.reverse = ' ' :: rest := by
    rw [← List.head?_reverse] at hc
    exact ⟨_, (List.cons_head?_tail hc).symm⟩
  have hlength := congrArg List.length htext
  have hsame := congrArg List.length hrest
  have hdrop := (List.dropWhile_sublist (p := (· == ' ')) (l := rest)).length_le
  rw [hrest, List.dropWhile_cons_of_pos rfl, List.length_reverse] at hlength
  rw [List.length_reverse, List.length_cons] at hsame
  omega

/-- Segments behind slashes end graphic if each of them does. -/
theorem endsGraphic_join {list : List String} (h : ∀ segment ∈ list, EndsGraphic segment) :
    EndsGraphic (String.join (list.map ("/" ++ ·))) := by
  induction list with
  | nil => exact .of_forall (by simp)
  | cons segment list ih =>
      rw [List.map_cons, String.join_cons]
      have hslash : EndsGraphic ("/" ++ segment) :=
        EndsGraphic.append (.of_all (by decide)) (h segment List.mem_cons_self)
      exact hslash.append (ih fun s hs => h s (List.mem_cons_of_mem _ hs))

/-- The path, with what stands before it, ends well if there is no query behind it. -/
theorem EndsWell.pathText [hbare : u.IsBare] (h : u.EndsWell) (hquery : u.query = none) :
    EndsGraphic (u.scheme ++ ":" ++ u.authorityText ++ u.path.text) := by
  have hcolon : EndsGraphic (u.scheme ++ ":") :=
    EndsGraphic.behind (.of_all (by decide)) (by decide) _
  cases hpath : u.path with
  | flat text =>
      obtain ⟨hauthority, hchars⟩ := h.flat text hpath
      have hnothing : u.authorityText = "" := by simp [authorityText, hauthority, hpath]
      have htrim : trimFlat (.flat text) = .flat text := by
        have hsame := congrArg Url.path hbare.withoutFragment_eq
        simpa [withoutFragment, hquery, hpath] using hsame
      rw [hnothing, String.append_empty]
      exact hcolon.append (endsGraphic_flat htrim hchars)
  | segments list =>
      have hjoin : EndsGraphic (UrlPath.text (.segments list)) :=
        endsGraphic_join (h.segments list hpath)
      cases list with
      | cons segment list =>
          refine hjoin.behind ?_ _
          simp [UrlPath.text, String.join_cons]
      | nil =>
          refine EndsGraphic.append ?_ hjoin
          cases hauthority : u.authority with
          | none =>
              have hnothing : u.authorityText = "" := by simp [authorityText, hauthority, hpath]
              rw [hnothing, String.append_empty]
              exact hcolon
          | some a =>
              have hslashes : u.authorityText = "//" ++ a.text := by
                simp [authorityText, hauthority]
              rw [hslashes]
              exact hcolon.append
                (EndsGraphic.append (.of_all (by decide)) (h.authority hpath a hauthority))

/-- The text of a URL without a fragment that has been read does not end in a space. -/
theorem EndsWell.text [u.IsBare] (h : u.EndsWell) : EndsGraphic u.text := by
  rw [Url.text, fragment_of_isBare u]
  refine EndsGraphic.append ?_ (.of_forall (by simp))
  cases hquery : u.query with
  | none => exact (h.pathText hquery).append (.of_forall (by simp))
  | some query =>
      have hmark : EndsGraphic ("?" ++ query) :=
        EndsGraphic.append (.of_all (by decide)) (h.query query hquery)
      exact hmark.behind (by simp) _

/-! ## Texts with a fragment behind them -/

/-- What is dropped at the ends of a text. -/
def isDropped (c : Char) : Bool :=
  c.toNat ≤ 0x20

/-- A graphic character is not dropped. -/
theorem isDropped_of_graphic (h : Graphic c) : isDropped c = false :=
  decide_eq_false (Nat.not_le.2 h)

/-- At an end that is graphic nothing is dropped. -/
theorem trimmed_eq (h : ∀ c, cs.getLast? = some c → Graphic c) :
    trimmed cs = cs.dropWhile isDropped := by
  rcases List.eq_nil_or_concat cs with rfl | ⟨before, c, rfl⟩
  · rfl
  rw [List.concat_eq_append] at h ⊢
  have hlast := isDropped_of_graphic (h c (by simp))
  have hdrop : (before ++ [c]).dropWhile isDropped = before.dropWhile isDropped ++ [c] :=
    Text.dropWhile_append_stop hlast _ _
  show (((before ++ [c]).dropWhile isDropped).reverse.dropWhile isDropped).reverse = _
  rw [hdrop, List.reverse_append, List.reverse_singleton, List.singleton_append,
    List.dropWhile_cons_of_neg (by simp [hlast]), List.reverse_cons, List.reverse_reverse]

/-- No character of a scheme is an `@`, in lower case either. -/
theorem toLower_ne_at (h : (c.isAlphanum || c == '+' || c == '-' || c == '.') = true) :
    c.toLower ≠ '@' := by
  intro hat
  unfold Char.toLower at hat
  split at hat
  · next hupper =>
      have hval := congrArg (fun c : Char => c.val.toNat) hat
      have hlow : 65 ≤ c.val.toNat := hupper.1
      have hhigh : c.val.toNat ≤ 90 := hupper.2
      simp only [UInt32.toNat_add] at hval
      have hshift : ('a'.val - 'A'.val).toNat = 32 := by decide
      have hcode : '@'.val.toNat = 64 := by decide
      omega
  · subst hat
    exact absurd h (by decide)

/-- A scheme has no `@`, and what it leaves stands in the text. -/
theorem schemeTail_spec {r : List Char × List Char} (h : schemeTail cs = some r) :
    '@' ∉ r.1 ∧ r.2 ⊆ cs := by
  induction cs generalizing r with
  | nil => cases h
  | cons c cs ih =>
      by_cases hc : c = ':'
      · subst hc
        obtain rfl := Option.some.inj h
        simp
      · rw [schemeTail_cons hc] at h
        split at h
        · obtain ⟨hat, hsub⟩ := ih h
          exact ⟨hat, List.subset_cons_of_subset _ hsub⟩
        · split at h
          · next hchar =>
              obtain ⟨r, hr, rfl⟩ := Option.map_eq_some_iff.1 h
              obtain ⟨hat, hsub⟩ := ih hr
              refine ⟨?_, List.subset_cons_of_subset _ hsub⟩
              rw [List.mem_cons, not_or]
              exact ⟨fun heq => toLower_ne_at hchar heq.symm, hat⟩
          · cases h

/-- The scheme of a text has no `@`, and what is behind it stands in the text. -/
theorem splitScheme_spec {r : String × List Char} (h : splitScheme cs = some r) :
    '@' ∉ r.1.toList ∧ r.2 ⊆ cs := by
  unfold splitScheme at h
  split at h
  · split at h
    · obtain ⟨r, hr, rfl⟩ := Option.map_eq_some_iff.1 h
      rw [String.toList_ofList]
      exact schemeTail_spec hr
    · cases h
  · cases h

/-- Trimming adds nothing to a text. -/
theorem trimmed_subset (cs : List Char) : trimmed cs ⊆ cs := by
  intro c hc
  have hmem := (List.dropWhile_sublist _).subset (List.mem_reverse.1 hc)
  exact (List.dropWhile_sublist _).subset (List.mem_reverse.1 hmem)

/-- A scheme that is not special is an other one. -/
theorem schemeKind_of_not_special (h : (schemeKind scheme).isSpecial = false) :
    schemeKind scheme = .other := by
  revert h
  cases schemeKind scheme <;> simp [SchemeKind.isSpecial]

/-- The URL of an authority that is an `@` alone. -/
theorem otherAbsolute_at (h : (schemeKind scheme).isSpecial = false) :
    otherAbsolute scheme ['/', '/', '@'] =
      .ok ⟨scheme, some (.ofHost ""), .segments [], none, none⟩ := by
  have hslashes : otherAbsolute scheme ['/', '/', '@'] = afterSlashes scheme ['@'] := rfl
  have hhost : hostOf (schemeKind scheme) [] = .ok "" := by
    rw [hostOf, h]
    rfl
  rw [hslashes, afterSlashes_eq, splitUserinfo_at]
  simp only [afterUserinfo, splitHost, hhost]
  show afterAuthority scheme (some ⟨"", "", "", none⟩) [] = _
  rw [afterAuthority, h]
  rfl

/-- The text of a URL does not have an `@` alone for its authority. -/
theorem ne_at (hu : parse u.text = .ok u) {r : String × List Char}
    (hr : splitScheme (trimmed u.text.toList) = some r)
    (hat : visible r.2 = ['/', '/', '@']) : (schemeKind r.1).isSpecial = true := by
  by_contra hspecial
  rw [Bool.not_eq_true] at hspecial
  have hkind := schemeKind_of_not_special hspecial
  obtain ⟨hscheme, hbehind⟩ := splitScheme_spec hr
  rw [parse_eq, hr] at hu
  simp only [afterScheme, hkind, hat, otherAbsolute_at hspecial] at hu
  have hmem : '@' ∈ u.text.toList := by
    have hvisible : '@' ∈ visible r.2 := by simp [hat]
    exact trimmed_subset _ (hbehind (List.mem_filter.1 hvisible).1)
  rw [← Except.ok.inj hu] at hmem
  simp [text, authorityText, Authority.text, Authority.userinfo, Authority.ofHost, UrlPath.text,
    hscheme] at hmem

/-- What is read without a fragment has no fragment. -/
theorem hash_not_mem_of_afterScheme [u.IsBare] (h : afterScheme scheme cs = .ok u) : '#' ∉ cs := by
  intro hmem
  obtain ⟨before, f, rfl, hbefore⟩ := List.eq_append_cons_of_mem hmem
  by_cases hat : visible before = ['/', '/', '@'] → (schemeKind scheme).isSpecial = true
  · rw [afterScheme_append hbefore hat] at h
    cases hread : afterScheme scheme before with
    | error fault =>
        rw [hread] at h
        cases h
    | ok v =>
        rw [hread] at h
        have hfragment := fragment_of_isBare u
        rw [← Except.ok.inj h] at hfragment
        cases hfragment
  · rw [Classical.not_imp, Bool.not_eq_true] at hat
    obtain ⟨hat, hspecial⟩ := hat
    rw [afterScheme, schemeKind_of_not_special hspecial, visible_append_hash, hat] at h
    have herror : otherAbsolute scheme (['/', '/', '@'] ++ '#' :: visible f) = .error .emptyHost :=
      afterSlashes_at_hash scheme (visible f)
    rw [herror] at h
    cases h

/-- With a fragment behind it, the text of a URL is read as the URL with that fragment. -/
theorem parse_append_hash [hbare : u.IsBare] (hu : parse u.text = .ok u) {f : List Char}
    (hf : ∀ c, f.getLast? = some c → Graphic c) :
    parse (u.text ++ "#" ++ String.ofList f) = .ok (u.withFragment f) := by
  have hends : EndsGraphic u.text := (endsWell_parse hu).text
  have htrimmed : trimmed (u.text ++ "#" ++ String.ofList f).toList =
      trimmed u.text.toList ++ '#' :: f := by
    have htext : (u.text ++ "#" ++ String.ofList f).toList = u.text.toList ++ '#' :: f := by
      simp
    rw [htext, trimmed_eq hends, trimmed_eq, Text.dropWhile_append_stop (by decide)]
    intro c hc
    rw [List.getLast?_append, List.getLast?_cons, Option.some_or] at hc
    obtain rfl := Option.some.inj hc
    cases hlast : f.getLast? with
    | none => exact (by decide : Graphic '#')
    | some d => exact hf d hlast
  have hparse := parse_eq u.text
  rw [hu] at hparse
  cases hscheme : splitScheme (trimmed u.text.toList) with
  | none =>
      rw [hscheme] at hparse
      cases hparse
  | some r =>
      rw [hscheme] at hparse
      have hread : afterScheme r.1 r.2 = .ok u := hparse.symm
      have hhash := hash_not_mem_of_afterScheme hread
      rw [parse_eq, htrimmed, splitScheme_append, hscheme]
      dsimp only [Option.map_some]
      rw [afterScheme_append hhash (ne_at hu hscheme), hread]
      rfl

end ModuleGraph.Url
