import ModuleGraph.Proofs.Bodies
import ModuleGraph.Proofs.UrlTexts

/-!
# References that stay inside a URL

A reference is joined to a URL that ends in a slash. Where it is a path that never leads above its
start (`Descends`), the text of the URL is a leading part of the text of the result
(`join_isPrefix`).

The path that is read is kept from its end, and its last part is the path of the URL, the root. What
is in front of the root has at least as many slashes as the segments have led down
(`PathDraft.addSegment_inside`), so that a segment `..` takes nothing of the root away. A drive
letter is the one thing that cuts a segment in two, and what is cut is no `..`
(`SegmentDraft.Holds`).
-/

namespace ModuleGraph

namespace Text

variable {α : Type} {p q : α → Bool} {as : List α}

/-- The pieces of a list have all members but the separators. -/
theorem flatten_splitWhere (p : α → Bool) (as : List α) :
    (splitWhere p as).flatten = as.filter (!p ·) := by
  induction as with
  | nil => rfl
  | cons a as ih =>
      rw [splitWhere]
      split
      · next ha => simp [ha, ih]
      · next ha =>
          obtain ⟨piece, pieces, hsplit⟩ := List.exists_cons_of_ne_nil (splitWhere_ne_nil p as)
          rw [hsplit] at ih ⊢
          simp [ha, ← ih]

/-- Pieces lose the members that a list loses, as long as these are no cuts. -/
theorem splitWhere_filter (h : ∀ a, q a = false → p a = false) :
    splitWhere p (as.filter q) = (splitWhere p as).map (List.filter q) := by
  induction as with
  | nil => rfl
  | cons a as ih =>
      by_cases hq : q a = true
      · rw [List.filter_cons_of_pos hq, splitWhere, splitWhere, ih]
        split
        · simp
        · cases splitWhere p as with
          | nil => simp [hq]
          | cons piece pieces => simp [hq]
      · have hp := h a (by simpa using hq)
        obtain ⟨piece, pieces, hsplit⟩ := List.exists_cons_of_ne_nil (splitWhere_ne_nil p as)
        rw [List.filter_cons_of_neg hq, splitWhere, ih, hsplit]
        simp [hq, hp]

end Text

namespace Url

variable {k : SchemeKind} {root path cs : List Char} {depth : Nat}

/-! ## Paths below a root -/

/-- A path in the making, from its end: a root, and in front of it at least as many slashes as the
path is deep. -/
def Below (root : List Char) (depth : Nat) (path : List Char) : Prop :=
  ∃ inside, path = inside ++ root ∧ depth ≤ inside.count '/'

/-- A path below a root that ends in a slash. -/
structure Inside (root : List Char) (depth : Nat) (path : List Char) : Prop where
  below : Below root depth path
  slash : path.head? = some '/'

/-- A path stays below its root when characters are put in front of it. -/
theorem Below.append (h : Below root depth path) (cs : List Char) :
    Below root depth (cs ++ path) := by
  obtain ⟨inside, rfl, hdepth⟩ := h
  refine ⟨cs ++ inside, (List.append_assoc _ _ _).symm, ?_⟩
  rw [List.count_append]
  omega

/-- A path is one level deeper behind a slash. -/
theorem Below.slash (h : Below root depth path) : Inside root (depth + 1) ('/' :: path) := by
  obtain ⟨inside, rfl, hdepth⟩ := h
  refine ⟨⟨'/' :: inside, rfl, ?_⟩, rfl⟩
  rw [List.count_cons_self]
  omega

/-- A path that is deep enough is deep enough for less. -/
theorem Below.mono {depth' : Nat} (h : Below root depth path) (hle : depth' ≤ depth) :
    Below root depth' path := by
  obtain ⟨inside, hpath, hdepth⟩ := h
  exact ⟨inside, hpath, hle.trans hdepth⟩

/-- A path is inside its root with a slash at its end. -/
theorem Below.withSlash (h : Below root depth path) : Inside root depth (withSlash path) := by
  unfold Url.withSlash
  split
  · exact ⟨h, rfl⟩
  · exact ⟨h.slash.below.mono (Nat.le_succ _), rfl⟩

/-- A path inside its root starts with a slash, and without it is one level less deep. -/
theorem Inside.exists_cons (h : Inside root (depth + 1) path) :
    ∃ before, path = '/' :: before ∧ Below root depth before := by
  obtain ⟨⟨inside, rfl, hdepth⟩, hslash⟩ := h
  cases inside with
  | nil => simp at hdepth
  | cons c inside =>
      obtain rfl := Option.some.inj hslash
      rw [List.count_cons_self] at hdepth
      exact ⟨inside ++ root, rfl, inside, rfl, by omega⟩

/-- Dropping the slash of a path leads one level up at most. -/
theorem Inside.dropSlash (h : Inside root (depth + 1) path) :
    Below root depth (dropSlash path) := by
  obtain ⟨before, rfl, hbelow⟩ := h.exists_cons
  rw [Url.dropSlash]
  split
  · exact hbelow
  · exact h.below.mono (Nat.le_succ _)

/-- Shortening a path below its root leaves the root. -/
theorem Below.shorten (hroot : root.head? = some '/') (h : Below root depth path)
    (k : SchemeKind) : Below root depth (shorten k path) := by
  unfold Url.shorten
  dsimp only
  split
  · exact h
  · obtain ⟨inside, rfl, hdepth⟩ := h
    obtain ⟨rest, rfl⟩ : ∃ rest, root = '/' :: rest := by
      cases root with
      | nil => cases hroot
      | cons c rest => exact ⟨rest, by rw [Option.some.inj hroot]⟩
    refine ⟨inside.dropWhile (· != '/'), Text.dropWhile_append_stop (by decide) _ _, ?_⟩
    have hname : (inside.takeWhile (· != '/')).count '/' = 0 := by
      rw [List.count_eq_zero]
      intro hmem
      exact absurd (List.mem_takeWhile_imp hmem) (by decide)
    have hcount := congrArg (List.count '/') (List.takeWhile_append_dropWhile (l := inside)
      (p := (· != '/')))
    rw [List.count_append, hname, Nat.zero_add] at hcount
    rwa [hcount]

/-- The only slash of a path is never dropped. -/
theorem Below.dropSlash (h : Below ['/'] 0 path) : Below ['/'] 0 (dropSlash path) := by
  obtain ⟨inside, rfl, -⟩ := h
  unfold Url.dropSlash
  split
  · next before heq =>
      dsimp only
      split
      · next hdrop =>
          cases inside with
          | nil =>
              obtain rfl := (List.cons.inj heq).2
              simp at hdrop
          | cons c inside =>
              obtain rfl := (List.cons.inj heq).2
              exact ⟨inside, rfl, Nat.zero_le _⟩
      · exact ⟨inside, heq.symm, Nat.zero_le _⟩
  · exact ⟨inside, rfl, Nat.zero_le _⟩

/-- The parent of a path is below the root as well, if the path is deep enough or the root is a
slash alone. -/
theorem Inside.parent (hroot : root.head? = some '/') (h : Inside root depth path)
    (hup : root = ['/'] ∨ 0 < depth) (k : SchemeKind) :
    Below root (depth - 1) (Url.shorten k (Url.dropSlash path)) := by
  refine Below.shorten hroot ?_ k
  cases depth with
  | zero =>
      obtain rfl := hup.resolve_right (Nat.lt_irrefl _)
      exact h.below.dropSlash
  | succ depth => exact h.dropSlash

/-! ## Segments -/

/-- A segment as a path has it, with its encoded dots decoded. -/
def dotsOf (segment : List Char) : List Char :=
  plainDots (Percent.encode Percent.pathSet (visible segment))

/-- Whether segments never lead above their start, one read after the other. A segment `..` leads
up, one of a dot leads nowhere, and any other one leads down. -/
def staysBelow : (depth : Nat) → List (List Char) → Bool
  | _, [] => true
  | depth, segment :: rest =>
    if dotsOf segment = ['.', '.'] then 0 < depth && staysBelow (depth - 1) rest
    else if dotsOf segment = ['.'] then staysBelow depth rest
    else staysBelow (depth + 1) rest

/-- A segment in the making, behind a path that ends in a slash. It is what is written for the
characters that have been read, unless these started with a drive letter that has been closed. -/
inductive SegmentDraft.Holds (path cs : List Char) (d : SegmentDraft) : Prop where
  | plain (hbefore : d.before = path)
      (hsegment : d.segment = (Percent.encode Percent.pathSet cs).reverse)
  | closed (letter : Char) (rest front : List Char) (hletter : letter.isAlpha = true)
      (hread : Percent.encode Percent.pathSet cs = letter :: rest)
      (hbefore : d.before = front ++ path) (hcolon : d.segment.getLast? = some ':')
      (hlong : 3 < (d.segment ++ d.before).length)

namespace SegmentDraft

variable {d : SegmentDraft}

/-- A drive is a letter and a mark behind a slash. -/
theorem isDrive_eq_true (h : d.isDrive = true) :
    ∃ letter c, d.segment ++ d.before = [':', letter, c] ∧ letter.isAlpha = true := by
  unfold isDrive at h
  split at h
  · next heq => exact ⟨_, _, heq, h⟩
  · cases h

/-- A drive letter behind a slash is the whole segment. -/
theorem Holds.close (hpath : path.head? = some '/') (h : d.Holds path cs)
    (hdrive : d.isDrive = true) : d.close.Holds path cs := by
  obtain ⟨letter, c, hwhole, hletter⟩ := isDrive_eq_true hdrive
  cases h with
  | closed _ _ _ _ _ _ _ hlong => simp [hwhole] at hlong
  | plain hbefore hsegment =>
      obtain ⟨before, segment⟩ := d
      dsimp only at hwhole hbefore hsegment
      subst hbefore
      -- the path in front ends in a slash, and so it is this slash alone
      obtain ⟨rfl, rfl⟩ : segment = [':', letter] ∧ before = [c] := by
        rcases segment with _ | ⟨a, _ | ⟨b, _ | ⟨e, rest⟩⟩⟩
        · rw [List.nil_append] at hwhole
          rw [hwhole] at hpath
          cases hpath
        · obtain rfl := (List.cons.inj hwhole).2
          obtain rfl := Option.some.inj hpath
          cases hletter
        · simpa [and_assoc] using hwhole
        · have hrest : rest = [] ∧ before = [] := by simpa using congrArg (List.drop 3) hwhole
          rw [hrest.2] at hpath
          cases hpath
      refine .closed letter [':'] [letter] hletter ?_ rfl rfl (by simp [SegmentDraft.close])
      rw [← List.reverse_reverse (Percent.encode _ cs), ← hsegment]
      rfl

/-- A segment in the making holds one run of characters more. -/
theorem Holds.append (hpath : path.head? = some '/') (h : d.Holds path cs) (k : SchemeKind)
    (run : List Char) : (d.append k run).Holds path (cs ++ run) := by
  have hrun : ∀ d : SegmentDraft, d.Holds path cs →
      Holds path (cs ++ run)
        { d with segment := (Percent.encode Percent.pathSet run).reverse ++ d.segment } := by
    intro d hd
    cases hd with
    | plain hbefore hsegment =>
        refine .plain hbefore ?_
        simp [hsegment, Percent.encode_append]
    | closed letter rest front hletter hread hbefore hcolon hlong =>
        refine .closed letter (rest ++ Percent.encode Percent.pathSet run) front hletter ?_ hbefore
          ?_ ?_
        · rw [Percent.encode_append, hread, List.cons_append]
        · simp [List.getLast?_append, hcolon]
        · simp only [List.length_append] at hlong ⊢
          omega
  unfold SegmentDraft.append
  split
  · next hempty =>
      rw [List.isEmpty_iff.1 hempty, List.append_nil]
      exact h
  · dsimp only
    split
    · next hdrive => exact hrun _ (h.close hpath hdrive.2)
    · exact hrun _ h

/-- A segment in the making holds all runs of characters that are put to it. -/
theorem Holds.appendAll (hpath : path.head? = some '/') (h : d.Holds path cs) (k : SchemeKind)
    (runs : List (List Char)) :
    (runs.foldl (SegmentDraft.append k) d).Holds path (cs ++ runs.flatten) := by
  induction runs generalizing d cs with
  | nil => simpa using h
  | cons run runs ih =>
      rw [List.foldl_cons, List.flatten_cons, ← List.append_assoc]
      exact ih (h.append hpath k run)

end SegmentDraft

/-- What starts with neither a dot nor a percent sign is no dots. -/
theorem plainDots_of_name {c : Char} (hpercent : c ≠ '%') (hdot : c ≠ '.') (cs : List Char) :
    plainDots (c :: cs) ≠ ['.', '.'] ∧ plainDots (c :: cs) ≠ ['.'] := by
  have hfirst : plainDots (c :: cs) = c :: plainDots cs := by
    rw [plainDots] <;> exact fun _ heq => absurd heq hpercent
  simp [hfirst, hdot]

namespace PathDraft

variable {path : PathDraft} {slashFollows : Bool} {d : SegmentDraft}

/-- The path with the segment in the making behind it. -/
def addDraft (k : SchemeKind) (slashFollows : Bool) (path : PathDraft) (d : SegmentDraft) :
    PathDraft :=
  let slash := if slashFollows then ['/'] else []
  match plainDots d.segment.reverse, d.before with
  | ['.', '.'], before =>
    let parent := shorten k (dropSlash before)
    { path with written := if slashFollows then withSlash parent else parent }
  | ['.'], before => { path with written := withSlash before }
  | _, [first] =>
    if k = .file ∧ isDriveLetter d.segment.reverse then
      ⟨slash ++ ':' :: d.segment.drop 1 ++ [first], true⟩
    else { path with written := slash ++ d.segment ++ [first] }
  | _, before => { path with written := slash ++ d.segment ++ before }

/-- A segment is added when all of its runs are put together. -/
theorem addSegment_eq (k : SchemeKind) (slashFollows : Bool) (path : PathDraft)
    (segment : List Char) :
    path.addSegment k slashFollows segment = path.addDraft k slashFollows
      ((Text.splitWhere isIgnored segment).foldl (SegmentDraft.append k) ⟨path.written, []⟩) :=
  rfl

/-- A segment `..` takes the last segment of the path away. -/
theorem addDraft_parent (k : SchemeKind) (slashFollows : Bool) (path : PathDraft)
    (h : plainDots d.segment.reverse = ['.', '.']) :
    (path.addDraft k slashFollows d).written =
      if slashFollows then withSlash (shorten k (dropSlash d.before))
      else shorten k (dropSlash d.before) := by
  simp [addDraft, h]

/-- A segment of one dot adds nothing but a slash. -/
theorem addDraft_self (k : SchemeKind) (slashFollows : Bool) (path : PathDraft)
    (h : plainDots d.segment.reverse = ['.']) :
    (path.addDraft k slashFollows d).written = withSlash d.before := by
  simp [addDraft, h]

/-- A name is written behind the path, also where it is a drive letter. -/
theorem addDraft_name (k : SchemeKind) (slashFollows : Bool) (path : PathDraft)
    (hparent : plainDots d.segment.reverse ≠ ['.', '.'])
    (hself : plainDots d.segment.reverse ≠ ['.']) :
    ∃ name, (path.addDraft k slashFollows d).written =
      (if slashFollows then ['/'] else []) ++ (name ++ d.before) := by
  unfold addDraft
  dsimp only
  split
  · next heq => exact absurd heq hparent
  · next heq => exact absurd heq hself
  · next first heq _ _ =>
      rw [heq]
      split
      · exact ⟨':' :: d.segment.drop 1, by simp⟩
      · exact ⟨d.segment, by simp⟩
  · exact ⟨d.segment, by simp⟩

/-- What a segment does to a path that ends in a slash: a segment of dots leads to the parent or
nowhere, and any other one is written behind the path. -/
theorem addSegment_spec (hpath : path.written.head? = some '/') (k : SchemeKind)
    (slashFollows : Bool) (segment : List Char) :
    (dotsOf segment = ['.', '.'] ∧ (path.addSegment k slashFollows segment).written =
        if slashFollows then withSlash (shorten k (dropSlash path.written))
        else shorten k (dropSlash path.written)) ∨
    (dotsOf segment = ['.'] ∧
      (path.addSegment k slashFollows segment).written = withSlash path.written) ∨
    (dotsOf segment ≠ ['.', '.'] ∧ dotsOf segment ≠ ['.'] ∧
      ∃ name, (path.addSegment k slashFollows segment).written =
        (if slashFollows then ['/'] else []) ++ (name ++ path.written)) := by
  have hstart : SegmentDraft.Holds path.written [] ⟨path.written, []⟩ := .plain rfl rfl
  have hholds := hstart.appendAll hpath k (Text.splitWhere isIgnored segment)
  rw [List.nil_append, Text.flatten_splitWhere] at hholds
  rw [addSegment_eq]
  generalize (Text.splitWhere isIgnored segment).foldl (SegmentDraft.append k)
    ⟨path.written, []⟩ = d at hholds ⊢
  cases hholds with
  | plain hbefore hsegment =>
      have hdots : plainDots d.segment.reverse = dotsOf segment := by
        rw [hsegment, List.reverse_reverse]
        rfl
      rw [← hbefore, ← hdots]
      by_cases hparent : plainDots d.segment.reverse = ['.', '.']
      · exact .inl ⟨hparent, addDraft_parent k slashFollows path hparent⟩
      by_cases hself : plainDots d.segment.reverse = ['.']
      · exact .inr (.inl ⟨hself, addDraft_self k slashFollows path hself⟩)
      · exact .inr (.inr ⟨hparent, hself, addDraft_name k slashFollows path hparent hself⟩)
  | closed letter rest front hletter hread hbefore hcolon hlong =>
      have hdots : dotsOf segment = plainDots (letter :: rest) := congrArg plainDots hread
      have hletters : ∀ c : Char, c.isAlpha = false → letter ≠ c := by
        rintro c hc rfl
        rw [hc] at hletter
        cases hletter
      -- a drive letter was closed: neither what has been read nor what is written is made of dots
      obtain ⟨hparent, hself⟩ :=
        plainDots_of_name (hletters '%' (by decide)) (hletters '.' (by decide)) rest
      obtain ⟨written, hwritten⟩ : ∃ written, d.segment.reverse = ':' :: written := by
        rw [← List.head?_reverse] at hcolon
        exact ⟨_, (List.cons_head?_tail hcolon).symm⟩
      obtain ⟨hparent', hself'⟩ := @plainDots_of_name ':' (by decide) (by decide) written
      rw [← hwritten] at hparent' hself'
      obtain ⟨name, hname⟩ := addDraft_name k slashFollows path hparent' hself'
      refine .inr (.inr ⟨hdots ▸ hparent, hdots ▸ hself, name ++ front, ?_⟩)
      rw [hname, hbefore, List.append_assoc]

variable {segment : List Char} {rest : List (List Char)}

/-- A segment with a slash behind it keeps the path below the root. -/
theorem addSegment_inside (hroot : root.head? = some '/') (k : SchemeKind)
    (h : Inside root depth path.written)
    (hstays : root = ['/'] ∨ staysBelow depth (segment :: rest) = true) :
    ∃ depth', Inside root depth' (path.addSegment k true segment).written ∧
      (root = ['/'] ∨ staysBelow depth' rest = true) := by
  rw [staysBelow] at hstays
  rcases addSegment_spec h.slash k true segment with
    ⟨hdots, hwritten⟩ | ⟨hdots, hwritten⟩ | ⟨hparent, hself, name, hwritten⟩
  · rw [if_pos hdots, Bool.and_eq_true, decide_eq_true_eq] at hstays
    rw [if_pos rfl] at hwritten
    exact ⟨depth - 1, hwritten ▸ (h.parent hroot (hstays.imp_right And.left) k).withSlash,
      hstays.imp_right And.right⟩
  · rw [if_neg (by simp [hdots]), if_pos hdots] at hstays
    exact ⟨depth, hwritten ▸ h.below.withSlash, hstays⟩
  · rw [if_neg hparent, if_neg hself] at hstays
    exact ⟨depth + 1, hwritten ▸ (h.below.append name).slash, hstays⟩

/-- The last segment keeps the path below the root as well. -/
theorem addSegment_below (hroot : root.head? = some '/') (k : SchemeKind)
    (h : Inside root depth path.written)
    (hstays : root = ['/'] ∨ staysBelow depth [segment] = true) :
    Below root 0 (path.addSegment k false segment).written := by
  rw [staysBelow] at hstays
  rcases addSegment_spec h.slash k false segment with
    ⟨hdots, hwritten⟩ | ⟨hdots, hwritten⟩ | ⟨-, -, name, hwritten⟩
  · rw [if_pos hdots, Bool.and_eq_true, decide_eq_true_eq] at hstays
    exact hwritten ▸ (h.parent hroot (hstays.imp_right And.left) k).mono (Nat.zero_le _)
  · exact hwritten ▸ h.below.withSlash.below.mono (Nat.zero_le _)
  · exact hwritten ▸ (h.below.append name).mono (Nat.zero_le _)

/-- Segments that never lead above their start keep a path below its root, and all segments keep it
below a slash alone. -/
theorem addSegments_below (hroot : root.head? = some '/') (k : SchemeKind)
    {segments : List (List Char)} (h : Inside root depth path.written)
    (hstays : root = ['/'] ∨ staysBelow depth segments = true) :
    Below root 0 (path.addSegments k segments).written := by
  induction segments generalizing path depth with
  | nil => exact h.below.mono (Nat.zero_le _)
  | cons segment rest ih =>
      cases rest with
      | nil => exact addSegment_below hroot k h hstays
      | cons next rest =>
          obtain ⟨depth', hinside, hrest⟩ := addSegment_inside hroot k h hstays
          exact ih hinside hrest

end PathDraft

/-! ## Texts of paths -/

/-- The pieces of a path with slashes in front of them are the path. -/
theorem flatMap_splitWhere (cs : List Char) :
    ((Text.splitWhere (· == '/') cs).flatMap fun piece => '/' :: piece) = '/' :: cs := by
  induction cs with
  | nil => rfl
  | cons c cs ih =>
      rw [Text.splitWhere]
      split
      · next hc =>
          rw [List.flatMap_cons, ih, beq_iff_eq.1 hc]
          rfl
      · obtain ⟨piece, pieces, hsplit⟩ :=
          List.exists_cons_of_ne_nil (Text.splitWhere_ne_nil (· == '/') cs)
        rw [hsplit, List.flatMap_cons, List.cons_append] at ih
        rw [hsplit, List.flatMap_cons, List.cons_append, List.cons_append, (List.cons.inj ih).2]

/-- The segments of a path's text are written as this text. -/
theorem text_segmentsOfText (cs : List Char) :
    (UrlPath.segments (segmentsOfText ('/' :: cs))).text.toList = '/' :: cs := by
  refine Eq.trans ?_ (flatMap_splitWhere cs)
  rw [segmentsOfText, UrlPath.text]
  induction Text.splitWhere (· == '/') cs with
  | nil => rfl
  | cons piece pieces ih =>
      rw [List.map_cons, List.map_cons, String.join_cons, String.toList_append, ih]
      simp

/-- Without an authority, a path is marked where its text begins with two slashes. -/
theorem authorityText_segmentsOfText {u : Url} {cs : List Char} (hauthority : u.authority = none)
    (hpath : u.path = .segments (segmentsOfText ('/' :: cs))) :
    u.authorityText = if cs.head? = some '/' then "/." else "" := by
  simp only [authorityText, hauthority, hpath, segmentsOfText]
  cases cs with
  | nil => rfl
  | cons c cs =>
      obtain ⟨piece, pieces, hsplit⟩ :=
        List.exists_cons_of_ne_nil (Text.splitWhere_ne_nil (· == '/') cs)
      rw [Text.splitWhere, hsplit]
      by_cases hc : c = '/' <;> simp [hc]

/-- The text of a URL up to its query. -/
def stem (u : Url) : String :=
  u.scheme ++ ":" ++ u.authorityText ++ u.path.text

/-- A URL without query and fragment is its stem. -/
theorem text_eq_stem {u : Url} (hquery : u.query = none) (hfragment : u.fragment = none) :
    u.text = u.stem := by
  rw [text, hquery, hfragment]
  simp [stem]

/-- The stem of a URL is a leading part of its text. -/
theorem stem_isPrefix (u : Url) : u.stem.toList <+: u.text.toList := by
  rw [text, ← stem.eq_def, String.append_assoc, String.toList_append]
  exact List.prefix_append _ _

/-- A reference to the same document keeps the stem. -/
theorem stem_sameDocument (u : Url) (cs : List Char) : (sameDocument u cs).stem = u.stem := by
  unfold sameDocument
  split <;> rfl

/-- The stem is a leading part of what it is after a reference to the same document. -/
theorem stem_isPrefix_sameDocument (u : Url) (cs : List Char) :
    u.stem.toList <+: (sameDocument u cs).stem.toList :=
  ⟨[], by rw [List.append_nil, stem_sameDocument]⟩

/-- A URL whose path only continues that of another one, with the same authority. -/
theorem stem_isPrefix_stem {u v : Url} {cs' : List Char} (hscheme : v.scheme = u.scheme)
    (hauthority : v.authority = u.authority)
    (hpath : u.path = .segments [] ∨
      ∃ cs, u.path = .segments (segmentsOfText ('/' :: cs)) ∧ cs <+: cs')
    (hpath' : v.path = .segments (segmentsOfText ('/' :: cs'))) :
    u.stem.toList <+: v.stem.toList := by
  have htext' : v.path.text.toList = '/' :: cs' := by rw [hpath', text_segmentsOfText]
  rw [stem, stem, hscheme]
  simp only [String.toList_append, List.append_assoc]
  refine (List.prefix_append_right_inj _).2 ((List.prefix_append_right_inj _).2 ?_)
  cases hcase : u.authority with
  | some a =>
      have hsame : v.authorityText = u.authorityText := by
        simp [authorityText, hauthority, hcase]
      rw [hsame]
      refine (List.prefix_append_right_inj _).2 ?_
      rcases hpath with hpath | ⟨cs, hpath, hbegins⟩
      · rw [hpath]
        exact List.nil_prefix
      · rw [htext', hpath, text_segmentsOfText]
        exact (List.cons_prefix_cons).2 ⟨rfl, hbegins⟩
  | none =>
      rcases hpath with hpath | ⟨cs, hpath, hbegins⟩
      · simp [authorityText, hcase, hpath, UrlPath.text]
      · have hmark := authorityText_segmentsOfText hcase hpath
        have hmark' := authorityText_segmentsOfText (hauthority.trans hcase) hpath'
        rw [htext', hpath, text_segmentsOfText, hmark, hmark']
        cases cs with
        | cons c cs =>
            -- two slashes are there in both paths or in none
            obtain ⟨rest, rfl⟩ := hbegins
            exact (List.prefix_append_right_inj _).2 ((List.cons_prefix_cons).2
              ⟨rfl, List.prefix_append _ _⟩)
        | nil =>
            rw [if_neg (by simp)]
            split <;> simp

/-! ## Paths that have been read -/

/-- The path of a URL that has been read: segments without slashes, of which only a URL without a
path has none. The first segment of a `file` URL is not empty, unless it is the only one. -/
def HasReadPath (u : Url) : Prop :=
  ∀ list, u.path = .segments list → list = [] ∧ u.scheme ≠ "file" ∨
    ∃ cs, list = segmentsOfText ('/' :: cs) ∧ (u.scheme = "file" → cs.head? ≠ some '/')

theorem schemeKind_file : schemeKind "file" = .file :=
  rfl

/-- Only the scheme `file` is of its kind. -/
theorem schemeKind_eq_file {scheme : String} (h : schemeKind scheme = .file) :
    scheme = "file" := by
  unfold schemeKind at h
  split at h
  · assumption
  · split at h <;> cases h

/-- A path that has been read has been read. -/
theorem hasReadPath_readPath {u : Url} {start : List Char}
    (h : u.path = .segments (readPath (schemeKind u.scheme) start cs).segments) :
    u.HasReadPath := by
  intro list hlist
  obtain rfl := UrlPath.segments.inj (hlist.symm.trans h)
  unfold readPath
  dsimp only
  generalize (PathDraft.addSegments _ _ _).written.reverse = text
  split
  · refine .inr ⟨text.dropWhile (· == '/'), rfl, fun _ hhead => ?_⟩
    have hnot := List.head?_dropWhile_not (· == '/') text
    rw [hhead] at hnot
    cases hnot
  · next hkind =>
      have hscheme : u.scheme ≠ "file" := fun heq => hkind (heq ▸ schemeKind_file)
      cases text with
      | nil => exact .inl ⟨rfl, hscheme⟩
      | cons c text => exact .inr ⟨text, rfl, fun heq => absurd heq hscheme⟩

/-- A query and a fragment do not matter. -/
theorem HasReadPath.withTail {u : Url} (h : u.HasReadPath) (cs : List Char) :
    (withTail u cs).HasReadPath :=
  h

/-- A reference to the same document keeps the path. -/
theorem HasReadPath.sameDocument {u : Url} (h : u.HasReadPath) (cs : List Char) :
    (sameDocument u cs).HasReadPath := by
  unfold Url.sameDocument
  split <;> exact h

/-- The path behind an authority has been read. -/
theorem hasReadPath_withPath (scheme : String) (authority : Option Authority)
    (start cs : List Char) : (withPath scheme authority start cs).HasReadPath :=
  HasReadPath.withTail (hasReadPath_readPath rfl) _

/-- A flat path has no segments. -/
theorem hasReadPath_flat {u : Url} {text : String} (h : u.path = .flat text) :
    u.HasReadPath := by
  intro list hlist
  rw [h] at hlist
  cases hlist

variable {scheme : String} {u : Url}

/-- A URL that is read behind an authority has a path that has been read. -/
theorem hasReadPath_afterAuthority {authority : Option Authority}
    (h : afterAuthority scheme authority cs = .ok u) : u.HasReadPath := by
  by_cases hstop : ∀ c rest, cs = c :: rest → c = '?' ∨ c = '#'
  · rw [afterAuthority_of_stop hstop] at h
    obtain rfl := Except.ok.inj h
    unfold withoutPath
    split
    · exact hasReadPath_withPath _ _ _ _
    · next hspecial =>
        refine HasReadPath.withTail (fun list hlist => .inl ⟨?_, ?_⟩) _
        · exact (UrlPath.segments.inj hlist).symm
        · rintro rfl
          exact hspecial rfl
  · push Not at hstop
    obtain ⟨c, rest, rfl, hquery, hhash⟩ := hstop
    rw [afterAuthority_cons hquery hhash] at h
    obtain rfl := Except.ok.inj h
    exact hasReadPath_withPath _ _ _ _

/-- A URL that is read behind a user name has a path that has been read. -/
theorem hasReadPath_afterUserinfo {userinfo : List Char}
    (h : afterUserinfo scheme userinfo cs = .ok u) : u.HasReadPath := by
  obtain ⟨host, -, h⟩ := Except.bind_eq_ok h
  unfold afterHost at h
  split at h
  · cases h
  · split at h
    · obtain ⟨r, -, h⟩ := Except.bind_eq_ok h
      exact hasReadPath_afterAuthority h
    · exact hasReadPath_afterAuthority h

/-- A URL that is read behind slashes has a path that has been read. -/
theorem hasReadPath_afterSlashes (h : afterSlashes scheme cs = .ok u) : u.HasReadPath := by
  rw [afterSlashes_eq] at h
  split at h
  · split at h
    · cases h
    · exact hasReadPath_afterUserinfo h
  · exact hasReadPath_afterUserinfo h
  · exact hasReadPath_afterUserinfo h

/-- A `file` URL that is read behind two slashes has a path that has been read. -/
theorem hasReadPath_fileAfterSlashes (h : fileAfterSlashes cs = .ok u) : u.HasReadPath := by
  have hhost : ∀ (host : String) (cs : List Char), (afterFileHost host cs).HasReadPath :=
    fun host cs => HasReadPath.withTail (hasReadPath_readPath rfl) _
  simp only [fileAfterSlashes, ← inAuthority.eq_def] at h
  split at h
  · obtain rfl := Except.ok.inj h
    exact hhost "" cs
  · cases hread : fileHost (visible (cs.takeWhile (inAuthority .file))) with
    | error fault =>
        rw [hread] at h
        cases h
    | ok host =>
        rw [hread] at h
        obtain rfl := Except.ok.inj h
        exact hhost host _

/-- A `file` URL that is read behind a slash has a path that has been read. -/
theorem hasReadPath_fileAfterSlash (base : Option Url) (cs : List Char) :
    (fileAfterSlash base cs).HasReadPath := by
  unfold fileAfterSlash
  repeat' split
  all_goals exact hasReadPath_withPath _ _ _ _

/-- A `file` URL that is read from a base has a path that has been read if the base has. -/
theorem hasReadPath_fileRelative {base : Option Url} (hbase : ∀ b ∈ base, b.HasReadPath)
    (h : fileRelative base cs = .ok u) : u.HasReadPath := by
  unfold fileRelative at h
  split at h
  · next b _ =>
      obtain rfl := Except.ok.inj h
      exact (hbase b rfl).sameDocument _
  · obtain rfl := Except.ok.inj h
    exact hasReadPath_withPath _ _ _ _
  · split at h
    · split at h
      · split at h
        · exact hasReadPath_fileAfterSlashes h
        · obtain rfl := Except.ok.inj h
          exact hasReadPath_fileAfterSlash _ _
      · obtain rfl := Except.ok.inj h
        exact hasReadPath_fileAfterSlash _ _
    · split at h
      · next b =>
          split at h
          · obtain rfl := Except.ok.inj h
            exact (hbase b rfl).sameDocument _
          · split at h <;> obtain rfl := Except.ok.inj h
            · exact hasReadPath_withPath _ _ _ _
            · exact hasReadPath_withPath _ _ _ _
      · obtain rfl := Except.ok.inj h
        exact hasReadPath_withPath _ _ _ _

/-- A URL of another scheme has a path that has been read. -/
theorem hasReadPath_otherAbsolute (h : otherAbsolute scheme cs = .ok u) : u.HasReadPath := by
  unfold otherAbsolute at h
  split at h
  · exact hasReadPath_afterSlashes h
  · obtain rfl := Except.ok.inj h
    exact hasReadPath_withPath _ _ _ _
  · obtain rfl := Except.ok.inj h
    exact HasReadPath.withTail (hasReadPath_flat rfl) _

/-- A relative URL has a path that has been read if its base has. -/
theorem hasReadPath_relative {base : Url} (hbase : base.HasReadPath)
    (h : relative base cs = .ok u) : u.HasReadPath := by
  unfold relative at h
  split at h
  · obtain rfl := Except.ok.inj h
    exact hbase.sameDocument _
  · obtain rfl := Except.ok.inj h
    exact hbase.sameDocument _
  · obtain rfl := Except.ok.inj h
    exact hbase.sameDocument _
  · split at h
    · split at h
      · split at h
        · exact hasReadPath_afterSlashes h
        · split at h
          · exact hasReadPath_afterSlashes h
          · obtain rfl := Except.ok.inj h
            exact hasReadPath_withPath _ _ _ _
      · obtain rfl := Except.ok.inj h
        exact hasReadPath_withPath _ _ _ _
    · obtain rfl := Except.ok.inj h
      exact hasReadPath_withPath _ _ _ _

/-- A URL that a reference leads to has a path that has been read. -/
theorem hasReadPath_parseReference {base : Option Url} {text : String}
    (hbase : ∀ b ∈ base, b.HasReadPath) (h : parseReference base text = .ok u) :
    u.HasReadPath := by
  have hfilter : ∀ p, ∀ b ∈ base.filter p, b.HasReadPath := fun p b hb =>
    hbase b (Option.mem_filter_iff.1 hb).1
  unfold parseReference at h
  dsimp only at h
  split at h
  · split at h
    · exact hasReadPath_fileRelative (hfilter _) h
    · split at h
      · next b heq =>
          split at h
          · exact hasReadPath_relative (hfilter _ b heq) h
          · exact hasReadPath_afterSlashes h
      · exact hasReadPath_afterSlashes h
    · exact hasReadPath_otherAbsolute h
  · split at h
    · cases h
    · next b =>
        split at h
        · obtain rfl := Except.ok.inj h
          exact (hbase b rfl).sameDocument _
        · split at h
          · cases h
          · split at h
            · exact hasReadPath_fileRelative (fun c hc => hbase c hc) h
            · exact hasReadPath_relative (hbase b rfl) h

/-- A URL that is read off a text has a path that has been read. -/
theorem hasReadPath_parse {text : String} (h : parse text = .ok u) : u.HasReadPath :=
  hasReadPath_parseReference (by simp) h

/-- A URL that a reference is joined to has a path that has been read if its base has. -/
theorem hasReadPath_join {base : Url} {text : String} (hbase : base.HasReadPath)
    (h : base.join text = .ok u) : u.HasReadPath :=
  hasReadPath_parseReference (by simpa using hbase) h

/-! ## References -/

/-- The segments of a reference, up to its query or fragment. -/
def referenceSegments (k : SchemeKind) (cs : List Char) : List (List Char) :=
  Text.splitWhere (isSlash k) (cs.takeWhile fun c => c != '?' && c != '#')

/-- A reference is a path that stays inside a URL: it has no scheme, does not start with a slash
or, for `file`, with a drive letter, and its segments never lead above its start, unless this is the
root and nothing is above it. -/
structure Descends (base : Url) (reference : String) : Prop where
  scheme : splitScheme (trimmed reference.toList) = none
  relative : ∀ c ∈ (visible (trimmed reference.toList)).head?, c ≠ '/' ∧ c ≠ '\\'
  drive : base.scheme = "file" →
    startsWithDriveLetter (visible (trimmed reference.toList)) = false
  inside : base.path.text = "/" ∨ staysBelow 0
    (referenceSegments (schemeKind base.scheme) (visible (trimmed reference.toList))) = true

/-- A reference descends if its scheme, its start and its segments allow it. -/
theorem descends_iff (base : Url) (reference : String) : Descends base reference ↔
    splitScheme (trimmed reference.toList) = none ∧
      ((visible (trimmed reference.toList)).head?.all fun c => c != '/' && c != '\\') = true ∧
      (base.scheme = "file" →
        startsWithDriveLetter (visible (trimmed reference.toList)) = false) ∧
      (base.path.text = "/" ∨ staysBelow 0
        (referenceSegments (schemeKind base.scheme) (visible (trimmed reference.toList))) =
          true) := by
  have hrelative : ((visible (trimmed reference.toList)).head?.all fun c =>
      c != '/' && c != '\\') = true ↔
      ∀ c ∈ (visible (trimmed reference.toList)).head?, c ≠ '/' ∧ c ≠ '\\' := by
    simp [Option.all_eq_true]
  rw [hrelative]
  exact ⟨fun h => ⟨h.scheme, h.relative, h.drive, h.inside⟩,
    fun ⟨hscheme, hrelative, hdrive, hinside⟩ => ⟨hscheme, hrelative, hdrive, hinside⟩⟩

instance (base : Url) (reference : String) : Decidable (Descends base reference) :=
  decidable_of_iff' _ (descends_iff base reference)

/-- What is dropped from a text is dropped at once. -/
theorem visible_visible (cs : List Char) : visible (visible cs) = visible cs :=
  List.filter_filter.trans (by simp [visible])

/-- What counts nowhere is left out at the start of a text, too. -/
theorem visible_dropWhile (cs : List Char) : visible (cs.dropWhile isIgnored) = visible cs := by
  have hignored : visible (cs.takeWhile isIgnored) = [] := by
    rw [visible, List.filter_eq_nil_iff]
    intro c hc
    simpa using List.mem_takeWhile_imp hc
  have hwhole : visible (cs.takeWhile isIgnored ++ cs.dropWhile isIgnored) = visible cs := by
    rw [List.takeWhile_append_dropWhile]
  rwa [visible, List.filter_append, ← visible, ← visible, hignored, List.nil_append] at hwhole

/-- Whether segments stay below does not depend on what is dropped from them. -/
theorem staysBelow_map_visible (depth : Nat) (segments : List (List Char)) :
    staysBelow depth (segments.map visible) = staysBelow depth segments := by
  have hdots : ∀ segment, dotsOf (visible segment) = dotsOf segment := fun segment => by
    rw [dotsOf, visible_visible, dotsOf]
  induction segments generalizing depth with
  | nil => rfl
  | cons segment rest ih => simp only [List.map_cons, staysBelow, hdots, ih]

/-- A character that is dropped ends no segment. -/
theorem isSlash_of_isIgnored {c : Char} (k : SchemeKind) (h : isIgnored c = true) :
    isSlash k c = false ∧ (c != '?' && c != '#') = true := by
  simp only [isIgnored, Bool.or_eq_true, beq_iff_eq] at h
  rcases h with (rfl | rfl) | rfl <;> cases k <;> decide

/-- What counts nowhere can be left out before a reference is cut into segments. -/
theorem referenceSegments_visible (k : SchemeKind) (cs : List Char) :
    referenceSegments k (visible cs) = (referenceSegments k cs).map visible := by
  have hignored : ∀ c, (!isIgnored c) = false → isIgnored c = true := by simp
  have hstop : (fun c : Char => !!isIgnored c || (c != '?' && c != '#')) =
      fun c => c != '?' && c != '#' := by
    funext c
    cases hc : isIgnored c
    · rfl
    · rw [(isSlash_of_isIgnored k hc).2, Bool.or_true]
  rw [referenceSegments, visible, List.takeWhile_filter, hstop]
  exact Text.splitWhere_filter fun c hc => (isSlash_of_isIgnored k (hignored c hc)).1

/-- The segments of a reference that stay inside continue the path that they are read behind. -/
theorem exists_readPath (k : SchemeKind) {cs reference : List Char}
    (hslash : ('/' :: cs).getLast? = some '/') (hfile : k = .file → cs.head? ≠ some '/')
    (hstays : cs = [] ∨ staysBelow 0 (referenceSegments k reference) = true) :
    ∃ cs', (readPath k ('/' :: cs) reference).segments = segmentsOfText ('/' :: cs') ∧
      cs <+: cs' := by
  have hroot : ('/' :: cs).reverse.head? = some '/' := List.head?_reverse.trans hslash
  have hstart : Inside ('/' :: cs).reverse 0 (PathDraft.mk ('/' :: cs).reverse false).written :=
    ⟨⟨[], rfl, Nat.zero_le _⟩, hroot⟩
  have hinside : ('/' :: cs).reverse = ['/'] ∨
      staysBelow 0 (referenceSegments k reference) = true :=
    hstays.imp_left fun hnil => by rw [hnil, List.reverse_singleton]
  obtain ⟨inside, hwritten, -⟩ := PathDraft.addSegments_below hroot k hstart hinside
  unfold readPath
  dsimp only
  rw [← referenceSegments.eq_def, hwritten, List.reverse_append, List.reverse_reverse]
  split
  · next hkind =>
      cases cs with
      | nil => exact ⟨_, rfl, List.nil_prefix⟩
      | cons c cs =>
          have hc : c ≠ '/' := by simpa using hfile hkind
          refine ⟨c :: cs ++ inside.reverse, ?_, List.prefix_append _ _⟩
          simp [hc]
  · exact ⟨cs ++ inside.reverse, rfl, List.prefix_append _ _⟩

/-- A URL has a path, and it ends in a slash: where the segments of a reference are read. -/
structure Directory (u : Url) (cs : List Char) : Prop where
  path : u.path = .segments [] ∧ cs = [] ∨ u.path = .segments (segmentsOfText ('/' :: cs))
  slash : ('/' :: cs).getLast? = some '/'
  file : u.scheme = "file" →
    u.path = .segments (segmentsOfText ('/' :: cs)) ∧ cs.head? ≠ some '/'

/-- A URL that has been read and ends in a slash is a directory, unless nothing can be relative to
it. -/
theorem exists_directory (hread : u.HasReadPath) (hflat : u.isFlat = false)
    (hslash : u.path.text = "" ∨ u.path.text.toList.getLast? = some '/') :
    ∃ cs, u.Directory cs := by
  cases hpath : u.path with
  | flat text => simp [isFlat, hpath] at hflat
  | segments list =>
      rcases hread list hpath with ⟨rfl, hscheme⟩ | ⟨cs, rfl, hfile⟩
      · exact ⟨[], .inl ⟨hpath, rfl⟩, rfl, fun heq => absurd heq hscheme⟩
      · refine ⟨cs, .inr hpath, ?_, fun heq => ⟨hpath, hfile heq⟩⟩
        rw [hpath, ← String.toList_eq_nil_iff, text_segmentsOfText] at hslash
        simpa using hslash

namespace Directory

variable {reference : List Char}

/-- A path that is read behind the path of a directory stays in it. -/
theorem stem_isPrefix_withPath (h : u.Directory cs)
    (hstays : cs = [] ∨
      staysBelow 0 (referenceSegments (schemeKind u.scheme) reference) = true) :
    u.stem.toList <+: (withPath u.scheme u.authority ('/' :: cs) reference).stem.toList := by
  have hfile : schemeKind u.scheme = .file → cs.head? ≠ some '/' := fun hkind =>
    (h.file (schemeKind_eq_file hkind)).2
  obtain ⟨cs', hread, hbegins⟩ := exists_readPath (schemeKind u.scheme) h.slash hfile hstays
  refine stem_isPrefix_stem rfl rfl ?_ (congrArg UrlPath.segments hread)
  rcases h.path with ⟨hpath, -⟩ | hpath
  · exact .inl hpath
  · exact .inr ⟨cs, hpath, hbegins⟩

/-- The root has no segments. -/
theorem eq_nil (h : u.Directory cs) (hroot : u.path.text = "/") : cs = [] := by
  rcases h.path with ⟨-, hnil⟩ | hpath
  · exact hnil
  · have htext := congrArg String.toList hroot
    rw [hpath, text_segmentsOfText] at htext
    exact (List.cons.inj htext).2

/-- A directory ends in a slash. -/
theorem exists_reverse (h : u.Directory cs) : ∃ rest, ('/' :: cs).reverse = '/' :: rest := by
  have hhead : ('/' :: cs).reverse.head? = some '/' := List.head?_reverse.trans h.slash
  exact ⟨_, (List.cons_head?_tail hhead).symm⟩

/-- A relative path starts behind the last slash of its base. -/
theorem relative_start (h : u.Directory cs) :
    (withSlash (u.path.text.toList.reverse.dropWhile (· != '/'))).reverse = '/' :: cs := by
  rcases h.path with ⟨hpath, rfl⟩ | hpath
  · rw [hpath]
    rfl
  · obtain ⟨rest, hrest⟩ := h.exists_reverse
    rw [hpath, text_segmentsOfText, hrest, List.dropWhile_cons_of_neg (by simp), withSlash, ← hrest,
      List.reverse_reverse]

/-- A relative path of a `file` URL starts behind the last slash of its base. -/
theorem file_start (h : u.Directory cs) (hscheme : u.scheme = "file") :
    (shorten .file u.path.text.toList.reverse).reverse = '/' :: cs := by
  obtain ⟨rest, hrest⟩ := h.exists_reverse
  have hlast : isNormalDrive [] = false := rfl
  rw [(h.file hscheme).1, text_segmentsOfText, hrest, shorten, if_neg (by simp [hlast]),
    List.dropWhile_cons_of_neg (by simp), ← hrest, List.reverse_reverse]

/-- A relative reference that descends keeps the stem of a directory. -/
theorem stem_isPrefix_relative (h : u.Directory cs) {v : Url}
    (hhead : ∀ c ∈ reference.head?, c ≠ '/' ∧ c ≠ '\\')
    (hstays : cs = [] ∨
      staysBelow 0 (referenceSegments (schemeKind u.scheme) reference) = true)
    (hread : relative u reference = .ok v) : u.stem.toList <+: v.stem.toList := by
  unfold relative at hread
  split at hread
  · obtain rfl := Except.ok.inj hread
    exact stem_isPrefix_sameDocument _ _
  · obtain rfl := Except.ok.inj hread
    exact stem_isPrefix_sameDocument _ _
  · obtain rfl := Except.ok.inj hread
    exact stem_isPrefix_sameDocument _ _
  · next c rest _ _ =>
      obtain ⟨hslash, hbackslash⟩ := hhead c rfl
      rw [if_neg (by simp [hslash, hbackslash])] at hread
      obtain rfl := Except.ok.inj hread
      rw [h.relative_start]
      exact h.stem_isPrefix_withPath hstays

/-- A reference that descends keeps the stem of a directory of files. -/
theorem stem_isPrefix_fileRelative (h : u.Directory cs) (hscheme : u.scheme = "file") {v : Url}
    (hhead : ∀ c ∈ (visible reference).head?, c ≠ '/' ∧ c ≠ '\\')
    (hdrive : startsWithDriveLetter (visible reference) = false)
    (hstays : cs = [] ∨ staysBelow 0 (referenceSegments .file (visible reference)) = true)
    (hread : fileRelative (some u) reference = .ok v) : u.stem.toList <+: v.stem.toList := by
  rw [← visible_dropWhile] at hhead hdrive hstays
  unfold fileRelative at hread
  cases hrest : reference.dropWhile isIgnored with
  | nil =>
      rw [hrest] at hread
      obtain rfl := Except.ok.inj hread
      exact stem_isPrefix_sameDocument _ _
  | cons c rest =>
      have hc : isIgnored c = false := by
        have hnot := List.head?_dropWhile_not isIgnored reference
        rw [hrest] at hnot
        simpa using hnot
      rw [hrest] at hread hhead hdrive hstays
      obtain ⟨hslash, hbackslash⟩ := hhead c (by simp [visible, hc])
      have hname : isSlash .file c = false := by simp [isSlash, hslash, hbackslash]
      dsimp only at hread
      rw [if_neg (by simp [hname])] at hread
      split at hread
      · obtain rfl := Except.ok.inj hread
        exact stem_isPrefix_sameDocument _ _
      · rw [if_neg (by simp [hdrive])] at hread
        obtain rfl := Except.ok.inj hread
        rw [h.file_start hscheme]
        have hraw : cs = [] ∨
            staysBelow 0 (referenceSegments (schemeKind u.scheme) (c :: rest)) = true := by
          rwa [hscheme, ← staysBelow_map_visible, ← referenceSegments_visible]
        have hbelow := h.stem_isPrefix_withPath hraw
        rwa [hscheme] at hbelow

end Directory

/-- What is in front of the query of a directory is a leading part of every URL that a reference
inside of it is joined to. -/
theorem stem_isPrefix_join {base : Url} {reference : String} (hread : base.HasReadPath)
    (hslash : base.path.text = "" ∨ base.path.text.toList.getLast? = some '/')
    (hdescends : Descends base reference)
    (h : base.join reference = .ok u) : base.stem.toList <+: u.stem.toList := by
  obtain ⟨hscheme, hhead, hdrive, hstays⟩ := hdescends
  unfold join parseReference at h
  dsimp only at h
  rw [hscheme] at h
  dsimp only at h
  split at h
  · obtain rfl := Except.ok.inj h
    exact stem_isPrefix_sameDocument _ _
  · split at h
    · cases h
    · next hflat =>
        obtain ⟨cs, hdirectory⟩ := exists_directory hread (by simpa using hflat) hslash
        have hinside := hstays.imp_left hdirectory.eq_nil
        split at h
        · next hfile =>
            rw [hfile] at hdrive hinside
            exact hdirectory.stem_isPrefix_fileRelative hfile hhead (hdrive rfl) hinside h
        · exact hdirectory.stem_isPrefix_relative hhead hinside h

/-- A reference that stays inside a URL that ends in a slash is joined to a URL whose text begins
with the text of this URL. -/
theorem join_isPrefix {base : Url} {reference : String} (hread : base.HasReadPath)
    (hslash : endsInSlash base.text = true) (hquery : base.query = none)
    (hfragment : base.fragment = none) (hdescends : Descends base reference)
    (h : base.join reference = .ok u) : base.text.toList <+: u.text.toList := by
  have htext := text_eq_stem hquery hfragment
  have hpath : base.path.text = "" ∨ base.path.text.toList.getLast? = some '/' := by
    rw [endsInSlash, beq_iff_eq, htext, stem, String.toList_append, List.getLast?_append] at hslash
    cases hlast : base.path.text.toList.getLast? with
    | none => exact .inl (String.toList_eq_nil_iff.1 (List.getLast?_eq_none_iff.1 hlast))
    | some c =>
        rw [hlast, Option.some_or] at hslash
        exact .inr hslash
  rw [htext]
  exact (stem_isPrefix_join hread hpath hdescends h).trans (stem_isPrefix u)

end Url

end ModuleGraph
