import ModuleGraph.Proofs.SegmentTexts
import Mathlib.Data.List.TakeWhile

/-!
# URLs with a fragment

A fragment behind a text is seen by no state of the reader but the last one: what is read off the
text with `#` and a fragment behind it is what is read off the text itself, with this fragment. This
is shown for each part of a URL (`withTail_append`, `afterSlashes_append`, …) and comes together in
`afterScheme_append`, for what stands behind a scheme.

There is one exception. An authority that is an `@` alone is read as an empty one at the end of a
text, but as a user without a host in front of a `#`.
-/

namespace ModuleGraph

/-! ## Prefixes up to a stop -/

namespace Text

variable {α : Type} {p : α → Bool} {as bs : List α} {a : α}

/-- A prefix ends at a stop, whatever stands behind it. -/
theorem takeWhile_append_stop (ha : p a = false) (as bs : List α) :
    (as ++ a :: bs).takeWhile p = as.takeWhile p := by
  induction as with
  | nil => simp [ha]
  | cons b as ih => cases hb : p b <;> simp [hb, ih]

/-- What is behind a prefix goes on with the stop and what stands behind it. -/
theorem dropWhile_append_stop (ha : p a = false) (as bs : List α) :
    (as ++ a :: bs).dropWhile p = as.dropWhile p ++ a :: bs := by
  induction as with
  | nil => simp [ha]
  | cons b as ih => cases hb : p b <;> simp [hb, ih]

/-- Dropping as many as are taken leaves the rest. -/
theorem drop_length_takeWhile (p : α → Bool) (as : List α) :
    as.drop (as.takeWhile p).length = as.dropWhile p := by
  induction as with
  | nil => rfl
  | cons a as ih => cases ha : p a <;> simp [ha, ih]

end Text

namespace Url

open Text

variable {u : Url} {k : SchemeKind} {scheme : String} {authority : Option Authority}
  {cs f start : List Char}

/-! ## Tails and paths -/

/-- The URL with the characters that count as its fragment. -/
def withFragment (u : Url) (f : List Char) : Url :=
  { u with fragment := some (encoded Percent.fragmentSet (visible f)) }

/-- What is visible of a text with a fragment is visible of both. -/
theorem visible_append_hash (cs f : List Char) :
    visible (cs ++ '#' :: f) = visible cs ++ '#' :: visible f := by
  rw [visible, List.filter_append, List.filter_cons_of_pos (by decide)]
  rfl

/-- No `#` becomes visible. -/
theorem hash_not_mem_visible (h : '#' ∉ cs) : '#' ∉ visible cs :=
  fun hmem => h (List.mem_filter.1 hmem).1

/-- No `#` is left of a text without one. -/
theorem hash_not_mem_dropWhile {p : Char → Bool} (h : '#' ∉ cs) : '#' ∉ cs.dropWhile p :=
  fun hmem => h ((List.dropWhile_sublist _).subset hmem)

/-- A text without `#` is dropped up to its end. -/
theorem dropWhile_hash (h : '#' ∉ cs) : cs.dropWhile (· != '#') = [] := by
  rw [List.dropWhile_eq_nil_iff]
  intro c hc
  simpa using fun heq : c = '#' => h (heq ▸ hc)

/-- A tail without a fragment, and one with a fragment behind it. -/
theorem withTail_append (u : Url) (h : '#' ∉ cs) (f : List Char) :
    withTail u (cs ++ '#' :: f) = (withTail u cs).withFragment f := by
  have hvisible := hash_not_mem_visible h
  simp only [withTail, withFragment, visible_append_hash]
  rw [dropWhile_append_stop (by decide), dropWhile_hash hvisible, List.nil_append]
  congr 1
  cases hcs : visible cs with
  | nil => rfl
  | cons c rest =>
      rw [hcs, List.mem_cons, not_or] at hvisible
      by_cases hc : c = '?'
      · subst hc
        have hquery : (rest ++ '#' :: visible f).takeWhile (· != '#') =
            rest.takeWhile (· != '#') := takeWhile_append_stop (by decide) _ _
        simp [hquery]
      · simp [hc]

/-- A path ends in front of the `#`, and leaves the fragment. -/
theorem readPath_append (k : SchemeKind) (start cs f : List Char) :
    readPath k start (cs ++ '#' :: f) =
      { readPath k start cs with rest := (readPath k start cs).rest ++ '#' :: f } := by
  simp only [readPath]
  rw [takeWhile_append_stop (by decide), dropWhile_append_stop (by decide)]

/-- What a path leaves of a text without `#` has none. -/
theorem hash_not_mem_rest (h : '#' ∉ cs) : '#' ∉ (readPath k start cs).rest :=
  hash_not_mem_dropWhile h

/-- A URL behind its authority has the fragment that stands behind the text. -/
theorem withPath_append (h : '#' ∉ cs) (f : List Char) :
    withPath scheme authority start (cs ++ '#' :: f) =
      (withPath scheme authority start cs).withFragment f := by
  simp only [withPath]
  rw [readPath_append]
  exact withTail_append _ (hash_not_mem_rest h) f

/-! ## Authorities -/

/-- A host ends in front of the `#`, and leaves the fragment. -/
theorem splitHost_append (k : SchemeKind) (inBrackets : Bool) (cs f : List Char) :
    splitHost k inBrackets (cs ++ '#' :: f) =
      ((splitHost k inBrackets cs).1, (splitHost k inBrackets cs).2 ++ '#' :: f) := by
  induction cs generalizing inBrackets with
  | nil => simp [splitHost]
  | cons c cs ih =>
      rw [List.cons_append]
      simp only [splitHost]
      split
      · rfl
      · rw [ih]

/-- What a host leaves of a text without `#` has none. -/
theorem hash_not_mem_splitHost {inBrackets : Bool} (h : '#' ∉ cs) :
    '#' ∉ (splitHost k inBrackets cs).2 := by
  induction cs generalizing inBrackets with
  | nil => simp [splitHost]
  | cons c cs ih =>
      simp only [splitHost]
      split
      · exact h
      · exact ih fun hmem => h (List.mem_cons_of_mem _ hmem)

/-- A port ends in front of the `#`, and leaves the fragment. -/
theorem port_append (scheme : String) (cs f : List Char) :
    port scheme (cs ++ '#' :: f) = (port scheme cs).map fun r => (r.1, r.2 ++ '#' :: f) := by
  simp only [port]
  rw [takeWhile_append_stop (by decide), dropWhile_append_stop (by decide)]
  cases Address.digits? 10 (cs.takeWhile Char.isDigit) with
  | none => rfl
  | some n =>
      cases cs.dropWhile Char.isDigit with
      | nil =>
          simp only [List.nil_append, BEq.rfl, Bool.or_true, Bool.not_true, Bool.false_eq_true,
            or_false]
          split
          · rfl
          · split <;> rfl
      | cons c rest =>
          simp only [List.cons_append]
          split
          · rfl
          · split <;> rfl

/-- What a port leaves of a text without `#` has none. -/
theorem port_rest {r : Option Nat × List Char} (h : port scheme cs = .ok r) (hcs : '#' ∉ cs) :
    '#' ∉ r.2 := by
  have hrest : '#' ∉ cs.dropWhile Char.isDigit := hash_not_mem_dropWhile hcs
  simp only [port] at h
  repeat' split at h
  all_goals cases h <;> exact hrest

/-- The characters that an authority may have. -/
def inAuthority (k : SchemeKind) (c : Char) : Bool :=
  !(isSlash k c || c == '?' || c == '#')

/-- The last `@` of an authority is cut out. -/
theorem splitUserinfo_eq {r : List Char × List Char} (h : splitUserinfo k cs = some r) :
    cs = r.1 ++ '@' :: r.2 := by
  simp only [splitUserinfo, ← inAuthority.eq_def] at h
  generalize hwhole : cs.takeWhile (inAuthority k) = authority at h
  split at h
  · next hat =>
      obtain rfl := Option.some.inj h
      have hmem : '@' ∈ authority.reverse := by simpa using hat
      obtain ⟨behind, before, hparts, hnot⟩ := List.eq_append_cons_of_mem hmem
      have hbehind : authority.reverse.takeWhile (· != '@') = behind := by
        rw [hparts, takeWhile_append_stop (by decide), List.takeWhile_eq_self_iff]
        intro c hc
        simpa using fun heq : c = '@' => hnot (heq ▸ hc)
      have hauthority : authority = before.reverse ++ '@' :: behind.reverse := by
        simpa using congrArg List.reverse hparts
      rw [hbehind, List.length_reverse]
      have hlength : authority.length - behind.length - 1 = before.reverse.length := by
        simp only [hauthority, List.length_append, List.length_cons, List.length_reverse]
        omega
      have htake : authority.take before.reverse.length = before.reverse := by
        rw [hauthority, List.take_left]
      rw [hlength, htake]
      dsimp only
      rw [← List.cons_append, ← List.append_assoc, ← hauthority, ← hwhole,
        List.takeWhile_append_dropWhile]
  · cases h

/-- A user name ends in front of the `#`, and leaves the fragment. -/
theorem splitUserinfo_append (k : SchemeKind) (cs f : List Char) :
    splitUserinfo k (cs ++ '#' :: f) =
      (splitUserinfo k cs).map fun r => (r.1, r.2 ++ '#' :: f) := by
  have hstop : inAuthority k '#' = false := by simp [inAuthority]
  simp only [splitUserinfo, ← inAuthority.eq_def]
  rw [takeWhile_append_stop hstop, dropWhile_append_stop hstop]
  split
  · simp
  · rfl

/-- The host of a URL with an authority. -/
def hostOf (k : SchemeKind) (cs : List Char) : Except UrlFault String :=
  if k.isSpecial then if cs.isEmpty then .error .emptyHost else specialHost cs else otherHost cs

/-- The URL behind an authority. -/
def afterAuthority (scheme : String) (authority : Option Authority) (cs : List Char) :
    Except UrlFault Url :=
  match cs with
  | [] | '?' :: _ | '#' :: _ =>
    if (schemeKind scheme).isSpecial then .ok (withPath scheme authority ['/'] cs)
    else .ok (withTail ⟨scheme, authority, .segments [], none, none⟩ cs)
  | c :: rest =>
    .ok (withPath scheme authority ['/']
      (if isSlash (schemeKind scheme) c then rest else c :: rest))

/-- The URL behind a host. -/
def afterHost (scheme username password host : String) (cs : List Char) : Except UrlFault Url := do
  if host = "" ∧ (cs.head? = some ':' ∨ username ≠ "" ∨ password ≠ "") then .error .emptyHost
  else
    let (port, cs) ← if cs.head? = some ':' then port scheme (cs.drop 1) else .ok (none, cs)
    afterAuthority scheme (some ⟨username, password, host, port⟩) cs

/-- The URL behind a user name and password. -/
def afterUserinfo (scheme : String) (userinfo cs : List Char) : Except UrlFault Url :=
  hostOf (schemeKind scheme) (splitHost (schemeKind scheme) false cs).1 >>= fun host =>
    afterHost scheme (encoded Percent.userinfoSet (userinfo.takeWhile (· != ':')))
      (encoded Percent.userinfoSet ((userinfo.dropWhile (· != ':')).drop 1)) host
      (splitHost (schemeKind scheme) false cs).2

/-- Reading the host of a URL is the first step of what follows. -/
theorem bind_hostOf {β : Type} (k : SchemeKind) (cs : List Char)
    (next : String → Except UrlFault β) : hostOf k cs >>= next =
      if k.isSpecial then
        if cs.isEmpty then .error .emptyHost >>= next else specialHost cs >>= next
      else otherHost cs >>= next := by
  unfold hostOf
  split
  · split <;> rfl
  · rfl

/-- The states of the reader behind two slashes. -/
theorem afterSlashes_eq (scheme : String) (cs : List Char) : afterSlashes scheme cs =
    match splitUserinfo (schemeKind scheme) cs with
    | some ([], c :: cs) =>
      if isSlash (schemeKind scheme) c || c == '?' || c == '#' then .error .emptyHost
      else afterUserinfo scheme [] (c :: cs)
    | some split => afterUserinfo scheme split.1 split.2
    | none => afterUserinfo scheme [] cs := by
  unfold afterSlashes afterUserinfo
  simp only [bind_hostOf]
  cases splitUserinfo (schemeKind scheme) cs with
  | none => rfl
  | some split =>
      obtain ⟨userinfo, rest⟩ := split
      cases userinfo with
      | cons c userinfo => rfl
      | nil =>
          cases rest with
          | nil => rfl
          | cons c rest =>
              dsimp only
              split <;> rfl

/-- The URL of an authority without a path behind it. -/
def withoutPath (scheme : String) (authority : Option Authority) (cs : List Char) : Url :=
  if (schemeKind scheme).isSpecial then withPath scheme authority ['/'] cs
  else withTail ⟨scheme, authority, .segments [], none, none⟩ cs

/-- A URL without a path has the fragment that stands behind the text. -/
theorem withoutPath_append (h : '#' ∉ cs) (f : List Char) :
    withoutPath scheme authority (cs ++ '#' :: f) =
      (withoutPath scheme authority cs).withFragment f := by
  unfold withoutPath
  split
  · exact withPath_append h f
  · exact withTail_append _ h f

/-- A query, a fragment or nothing behind an authority leaves no path. -/
theorem afterAuthority_of_stop (h : ∀ c rest, cs = c :: rest → c = '?' ∨ c = '#') :
    afterAuthority scheme authority cs = .ok (withoutPath scheme authority cs) := by
  rw [withoutPath, apply_ite Except.ok]
  cases cs with
  | nil => rfl
  | cons c rest =>
      rcases h c rest rfl with rfl | rfl
      · rfl
      · rfl

/-- Any other character behind an authority starts a path. -/
theorem afterAuthority_cons {c : Char} (hquery : c ≠ '?') (hhash : c ≠ '#') (cs : List Char) :
    afterAuthority scheme authority (c :: cs) =
      .ok (withPath scheme authority ['/']
        (if isSlash (schemeKind scheme) c then cs else c :: cs)) := by
  unfold afterAuthority
  split
  · next heq => cases heq
  · next heq => exact absurd (List.cons.inj heq).1 hquery
  · next heq => exact absurd (List.cons.inj heq).1 hhash
  · next heq =>
      obtain ⟨rfl, rfl⟩ := List.cons.inj heq
      rfl

/-- A URL behind an authority has the fragment that stands behind the text. -/
theorem afterAuthority_append (h : '#' ∉ cs) (f : List Char) :
    afterAuthority scheme authority (cs ++ '#' :: f) =
      (afterAuthority scheme authority cs).map (·.withFragment f) := by
  cases cs with
  | nil =>
      rw [afterAuthority_of_stop (by simp), afterAuthority_of_stop (by simp),
        withoutPath_append h]
      rfl
  | cons c rest =>
      have hrest : '#' ∉ rest := fun hmem => h (List.mem_cons_of_mem _ hmem)
      by_cases hquery : c = '?'
      · subst hquery
        rw [afterAuthority_of_stop (by simp), afterAuthority_of_stop (by simp),
          withoutPath_append h]
        rfl
      · have hhash : c ≠ '#' := fun heq => h (heq ▸ List.mem_cons_self)
        rw [List.cons_append, afterAuthority_cons hquery hhash, afterAuthority_cons hquery hhash]
        split
        · rw [withPath_append hrest]
          rfl
        · rw [← List.cons_append, withPath_append h]
          rfl

/-- A URL behind a host has the fragment that stands behind the text. -/
theorem afterHost_append {username password host : String} (h : '#' ∉ cs) (f : List Char) :
    afterHost scheme username password host (cs ++ '#' :: f) =
      (afterHost scheme username password host cs).map (·.withFragment f) := by
  have hhead : (cs ++ '#' :: f).head? = some ':' ↔ cs.head? = some ':' := by
    cases cs <;> simp
  simp only [afterHost, hhead]
  split
  · rfl
  · split
    · next hport =>
        have hdrop : (cs ++ '#' :: f).drop 1 = cs.drop 1 ++ '#' :: f := by
          cases cs <;> simp at hport ⊢
        have hbehind : '#' ∉ cs.drop 1 := fun hmem => h ((List.drop_sublist _ _).subset hmem)
        rw [hdrop, port_append]
        cases hread : port scheme (cs.drop 1) with
        | error fault => rfl
        | ok r => exact afterAuthority_append (port_rest hread hbehind) f
    · exact afterAuthority_append h f

/-- A URL behind a user name has the fragment that stands behind the text. -/
theorem afterUserinfo_append {userinfo : List Char} (h : '#' ∉ cs) (f : List Char) :
    afterUserinfo scheme userinfo (cs ++ '#' :: f) =
      (afterUserinfo scheme userinfo cs).map (·.withFragment f) := by
  simp only [afterUserinfo, splitHost_append]
  cases hostOf (schemeKind scheme) (splitHost (schemeKind scheme) false cs).1 with
  | error fault => rfl
  | ok host => exact afterHost_append (hash_not_mem_splitHost h) f

/-- An `@` alone is an empty user name with nothing behind it. -/
theorem splitUserinfo_at (k : SchemeKind) : splitUserinfo k ['@'] = some ([], []) := by
  cases k <;> rfl

/-- An `@` in front of a `#` is a user without a host. -/
theorem afterSlashes_at_hash (scheme : String) (f : List Char) :
    afterSlashes scheme ('@' :: '#' :: f) = .error .emptyHost := by
  have hsplit := splitUserinfo_append (schemeKind scheme) ['@'] f
  rw [splitUserinfo_at] at hsplit
  rw [afterSlashes_eq, show '@' :: '#' :: f = ['@'] ++ '#' :: f from rfl, hsplit]
  simp

/-- A host is missing behind an `@` alone, where there has to be one. -/
theorem afterSlashes_at (h : (schemeKind scheme).isSpecial = true) :
    afterSlashes scheme ['@'] = .error .emptyHost := by
  rw [afterSlashes_eq, splitUserinfo_at]
  simp only [afterUserinfo, splitHost, hostOf, h, List.isEmpty_nil, if_true]
  rfl

/-- An `@` alone may stand for an authority without a fragment behind it, and for none with one. -/
theorem afterSlashes_append (h : '#' ∉ cs)
    (hat : cs = ['@'] → (schemeKind scheme).isSpecial = true) (f : List Char) :
    afterSlashes scheme (cs ++ '#' :: f) = (afterSlashes scheme cs).map (·.withFragment f) := by
  by_cases hcs : cs = ['@']
  · subst hcs
    rw [afterSlashes_at (hat rfl)]
    exact afterSlashes_at_hash scheme f
  rw [afterSlashes_eq, afterSlashes_eq, splitUserinfo_append]
  cases hsplit : splitUserinfo (schemeKind scheme) cs with
  | none => exact afterUserinfo_append h f
  | some split =>
      have hparts := splitUserinfo_eq hsplit
      obtain ⟨userinfo, rest⟩ := split
      have hrest : '#' ∉ rest := fun hmem => h (by simp [hparts, hmem])
      cases userinfo with
      | cons c userinfo => exact afterUserinfo_append hrest f
      | nil =>
          cases rest with
          | nil => exact absurd hparts hcs
          | cons c rest =>
              dsimp only [Option.map_some, List.cons_append]
              split
              · rfl
              · exact afterUserinfo_append hrest f

/-! ## `file` URLs -/

/-- The `file` URL behind its host. -/
def afterFileHost (host : String) (cs : List Char) : Url :=
  let path :=
    match cs with
    | c :: rest => if host ≠ "" ∧ isSlash .file c then rest else c :: rest
    | [] => []
  let r := readPath .file ['/'] path
  let host := if r.hasDrive then "" else host
  withTail ⟨"file", some (.ofHost host), .segments r.segments, none, none⟩ r.rest

/-- A `file` URL behind its host has the fragment that stands behind the text. -/
theorem afterFileHost_append {host : String} (h : '#' ∉ cs) (f : List Char) :
    afterFileHost host (cs ++ '#' :: f) = (afterFileHost host cs).withFragment f := by
  have hpath : ∀ cs : List Char, '#' ∉ cs →
      (let r := readPath .file ['/'] (cs ++ '#' :: f)
      withTail ⟨"file", some (.ofHost (if r.hasDrive then "" else host)), .segments r.segments,
        none, none⟩ r.rest) =
      (let r := readPath .file ['/'] cs
      withTail ⟨"file", some (.ofHost (if r.hasDrive then "" else host)), .segments r.segments,
        none, none⟩ r.rest).withFragment f := by
    intro cs h
    simp only [readPath_append]
    exact withTail_append _ (hash_not_mem_rest h) f
  cases cs with
  | nil =>
      have hslash : ¬ (host ≠ "" ∧ isSlash .file '#' = true) := fun hslash =>
        absurd hslash.2 (by decide)
      simp only [afterFileHost, List.nil_append, if_neg hslash]
      exact hpath [] h
  | cons c rest =>
      simp only [afterFileHost, List.cons_append]
      split
      · exact hpath rest fun hmem => h (List.mem_cons_of_mem _ hmem)
      · exact hpath (c :: rest) h

/-- A `file` URL behind two slashes has the fragment that stands behind the text. -/
theorem fileAfterSlashes_append (h : '#' ∉ cs) (f : List Char) :
    fileAfterSlashes (cs ++ '#' :: f) = (fileAfterSlashes cs).map (·.withFragment f) := by
  have hstop : inAuthority .file '#' = false := by decide
  simp only [fileAfterSlashes, ← inAuthority.eq_def]
  rw [takeWhile_append_stop hstop, dropWhile_append_stop hstop]
  split
  · exact congrArg Except.ok (afterFileHost_append h f)
  · cases fileHost (visible (cs.takeWhile (inAuthority .file))) with
    | error fault => rfl
    | ok host => exact congrArg Except.ok (afterFileHost_append (hash_not_mem_dropWhile h) f)

/-- A `file` URL behind a slash has the fragment that stands behind the text. -/
theorem fileAfterSlash_append (h : '#' ∉ cs) (f : List Char) :
    fileAfterSlash none (cs ++ '#' :: f) = (fileAfterSlash none cs).withFragment f := by
  simp only [fileAfterSlash, ite_self]
  exact withPath_append h f

/-- A `file` URL without slashes has the fragment that stands behind the text. -/
theorem fileRelative_append (h : '#' ∉ cs) (f : List Char) :
    fileRelative none (cs ++ '#' :: f) = (fileRelative none cs).map (·.withFragment f) := by
  have hstop : isIgnored '#' = false := by decide
  have hslash : isSlash .file '#' = false := by decide
  have hcs := hash_not_mem_dropWhile (p := isIgnored) h
  simp only [fileRelative]
  rw [dropWhile_append_stop hstop]
  cases hvisible : cs.dropWhile isIgnored with
  | nil => exact congrArg Except.ok (withPath_append List.not_mem_nil f)
  | cons c rest =>
      rw [hvisible] at hcs
      have hrest : '#' ∉ rest := fun hmem => hcs (List.mem_cons_of_mem _ hmem)
      rw [List.cons_append]
      dsimp only
      split
      · rw [dropWhile_append_stop hstop]
        have hbehind := hash_not_mem_dropWhile (p := isIgnored) hrest
        cases hsecond : rest.dropWhile isIgnored with
        | nil =>
            simp only [List.nil_append, hslash, Bool.false_eq_true, if_false]
            exact congrArg Except.ok (fileAfterSlash_append hrest f)
        | cons d behind =>
            rw [hsecond] at hbehind
            simp only [List.cons_append]
            split
            · exact fileAfterSlashes_append (fun hmem => hbehind (List.mem_cons_of_mem _ hmem)) f
            · exact congrArg Except.ok (fileAfterSlash_append hrest f)
      · exact congrArg Except.ok (withPath_append hcs f)

/-! ## Other URLs -/

/-- Without a slash behind the scheme the path is flat. -/
theorem otherAbsolute_flat (h : ∀ rest, cs ≠ '/' :: rest) : otherAbsolute scheme cs =
    .ok (withTail ⟨scheme, none,
      .flat (encoded Percent.controlSet (cs.takeWhile fun c => c != '?' && c != '#')), none, none⟩
      (cs.dropWhile fun c => c != '?' && c != '#')) := by
  unfold otherAbsolute
  split
  · exact absurd rfl (h _)
  · exact absurd rfl (h _)
  · rfl

/-- One slash behind the scheme starts a path without an authority. -/
theorem otherAbsolute_slash (h : ∀ rest, cs ≠ '/' :: rest) :
    otherAbsolute scheme ('/' :: cs) = .ok (withPath scheme none ['/'] cs) := by
  unfold otherAbsolute
  split
  · next heq => exact absurd (List.cons.inj heq).2 (h _)
  · next heq => rw [(List.cons.inj heq).2]
  · next hnot => exact absurd rfl (hnot cs)

/-- A URL of another scheme has the fragment that stands behind the text. -/
theorem otherAbsolute_append (h : '#' ∉ cs)
    (hat : cs = ['/', '/', '@'] → (schemeKind scheme).isSpecial = true) (f : List Char) :
    otherAbsolute scheme (cs ++ '#' :: f) = (otherAbsolute scheme cs).map (·.withFragment f) := by
  have hhead : ∀ cs : List Char, (∀ rest, cs ≠ '/' :: rest) →
      ∀ rest, cs ++ '#' :: f ≠ '/' :: rest := by
    rintro (_ | ⟨c, cs⟩) hcs rest heq
    · simp at heq
    · exact hcs cs (by rw [(List.cons.inj heq).1])
  by_cases hfirst : ∃ rest, cs = '/' :: rest
  · obtain ⟨rest, rfl⟩ := hfirst
    have hrest : '#' ∉ rest := fun hmem => h (List.mem_cons_of_mem _ hmem)
    by_cases hsecond : ∃ behind, rest = '/' :: behind
    · obtain ⟨behind, rfl⟩ := hsecond
      exact afterSlashes_append (fun hmem => hrest (List.mem_cons_of_mem _ hmem))
        (fun heq => hat (by rw [heq])) f
    · have hnot := not_exists.1 hsecond
      rw [List.cons_append, otherAbsolute_slash hnot, otherAbsolute_slash (hhead _ hnot),
        withPath_append hrest]
      rfl
  · have hnot := not_exists.1 hfirst
    rw [otherAbsolute_flat hnot, otherAbsolute_flat (hhead _ hnot),
      takeWhile_append_stop (by decide), dropWhile_append_stop (by decide),
      withTail_append _ (hash_not_mem_dropWhile h)]
    rfl

/-! ## Schemes -/

/-- A scheme goes on over letters, digits and three marks, and drops what is not visible. -/
theorem schemeTail_cons {c : Char} (hc : c ≠ ':') (cs : List Char) : schemeTail (c :: cs) =
    if isIgnored c then schemeTail cs
    else if c.isAlphanum || c == '+' || c == '-' || c == '.' then
      (schemeTail cs).map fun r => (c.toLower :: r.1, r.2)
    else none := by
  rw [schemeTail]
  exact hc

/-- A scheme ends in front of the `#`, and leaves the fragment. -/
theorem schemeTail_append (cs f : List Char) :
    schemeTail (cs ++ '#' :: f) = (schemeTail cs).map fun r => (r.1, r.2 ++ '#' :: f) := by
  induction cs with
  | nil =>
      rw [List.nil_append, schemeTail_cons (by decide)]
      rfl
  | cons c cs ih =>
      rw [List.cons_append]
      by_cases hc : c = ':'
      · subst hc
        rfl
      · rw [schemeTail_cons hc, schemeTail_cons hc, ih]
        split
        · rfl
        · split
          · rw [Option.map_map, Option.map_map]
            rfl
          · rfl

/-- A text with a fragment has the scheme that the text has. -/
theorem splitScheme_append (cs f : List Char) :
    splitScheme (cs ++ '#' :: f) = (splitScheme cs).map fun r => (r.1, r.2 ++ '#' :: f) := by
  cases cs with
  | nil => rfl
  | cons c cs =>
      have htail := schemeTail_append (c :: cs) f
      rw [List.cons_append] at htail ⊢
      simp only [splitScheme, htail]
      split
      · rw [Option.map_map, Option.map_map]
        rfl
      · rfl

/-- The URL of a text behind its scheme. -/
def afterScheme (scheme : String) (cs : List Char) : Except UrlFault Url :=
  match schemeKind scheme with
  | .file => fileRelative none cs
  | .special => afterSlashes scheme ((visible cs).dropWhile fun c => c == '/' || c == '\\')
  | .other => otherAbsolute scheme (visible cs)

/-- A URL is read by its scheme, behind which the rest is read. -/
theorem parse_eq (text : String) : parse text =
    match splitScheme (trimmed text.toList) with
    | some r => afterScheme r.1 r.2
    | none => .error .relativeWithoutBase := by
  unfold parse parseReference
  dsimp only
  cases splitScheme (trimmed text.toList) with
  | none => rfl
  | some r =>
      obtain ⟨scheme, behind⟩ := r
      dsimp only
      unfold afterScheme
      cases schemeKind scheme with
      | file => rfl
      | other => rfl
      | special =>
          exact congrArg (afterSlashes scheme) (drop_length_takeWhile _ _)

/-- Only what is visible of a fragment counts. -/
theorem withFragment_visible (u : Url) (f : List Char) :
    u.withFragment (visible f) = u.withFragment f := by
  simp [withFragment, visible]

/-- With a fragment behind it, a text is read as the URL that it is read as, with this fragment. -/
theorem afterScheme_append (h : '#' ∉ cs)
    (hat : visible cs = ['/', '/', '@'] → (schemeKind scheme).isSpecial = true) (f : List Char) :
    afterScheme scheme (cs ++ '#' :: f) = (afterScheme scheme cs).map (·.withFragment f) := by
  have hvisible := hash_not_mem_visible h
  unfold afterScheme
  cases hkind : schemeKind scheme with
  | file => exact fileRelative_append h f
  | special =>
      dsimp only
      rw [visible_append_hash, dropWhile_append_stop (by decide),
        afterSlashes_append (hash_not_mem_dropWhile hvisible) (fun _ => by rw [hkind]; rfl)]
      simp only [withFragment_visible]
  | other =>
      dsimp only
      rw [visible_append_hash, otherAbsolute_append hvisible hat]
      simp only [withFragment_visible]

end Url

end ModuleGraph
