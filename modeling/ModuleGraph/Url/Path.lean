import ModuleGraph.Text.Split
import ModuleGraph.Url.Percent
import ModuleGraph.Url.Scheme

/-!
# Reading paths

`readPath` reads the path of a URL as the continuation of a text, segment by segment: each one is
percent-encoded and written behind the text, where a segment of one dot leaves nothing and one of
two dots takes the last segment away. Drive letters in a `file` path are kept from that, and the
first segment is read as one also where a bar stands for its colon.

A path in the making and a segment in the making are kept from the end to the start.
-/

namespace ModuleGraph.Url

/-! ## Drive letters -/

/-- Whether two characters are a drive letter: a letter with a colon or bar. -/
def isDriveLetter (cs : List Char) : Bool :=
  match cs with
  | [a, b] => a.isAlpha && (b == ':' || b == '|')
  | _ => false

/-- Whether characters start with a drive letter, and a segment may end behind it. -/
def startsWithDriveLetter (cs : List Char) : Bool :=
  isDriveLetter (cs.take 2) &&
    match cs.drop 2 with
    | [] => true
    | c :: _ => c == '/' || c == '\\' || c == '?' || c == '#'

/-- Whether a segment is a drive letter with a colon. -/
def isNormalDrive (segment : List Char) : Bool :=
  isDriveLetter segment && segment.getLast? == some ':'

/-! ## Paths in the making -/

/-- A path without the slash at its end, unless that is its only one or the segment before it starts
with a drive letter. -/
def dropSlash : List Char → List Char
  | '/' :: before =>
    let last := (before.takeWhile (· != '/')).reverse
    if before.contains '/' && !startsWithDriveLetter last then before else '/' :: before
  | path => path

/-- A path with a slash at its end. -/
def withSlash : List Char → List Char
  | '/' :: before => '/' :: before
  | path => '/' :: path

/-- A path without its last segment, unless that is the drive of a `file` path. The slash before the
segment stays. -/
def shorten (k : SchemeKind) (path : List Char) : List Char :=
  let last := (path.takeWhile (· != '/')).reverse
  if k = .file ∧ isNormalDrive last then path else path.dropWhile (· != '/')

/-- A segment with each encoded dot decoded. -/
def plainDots : List Char → List Char
  | '%' :: '2' :: 'e' :: cs | '%' :: '2' :: 'E' :: cs => '.' :: plainDots cs
  | c :: cs => c :: plainDots cs
  | [] => []

/-- A segment in the making, and the path that it stands behind. -/
structure SegmentDraft where
  before : List Char
  segment : List Char
deriving DecidableEq, Repr

namespace SegmentDraft

/-- Whether all that is written is a slash and a drive letter with a colon. -/
def isDrive (d : SegmentDraft) : Bool :=
  match d.segment ++ d.before with
  | [':', letter, _] => letter.isAlpha
  | _ => false

/-- The draft with a slash behind it, and with the segment starting one place later. -/
def close (d : SegmentDraft) : SegmentDraft :=
  let written := '/' :: d.segment
  ⟨written.drop d.segment.length ++ d.before, written.take d.segment.length⟩

/-- The draft with a run of characters behind it, percent-encoded. A drive letter that is the whole
of a `file` path is closed by a slash before more follows. -/
def append (k : SchemeKind) (d : SegmentDraft) (run : List Char) : SegmentDraft :=
  if run.isEmpty then d
  else
    let d := if k = .file ∧ d.isDrive then d.close else d
    { d with segment := (Percent.encode Percent.pathSet run).reverse ++ d.segment }

end SegmentDraft

/-- A path in the making, and whether its first segment was read as a drive letter. -/
structure PathDraft where
  written : List Char
  hasDrive : Bool
deriving DecidableEq, Repr

/-- The path with a segment behind it, and with a slash if one follows. Ignored characters cut the
segment into runs. -/
def PathDraft.addSegment (k : SchemeKind) (slashFollows : Bool) (path : PathDraft)
    (cs : List Char) : PathDraft :=
  let d := (Text.splitWhere isIgnored cs).foldl (SegmentDraft.append k) ⟨path.written, []⟩
  let slash := if slashFollows then ['/'] else []
  match plainDots d.segment.reverse, d.before with
  | ['.', '.'], before =>
    let parent := shorten k (dropSlash before)
    { path with written := if slashFollows then withSlash parent else parent }
  | ['.'], before => { path with written := withSlash before }
  | _, [first] =>
    if k = .file ∧ isDriveLetter d.segment.reverse then
      ⟨slash ++ ':' :: d.segment.drop 1 ++ [first], true⟩
    else { path with written := slash ++ d.segment ++ [first] }
  | _, before => { path with written := slash ++ d.segment ++ before }

/-- The path with segments behind it, the last of which ends it. -/
def PathDraft.addSegments (k : SchemeKind) (path : PathDraft) : List (List Char) → PathDraft
  | [] => path
  | [segment] => path.addSegment k false segment
  | segment :: rest => addSegments k (path.addSegment k true segment) rest

/-! ## Paths -/

/-- A path that has been read: its segments, whether the first of them was read as a drive letter,
and the characters behind the path. -/
structure PathReading where
  segments : List String
  hasDrive : Bool
  rest : List Char
deriving DecidableEq, Repr

/-- The segments of a path's text, each of which stands behind a slash. -/
def segmentsOfText : List Char → List String
  | [] => []
  | _ :: cs => (Text.splitWhere (· == '/') cs).map String.ofList

/-- Reads the part of `cs` before a query or fragment as a path that continues `start`. A `file`
path has one slash at its start. -/
def readPath (k : SchemeKind) (start : List Char) (cs : List Char) : PathReading :=
  let inPath (c : Char) : Bool := c != '?' && c != '#'
  let segments := Text.splitWhere (isSlash k) (cs.takeWhile inPath)
  let path := PathDraft.addSegments k ⟨start.reverse, false⟩ segments
  let text := path.written.reverse
  let text := if k = .file then '/' :: text.dropWhile (· == '/') else text
  ⟨segmentsOfText text, path.hasDrive, cs.dropWhile inPath⟩

end ModuleGraph.Url
