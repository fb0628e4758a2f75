import ModuleGraph.Proofs.Faults
import ModuleGraph.Proofs.LineColumns
import ModuleGraph.Proofs.StatementSpans

/-!
# Where syntax errors are

`SyntaxTree.parse_located` is the main statement: a syntax error is about a part of the text, which
starts and stops between characters, and shows the line and column at which this part starts.

The parser blames tokens that it has come to, or a run of code (`Parser.Fails.hasPart`). The spans
of both are put together from spans of tokens, which are parts of the text (`Text.HasPart`).
-/

namespace ModuleGraph

open TokenStream
open ModuleGraph.Parser

/-! ## Parts of a text -/

namespace Text

/-- A span is a part of a text: its ends stand between characters and in order. -/
structure HasPart (text : List Char) (span : Span) : Prop where
  start : IsBoundary text span.start
  stop : IsBoundary text span.stop
  le : span.start ≤ span.stop

variable {text : List Char} {a b : Nat} {span other : Span}

/-- The smaller of two boundaries is one. -/
theorem IsBoundary.min (ha : IsBoundary text a) (hb : IsBoundary text b) :
    IsBoundary text (min a b) := by
  rcases Nat.le_total a b with h | h
  · rwa [Nat.min_eq_left h]
  · rwa [Nat.min_eq_right h]

/-- The larger of two boundaries is one. -/
theorem IsBoundary.max (ha : IsBoundary text a) (hb : IsBoundary text b) :
    IsBoundary text (max a b) := by
  rcases Nat.le_total a b with h | h
  · rwa [Nat.max_eq_right h]
  · rwa [Nat.max_eq_left h]

/-- The span of two parts of a text is a part of it. -/
theorem HasPart.cover (h : HasPart text span) (h' : HasPart text other) :
    HasPart text (span.cover other) where
  start := h.start.min h'.start
  stop := h.stop.max h'.stop
  le := Nat.le_trans (Nat.min_le_left ..) (Nat.le_trans h.le (Nat.le_max_left ..))

/-- The tokens from a place on are parts of a text. -/
def HasTokens (text : List Char) (s : TokenStream) : Prop :=
  ∀ t ∈ s.toList, HasPart text t.span

namespace HasTokens

variable {s s' : TokenStream}

/-- The current token is a part of the text. -/
theorem current (h : HasTokens text s) : HasPart text s.current.span :=
  h s.current (List.mem_cons_self ..)

/-- The tokens from a later place on are parts of the text, too. -/
theorem of_follows (h : HasTokens text s) (hs : s'.Follows s) : HasTokens text s' :=
  fun t ht => h t (hs.subset ht)

/-- The tokens behind the current one are parts of the text, too. -/
theorem advance (h : HasTokens text s) : HasTokens text s.advance :=
  h.of_follows (follows_advance s)

end HasTokens

/-- The tokens of a text are parts of it. -/
theorem hasTokens_ofChars (text : List Char) : HasTokens text (ofTokens (Token.ofChars text)) := by
  intro t ht
  rw [toList_ofTokens (ofChars_ne_nil text)] at ht
  have hpartition := Token.partition_ofChars text
  have hcovers := hpartition.covers t ht
  exact ⟨hcovers.start, hcovers.stop, hpartition.ordered.le t ht⟩

end Text

/-! ## Spans of phrases -/

/-- What the parser puts together from parts of a text is a part of it. -/
def Phrase.HasParts (text : List Char) : Phrase → Prop
  | .declaration start _ _ d => Text.HasPart text start → Text.HasPart text d.span
  | .code _ _ _ last final _ => Text.HasPart text last → Text.HasPart text final
  | _ => True

/-- What is read from parts of a text spans a part of it. -/
theorem Reads.hasParts {text : List Char} {phrase : Phrase} {s s' : TokenStream}
    (h : Reads phrase s s') (hs : Text.HasTokens text s) : phrase.HasParts text := by
  induction h with
  | declaration hname _ hbody _ _ =>
      have hfollows := hbody.follows.of_advance.trans (follows_moduleName hname).of_advance
      exact fun hstart => hstart.cover (hs.of_follows hfollows).current
  | codeAtEnd | codeAtClose | codeAtStatement => exact id
  | codeAtSemicolon | codeAtDeclaration => exact fun _ => hs.current
  | codeModule _ hmodule _ ihModule ihCode =>
      exact fun _ => ihCode (hs.of_follows hmodule.follows) (ihModule hs hs.current)
  | codeToken _ _ ih => exact fun _ => ih hs.advance hs.current
  | _ => trivial

/-! ## Spans of faults -/

/-- The parser blames parts of a text: tokens that it has come to, or a run of code that declares
nothing. -/
theorem Parser.Fails.hasPart {text : List Char} {n : Nat} {r : Reading} {s : TokenStream}
    {fault : SyntaxFault} (h : Fails n r s fault) (hs : Text.HasTokens text s) :
    Text.HasPart text fault.span := by
  induction h with
  | spent => exact hs.current
  | stops hstops => exact hstops.span ▸ (hs.of_follows hstops.follows).current
  | bodyRest _ hread _ ih => exact ih (hs.of_follows hread.follows)
  | declaresNothing hread => exact hs.current.cover (hread.hasParts hs hs.current)
  | declarationBody hfollows _ _ ih => exact ih (hs.of_follows hfollows).advance
  | codeRest _ hread _ ih => exact ih (hs.of_follows hread.follows)
  | bodySemicolon _ _ ih | exportStatement _ _ ih | exportDefault _ ih | codeToken _ _ ih =>
      exact ih hs.advance
  | bodyStatement _ ih | module _ ih | code _ ih | exportModule _ ih | exportDeclaration _ ih
  | declarationCode _ ih | codeModule _ ih => exact ih hs

namespace SyntaxTree

/-- Boundaries of a text stand in the order of their lines and columns, so that no two of them have
the same ones: these count the line feeds before a boundary, and the characters since the last of
them. A syntax error is about a part of the text that starts and stops at boundaries, and its line
and column are those of the start. -/
theorem parse_located (text : List Char) :
    StrictMonoOn (fun o => toLex (Text.lineColumn text o)) {o | Text.IsBoundary text o} ∧
    Set.InjOn (Text.lineColumn text) {o | Text.IsBoundary text o} ∧
    (∀ before, before <+: text →
      Text.lineColumn text (Text.byteLength before) = Text.placeBehind before) ∧
    ∀ e, parse text = .error e →
      Text.IsBoundary text e.span.start ∧ Text.IsBoundary text e.span.stop ∧
      e.span.start ≤ e.span.stop ∧ (e.line, e.column) = Text.lineColumn text e.span.start := by
  have hmono := Text.strictMonoOn_lineColumn text
  refine ⟨hmono, hmono.injOn, fun before => Text.lineColumn_of_isPrefix, fun e h => ?_⟩
  obtain ⟨fault, hfault, rfl⟩ := parse_eq_error h
  have hpart := (fails_of_bodyOfTokens hfault).hasPart (Text.hasTokens_ofChars text)
  exact ⟨hpart.start, hpart.stop, hpart.le, rfl⟩

/-- A text with letters of two bytes, before its fault and in it. -/
def misplacedText : List Char :=
  "let é;\nexport é".toList

/-- The fault of `misplacedText`: bytes 15 and 16 are the eighth character of the second line. -/
def misplacedError : SyntaxError :=
  ⟨.unexpected (.identifier "é") .exportClause, ⟨15, 17⟩, 2, 8⟩

/-- The fault of the text is between characters, and at the line and column that it shows. -/
theorem parse_located_misplaced : parse misplacedText = .error misplacedError ∧
    Text.IsBoundary misplacedText 15 ∧ Text.IsBoundary misplacedText 17 ∧
    (2, 8) = Text.lineColumn misplacedText 15 := by
  have htokens : Token.ofChars misplacedText =
      [⟨.keyword .«let», ⟨0, 3⟩, false⟩, ⟨.identifier "é", ⟨4, 6⟩, false⟩,
        ⟨.semicolon, ⟨6, 7⟩, false⟩, ⟨.keyword .«export», ⟨8, 14⟩, true⟩,
        ⟨.identifier "é", ⟨15, 17⟩, false⟩, ⟨.endOfInput, ⟨17, 17⟩, false⟩] := by
    decide +kernel
  have hparse : parse misplacedText = .error misplacedError := by
    rw [parse, htokens]
    rfl
  obtain ⟨hstart, hstop, -, hplace⟩ := (parse_located misplacedText).2.2.2 misplacedError hparse
  exact ⟨hparse, hstart, hstop, hplace⟩

end SyntaxTree

end ModuleGraph
