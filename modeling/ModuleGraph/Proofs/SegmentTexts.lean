import ModuleGraph.Key
import Mathlib.Data.List.Basic

/-!
# Paths in the fragment of a URL

The text of a path has its names as they are, while a URL keeps its fragment in ASCII: each byte of
a character beyond ASCII is written as a triplet. `FragmentPath.ofFragment?_encoded` says that the
path is read off such a fragment again.

A segment that stands as it is must not be decoded, and one that does not must be. The two are told
apart by the first triplet: the first byte of a character beyond ASCII has a letter for its upper
digit, so that what is written for a name is never `%` and decimal digits.
-/

namespace ModuleGraph

/-! ## Cutting at a separator -/

namespace Text

variable {α : Type} {p : α → Bool} {as bs : List α} {a : α}

/-- A list without a separator is one piece. -/
theorem splitWhere_of_not_mem (h : ∀ b ∈ as, p b = false) : splitWhere p as = [as] := by
  induction as with
  | nil => rfl
  | cons b as ih =>
      have hrest := ih fun c hc => h c (List.mem_cons_of_mem _ hc)
      simp [splitWhere, h b List.mem_cons_self, hrest]

/-- A list is cut at its first separator. -/
theorem splitWhere_append_cons (h : ∀ b ∈ as, p b = false) (ha : p a = true) :
    splitWhere p (as ++ a :: bs) = as :: splitWhere p bs := by
  induction as with
  | nil => simp [splitWhere, ha]
  | cons b as ih =>
      have hrest := ih fun c hc => h c (List.mem_cons_of_mem _ hc)
      simp [splitWhere, h b List.mem_cons_self, hrest]

/-- Pieces that are joined by a separator are found again. -/
theorem splitWhere_intercalate (ha : p a = true) {pieces : List (List α)} (hne : pieces ≠ [])
    (h : ∀ piece ∈ pieces, ∀ b ∈ piece, p b = false) :
    splitWhere p ([a].intercalate pieces) = pieces := by
  induction pieces with
  | nil => exact absurd rfl hne
  | cons piece pieces ih =>
      have hpiece := h piece List.mem_cons_self
      cases pieces with
      | nil => simpa using splitWhere_of_not_mem hpiece
      | cons next rest =>
          have hrest := ih (by simp) fun piece hmem => h piece (List.mem_cons_of_mem _ hmem)
          rw [List.intercalate_cons_cons, List.append_assoc, List.singleton_append,
            splitWhere_append_cons hpiece ha, hrest]

end Text

/-! ## Percent-encoding and back -/

namespace Percent

variable {set : Char → Bool} {c : Char} {cs : List Char}

/-- Texts are encoded one behind the other. -/
theorem encode_append (set : Char → Bool) (as bs : List Char) :
    encode set (as ++ bs) = encode set as ++ encode set bs :=
  List.flatMap_append

/-- An ASCII character outside of the set is kept as it is. -/
theorem encodeChar_of_kept (hascii : c.toNat < 0x80) (hset : set c = false) :
    encodeChar set c = [c] := by
  simp [encodeChar, hset, Nat.not_le.2 hascii]

/-- Characters that need not be encoded stand as they are. -/
theorem encode_of_kept (h : ∀ c ∈ cs, c.toNat < 0x80 ∧ set c = false) : encode set cs = cs := by
  induction cs with
  | nil => rfl
  | cons c cs ih =>
      obtain ⟨hascii, hset⟩ := h c List.mem_cons_self
      have hrest := ih fun d hd => h d (List.mem_cons_of_mem _ hd)
      rw [encode, List.flatMap_cons, encodeChar_of_kept hascii hset]
      exact congrArg (c :: ·) hrest

/-- The characters of triplets. -/
def tripletChars : List Char :=
  "%0123456789ABCDEF".toList

/-- A digit of a triplet is one of its characters. -/
theorem hexDigit_mem_tripletChars {n : Nat} (h : n < 16) : hexDigit n ∈ tripletChars := by
  have hall : ∀ n < 16, hexDigit n ∈ tripletChars := by decide
  exact hall n h

/-- A triplet has characters of triplets only. -/
theorem mem_tripletChars_of_mem_encodeByte {b : UInt8} (h : c ∈ encodeByte b) :
    c ∈ tripletChars := by
  have hbyte : b.toNat < 256 := b.toNat_lt
  rw [encodeByte] at h
  rcases List.mem_cons.1 h with rfl | h
  · decide
  rcases List.mem_cons.1 h with rfl | h
  · exact hexDigit_mem_tripletChars (by omega)
  · rw [List.mem_singleton.1 h]
    exact hexDigit_mem_tripletChars (by omega)

/-- Encoded text is made of triplets and of ASCII characters that need not be encoded. -/
theorem mem_encode (h : c ∈ encode set cs) :
    c ∈ cs ∧ c.toNat < 0x80 ∧ set c = false ∨ c ∈ tripletChars := by
  obtain ⟨d, hd, hc⟩ := List.mem_flatMap.1 h
  rw [encodeChar] at hc
  split at hc
  · obtain ⟨b, -, hb⟩ := List.mem_flatMap.1 hc
    exact .inr (mem_tripletChars_of_mem_encodeByte hb)
  · next hkept =>
      rw [List.mem_singleton] at hc
      subst hc
      simp only [Bool.or_eq_true, decide_eq_true_eq, not_or, Bool.not_eq_true] at hkept
      exact .inl ⟨hd, Nat.not_le.1 hkept.1, hkept.2⟩

/-- A hexadecimal digit is read as its value. -/
theorem hexDigit?_hexDigit {n : Nat} (h : n < 16) : Token.hexDigit? (hexDigit n) = some n := by
  have hall : ∀ n < 16, Token.hexDigit? (hexDigit n) = some n := by decide
  exact hall n h

/-- A triplet is decoded to its byte. -/
theorem decode_encodeByte (b : UInt8) (cs : List Char) :
    decode (encodeByte b ++ cs) = b :: decode cs := by
  have hbyte : b.toNat < 256 := b.toNat_lt
  have hdigits : 16 * (b.toNat / 16) + b.toNat % 16 = b.toNat := Nat.div_add_mod _ _
  simp only [encodeByte, List.cons_append, List.nil_append]
  rw [decode, hexDigit?_hexDigit (by omega), hexDigit?_hexDigit (by omega)]
  simp only [hdigits, UInt8.ofNat_toNat]

/-- Encoded bytes are decoded as these bytes. -/
theorem decode_encodeBytes (bs : List UInt8) (cs : List Char) :
    decode (bs.flatMap encodeByte ++ cs) = bs ++ decode cs := by
  induction bs with
  | nil => rfl
  | cons b bs ih =>
      rw [List.flatMap_cons, List.append_assoc, decode_encodeByte, ih, List.cons_append]

/-- A character is decoded to its UTF-8, whether it has been encoded or not. -/
theorem decode_encodeChar (hc : c ≠ '%') (cs : List Char) :
    decode (encodeChar set c ++ cs) = String.utf8EncodeChar c ++ decode cs := by
  rw [encodeChar]
  split
  · exact decode_encodeBytes _ cs
  · rw [List.singleton_append, decode]
    exact fun _ _ _ heq _ => hc heq

/-- What has been encoded is decoded again, unless it held triplets before. -/
theorem decodeText?_encode (h : '%' ∉ cs) : decodeText? (encode set cs) = some cs := by
  have hbytes : decode (encode set cs) = cs.flatMap String.utf8EncodeChar := by
    induction cs with
    | nil => rfl
    | cons c cs ih =>
        rw [List.mem_cons, not_or] at h
        rw [encode, List.flatMap_cons, decode_encodeChar (Ne.symm h.1), List.flatMap_cons]
        exact congrArg (String.utf8EncodeChar c ++ ·) (ih h.2)
  rw [decodeText?, hbytes, ofUtf8?_utf8]

/-- The first byte of a character beyond ASCII. -/
theorem exists_utf8EncodeChar (h : 0x80 ≤ c.toNat) :
    ∃ b bs, String.utf8EncodeChar c = b :: bs ∧ 0xC0 ≤ b.toNat := by
  have hval : ¬ c.val.toNat ≤ 127 := by
    have hsame : c.toNat = c.val.toNat := rfl
    omega
  unfold String.utf8EncodeChar
  simp only [hval, if_false]
  split
  · exact ⟨_, _, rfl, by rw [UInt8.toNat_ofNat']; omega⟩
  · split
    · exact ⟨_, _, rfl, by rw [UInt8.toNat_ofNat']; omega⟩
    · exact ⟨_, _, rfl, by rw [UInt8.toNat_ofNat']; omega⟩

/-- What is written for a character beyond ASCII starts with `%` and a letter. -/
theorem exists_encodeChar (set : Char → Bool) (h : 0x80 ≤ c.toNat) :
    ∃ d ds, encodeChar set c = '%' :: d :: ds ∧ d.isDigit = false := by
  obtain ⟨b, bs, hbytes, hfirst⟩ := exists_utf8EncodeChar h
  have hletter : ∀ n < 16, 12 ≤ n → (hexDigit n).isDigit = false := by decide
  have hbyte : b.toNat < 256 := b.toNat_lt
  rw [encodeChar, if_pos (by simp [h]), hbytes]
  exact ⟨_, _, rfl, hletter _ (by omega) (by omega)⟩

end Percent

/-! ## Segments -/

namespace FragmentPath

open Text

variable {c : Char} {cs : List Char} {path : FragmentPath}

/-- All segments are names, or `%` and decimal digits. -/
def IsProper (path : FragmentPath) : Prop :=
  ∀ segment ∈ path, isSegment segment.toList = true

/-- A decimal digit is an ASCII character. -/
theorem lt_of_isDigit (h : c.isDigit = true) : c.toNat < 0x80 := by
  simp only [Char.isDigit, Bool.and_eq_true, decide_eq_true_eq, UInt32.le_iff_toNat_le] at h
  exact Nat.lt_of_le_of_lt h.2 (by decide)

/-- A decimal digit continues an identifier. -/
theorem isIdentifierContinue_of_isDigit (h : c.isDigit = true) : isIdentifierContinue c = true := by
  simp [isIdentifierContinue, lt_of_isDigit h, h]

/-- All characters of an identifier name continue one. -/
theorem all_isIdentifierContinue (h : isIdentifierName cs = true) :
    ∀ c ∈ cs, isIdentifierContinue c = true := by
  cases cs with
  | nil => simp
  | cons c cs =>
      rw [isIdentifierName, Bool.and_eq_true, List.all_eq_true] at h
      simpa [isIdentifierContinue_of_isIdentifierStart h.1] using h.2

/-- A segment is a name, or a number behind `%`. -/
theorem isSegment_iff : isSegment cs = true ↔ isIdentifierName cs = true ∨
    ∃ digits, cs = '%' :: digits ∧ digits ≠ [] ∧ ∀ d ∈ digits, d.isDigit = true := by
  unfold isSegment
  split
  · next digits =>
      have hname : isIdentifierName ('%' :: digits) = false := by
        rw [isIdentifierName, show isIdentifierStart '%' = false by decide, Bool.false_and]
      simp [hname]
  · next hnot => simpa using fun digits heq => absurd heq (hnot digits)

/-- A character of a segment continues an identifier, or is a percent sign. -/
theorem isIdentifierContinue_of_mem_segment (h : isSegment cs = true) (hc : c ∈ cs) :
    isIdentifierContinue c = true ∨ c = '%' := by
  rcases isSegment_iff.1 h with hname | ⟨digits, rfl, -, hdigits⟩
  · exact .inl (all_isIdentifierContinue hname c hc)
  · rcases List.mem_cons.1 hc with rfl | hc
    · exact .inr rfl
    · exact .inl (isIdentifierContinue_of_isDigit (hdigits c hc))

/-- Of the characters of a segment, a fragment encodes only those beyond ASCII. None is a slash. -/
theorem fragmentSet_of_mem_segment (h : isSegment cs = true) (hc : c ∈ cs) :
    Percent.fragmentSet c = false ∧ c ≠ '/' ∧ 0x20 < c.toNat := by
  have hascii : ∀ n < 128, isIdentifierContinue (Char.ofNat n) = true ∨ Char.ofNat n = '%' →
      Percent.fragmentSet (Char.ofNat n) = false ∧ Char.ofNat n ≠ '/' ∧ 0x20 < n := by
    decide
  rcases Nat.lt_or_ge c.toNat 128 with hlow | hhigh
  · have hchar : Char.ofNat c.toNat = c := Char.ofNat_toNat c
    have hkept := hascii c.toNat hlow
    rw [hchar] at hkept
    exact hkept (isIdentifierContinue_of_mem_segment h hc)
  · have hne : ∀ d : Char, d.toNat < 128 → c ≠ d := by
      rintro d hd rfl
      omega
    refine ⟨?_, hne _ (by decide), by omega⟩
    simp [Percent.fragmentSet, Percent.controlSet, hne, Nat.not_lt.2 (show 32 ≤ c.toNat by omega),
      show c.toNat ≠ 127 by omega]

/-- A name with a character beyond ASCII is written as something else than a segment. -/
theorem isSegment_encode_eq_false (h : isIdentifierName cs = true) (hc : c ∈ cs)
    (hbeyond : 0x80 ≤ c.toNat) : isSegment (Percent.encode Percent.fragmentSet cs) = false := by
  cases cs with
  | nil => simp at hc
  | cons d ds =>
      rw [Percent.encode, List.flatMap_cons]
      rcases Nat.lt_or_ge d.toNat 0x80 with hlow | hhigh
      · -- the name starts as it stands, and there is a triplet behind
        have hkept := fragmentSet_of_mem_segment (isSegment_iff.2 (.inl h)) List.mem_cons_self
        have hmem : c ∈ ds := (List.mem_cons.1 hc).resolve_left (by rintro rfl; omega)
        obtain ⟨e, es, hfirst, -⟩ := Percent.exists_encodeChar Percent.fragmentSet hbeyond
        have htriplet : '%' ∈ ds.flatMap (Percent.encodeChar Percent.fragmentSet) :=
          List.mem_flatMap.2 ⟨c, hmem, hfirst ▸ List.mem_cons_self⟩
        rw [Percent.encodeChar_of_kept hlow hkept.1, List.singleton_append]
        rw [← Bool.not_eq_true, isSegment_iff]
        rintro (hname | ⟨digits, heq, -⟩)
        · have hpercent := all_isIdentifierContinue hname _ (List.mem_cons_of_mem _ htriplet)
          exact absurd hpercent (by decide)
        · obtain ⟨rfl, -⟩ := List.cons.inj heq
          exact absurd (all_isIdentifierContinue h _ List.mem_cons_self) (by decide)
      · obtain ⟨e, es, hfirst, hletter⟩ := Percent.exists_encodeChar Percent.fragmentSet hhigh
        simp [hfirst, isSegment, hletter]

/-- A segment that is written in a fragment is read again. -/
theorem decodeSegment?_encode (h : isSegment cs = true) :
    decodeSegment? (Percent.encode Percent.fragmentSet cs) = some (String.ofList cs) := by
  by_cases hascii : ∃ c ∈ cs, 0x80 ≤ c.toNat
  · obtain ⟨c, hc, hbeyond⟩ := hascii
    have hname : isIdentifierName cs = true := by
      rcases isSegment_iff.1 h with hname | ⟨digits, rfl, -, hdigits⟩
      · exact hname
      · have hascii : c.toNat < 0x80 := by
          rcases List.mem_cons.1 hc with rfl | hc
          · decide
          · exact lt_of_isDigit (hdigits c hc)
        exact absurd hbeyond (Nat.not_le.2 hascii)
    have hplain : '%' ∉ cs := fun hmem =>
      absurd (all_isIdentifierContinue hname _ hmem) (by decide)
    rw [decodeSegment?, isSegment_encode_eq_false hname hc hbeyond, if_neg (by simp),
      Percent.decodeText?_encode hplain]
    simp [hname]
  · have hkept : Percent.encode Percent.fragmentSet cs = cs :=
      Percent.encode_of_kept fun c hc =>
        ⟨Nat.not_le.1 fun hbeyond => hascii ⟨c, hc, hbeyond⟩, (fragmentSet_of_mem_segment h hc).1⟩
    rw [hkept, decodeSegment?, if_pos h]

/-! ## Paths -/

/-- A path is encoded piece by piece, since slashes are kept. -/
theorem encode_intercalate (pieces : List (List Char)) :
    Percent.encode Percent.fragmentSet (['/'].intercalate pieces) =
      ['/'].intercalate (pieces.map (Percent.encode Percent.fragmentSet)) := by
  induction pieces with
  | nil => rfl
  | cons piece pieces ih =>
      cases pieces with
      | nil => simp
      | cons next rest =>
          have hslash : Percent.encode Percent.fragmentSet ['/'] = ['/'] := by decide
          rw [List.intercalate_cons_cons, Percent.encode_append, Percent.encode_append, hslash, ih]
          simp only [List.map_cons, List.intercalate_cons_cons]

/-- What is written for a path: its segments, each encoded, with slashes between them. -/
theorem encode_text (path : FragmentPath) :
    Percent.encode Percent.fragmentSet path.text.toList =
      ['/'].intercalate (path.map fun segment =>
        Percent.encode Percent.fragmentSet segment.toList) := by
  have hslash : "/".toList = ['/'] := rfl
  rw [text, String.toList_intercalate, hslash, encode_intercalate, List.map_map]
  rfl

/-- No slash is written for a segment. -/
theorem slash_not_mem_encode (h : isSegment cs = true)
    (hc : c ∈ Percent.encode Percent.fragmentSet cs) : c ≠ '/' := by
  rcases Percent.mem_encode hc with ⟨hmem, -⟩ | htriplet
  · exact (fragmentSet_of_mem_segment h hmem).2.1
  · rintro rfl
    exact absurd htriplet (by decide)

/-- The encoded segments of a proper path are decoded as its segments. -/
theorem mapM_decodeSegment?_encode (h : path.IsProper) :
    (path.map fun segment => Percent.encode Percent.fragmentSet segment.toList).mapM
      decodeSegment? = some path := by
  induction path with
  | nil => rfl
  | cons segment path ih =>
      rw [List.map_cons, List.mapM_cons, decodeSegment?_encode (h _ List.mem_cons_self),
        ih fun s hs => h s (List.mem_cons_of_mem _ hs), String.ofList_toList]
      rfl

/-- A path that is written in a fragment is read again. -/
theorem ofFragment?_encoded (hne : path ≠ []) (h : path.IsProper) :
    ofFragment? (Url.encoded Percent.fragmentSet path.text.toList) = some path := by
  have hpieces : ∀ piece ∈ path.map fun segment =>
      Percent.encode Percent.fragmentSet segment.toList, ∀ c ∈ piece, (c == '/') = false := by
    intro piece hpiece c hc
    obtain ⟨segment, hsegment, rfl⟩ := List.mem_map.1 hpiece
    exact beq_eq_false_iff_ne.2 (slash_not_mem_encode (h segment hsegment) hc)
  rw [ofFragment?, Url.encoded, String.toList_ofList, encode_text,
    Text.splitWhere_intercalate rfl (by simpa using hne) hpieces]
  exact mapM_decodeSegment?_encode h

end FragmentPath

end ModuleGraph
