import BaseAgent.Text.Lexing
import Mathlib.Data.Bool.AllAny

/-!
# The lines of a text

`str.splitlines` ends a line at more characters than the line feed.  Joining the lines again puts a
line feed for each of these ends.  In JSON that is the same document only where the line ends were
white space.
-/

namespace BaseAgent

open Text

/-! ## Splitting -/

section Split

variable {line text rest : List Char} {c : Char}

theorem splitlinesFrom_end (hc : isLineEnd c = true) (line : List Char) :
    splitlinesFrom line false (c :: rest) =
      String.ofList line.reverse :: splitlinesFrom [] (c.toNat == 13) rest := by
  rw [splitlinesFrom, Bool.false_and, if_neg (by simp), if_pos hc]

theorem splitlinesFrom_char (hc : isLineEnd c = false) (line : List Char) (afterReturn : Bool) :
    splitlinesFrom line afterReturn (c :: rest) = splitlinesFrom (c :: line) false rest := by
  have hfeed : (c.toNat == 10) = false := by
    by_contra hnot
    rw [Bool.not_eq_false, beq_iff_eq] at hnot
    simp [isLineEnd, hnot] at hc
  rw [splitlinesFrom, hfeed, Bool.and_false, if_neg (by simp), hc, if_neg (by simp)]

theorem splitlinesFrom_append (h : ∀ c ∈ text, isLineEnd c = false) (line : List Char) :
    splitlinesFrom line false (text ++ rest) =
      splitlinesFrom (text.reverse ++ line) false rest := by
  induction text generalizing line with
  | nil => rfl
  | cons c text ih =>
    rw [List.forall_mem_cons] at h
    rw [List.cons_append, splitlinesFrom_char h.1, ih h.2, List.reverse_cons, List.append_assoc]
    rfl

theorem splitlinesFrom_line (h : ∀ c ∈ text, isLineEnd c = false) (hc : isLineEnd c = true) :
    splitlinesFrom [] false (text ++ c :: rest) =
      String.ofList text :: splitlinesFrom [] (c.toNat == 13) rest := by
  rw [splitlinesFrom_append h, splitlinesFrom_end hc, List.append_nil, List.reverse_reverse]

theorem splitlinesFrom_last (h : ∀ c ∈ text, isLineEnd c = false) (hsome : text ≠ []) :
    splitlinesFrom [] false text = [String.ofList text] := by
  have happend : splitlinesFrom [] false (text ++ []) = splitlinesFrom (text.reverse ++ []) false [] :=
    splitlinesFrom_append h []
  rw [List.append_nil, List.append_nil] at happend
  rw [happend, splitlinesFrom, if_neg (by simpa using hsome), List.reverse_reverse]

end Split

/-! ## Joining -/

/-- The lines of a text with a line feed between them.  A carriage return at its end is lost. -/
def rejoined : Bool → List Char → List Char
  | _, [] => []
  | afterReturn, c :: rest =>
    if afterReturn && c.toNat == 10 then rejoined false rest
    else if isLineEnd c then
      if c.toNat == 13 && rest.isEmpty then [] else '\n' :: rejoined (c.toNat == 13) rest
    else c :: rejoined false rest

theorem splitlinesFrom_fence {fence : List Char} (hfence : ∀ c ∈ fence, isLineEnd c = false)
    (hsome : fence ≠ []) (text line : List Char) (afterReturn : Bool)
    (hline : afterReturn = true → line = []) :
    ∃ lines, splitlinesFrom line afterReturn (text ++ '\n' :: fence) =
        lines ++ [String.ofList fence] ∧
      (lines = [] ↔ afterReturn = true ∧ text = []) ∧
      (String.intercalate "\n" lines).toList = line.reverse ++ rejoined afterReturn text := by
  induction text generalizing line afterReturn with
  | nil =>
    cases afterReturn with
    | true =>
      refine ⟨[], ?_, by simp, ?_⟩
      · show splitlinesFrom line true ('\n' :: fence) = _
        rw [splitlinesFrom, if_pos (by rfl), splitlinesFrom_last hfence hsome]
        rfl
      · rw [hline rfl]
        rfl
    | false =>
      refine ⟨[String.ofList line.reverse], ?_, by simp, ?_⟩
      · show splitlinesFrom line false ('\n' :: fence) = _
        have hfeed : ('\n'.toNat == 13) = false := rfl
        rw [splitlinesFrom_end rfl, hfeed, splitlinesFrom_last hfence hsome]
        rfl
      · rw [String.intercalate_singleton, String.toList_ofList]
        simp [rejoined]
  | cons c rest ih =>
    rw [List.cons_append]
    by_cases hskip : (afterReturn && c.toNat == 10) = true
    · obtain ⟨lines, hlines, hempty, hjoined⟩ := ih [] false (by simp)
      have hreturn : afterReturn = true := (Bool.and_eq_true_iff.mp hskip).1
      refine ⟨lines, ?_, ?_, ?_⟩
      · rw [splitlinesFrom, if_pos hskip]
        exact hlines
      · rw [hempty]
        simp
      · rw [hjoined, rejoined, if_pos hskip, hline hreturn]
    · by_cases hend : isLineEnd c = true
      · obtain ⟨lines, hlines, hempty, hjoined⟩ := ih [] (c.toNat == 13) (by simp)
        refine ⟨String.ofList line.reverse :: lines, ?_, by simp, ?_⟩
        · rw [splitlinesFrom, if_neg hskip, if_pos hend, hlines]
          rfl
        · rw [rejoined, if_neg hskip, if_pos hend]
          cases lines with
          | nil =>
            have hlast := hempty.mp rfl
            rw [String.intercalate_singleton, String.toList_ofList, hlast.1, hlast.2]
            simp
          | cons next lines =>
            have hgoes : ¬ ((c.toNat == 13) && rest.isEmpty) = true := by
              intro hlast
              rw [Bool.and_eq_true, List.isEmpty_iff] at hlast
              exact absurd (hempty.mpr hlast) (by simp)
            rw [if_neg hgoes, String.intercalate_cons_cons, String.toList_append,
              String.toList_append, hjoined, String.toList_ofList]
            simp
      · rw [Bool.not_eq_true] at hend
        obtain ⟨lines, hlines, hempty, hjoined⟩ := ih (c :: line) false (by simp)
        refine ⟨lines, ?_, ?_, ?_⟩
        · rw [splitlinesFrom_char hend]
          exact hlines
        · rw [hempty]
          simp
        · rw [hjoined, rejoined, if_neg hskip, hend, if_neg (by simp)]
          simp

/-! ## Line ends in JSON -/

/-- The line ends that are neither white space nor control characters of ASCII. -/
def isUnicodeEnd (c : Char) : Bool :=
  c.toNat == 0x85 || c.toNat == 0x2028 || c.toNat == 0x2029

/-- A line feed in place of a line end that is no carriage return. -/
def asFeed (c : Char) : Char := if isLineEnd c && c.toNat != 13 then '\n' else c

section Characters

variable {c : Char}

theorem char_eq_of_toNat {d : Char} (h : c.toNat = d.toNat) : c = d :=
  Char.ext (UInt32.toNat_inj.mp h)

theorem isWhitespace_iff :
    isWhitespace c = true ↔ c.toNat = 32 ∨ c.toNat = 9 ∨ c.toNat = 10 ∨ c.toNat = 13 := by
  simp only [isWhitespace, Bool.or_eq_true, beq_iff_eq]
  constructor
  · rintro (((rfl | rfl) | rfl) | rfl) <;> decide
  · rintro (h | h | h | h)
    · exact .inl (.inl (.inl (char_eq_of_toNat h)))
    · exact .inl (.inl (.inr (char_eq_of_toNat h)))
    · exact .inl (.inr (char_eq_of_toNat h))
    · exact .inr (char_eq_of_toNat h)

/-- White space that JSON does not know stands in strings only. -/
theorem foreign_of_space (hspace : isSpace c = true) (h : isWhitespace c = false) :
    isForeign c = true := by
  rw [foreign_iff]
  have hnot : ¬ isWhitespace c = true := by simp [h]
  rw [isWhitespace_iff] at hnot
  simp only [isSpace, Bool.or_eq_true, Bool.and_eq_true, decide_eq_true_eq, beq_iff_eq] at hspace
  by_cases hhigh : 128 ≤ c.toNat
  · exact .inl hhigh
  · exact .inr ⟨by omega, h⟩

theorem isSpace_of_whitespace (h : isWhitespace c = true) : isSpace c = true := by
  rw [isWhitespace_iff] at h
  simp only [isSpace, Bool.or_eq_true, Bool.and_eq_true, decide_eq_true_eq, beq_iff_eq]
  omega

theorem isLineEnd_iff : isLineEnd c = true ↔ (10 ≤ c.toNat ∧ c.toNat ≤ 13) ∨
    (28 ≤ c.toNat ∧ c.toNat ≤ 30) ∨ c.toNat = 0x85 ∨ c.toNat = 0x2028 ∨ c.toNat = 0x2029 := by
  simp only [isLineEnd, Bool.or_eq_true, Bool.and_eq_true, decide_eq_true_eq, beq_iff_eq, or_assoc]

theorem isSpace_of_lineEnd (h : isLineEnd c = true) : isSpace c = true := by
  rw [isLineEnd_iff] at h
  simp only [isSpace, Bool.or_eq_true, Bool.and_eq_true, decide_eq_true_eq, beq_iff_eq]
  omega

theorem unicodeEnd_lineEnd (h : isUnicodeEnd c = true) : isLineEnd c = true := by
  simp only [isUnicodeEnd, Bool.or_eq_true, beq_iff_eq] at h
  rw [isLineEnd_iff]
  omega

theorem unicodeEnd_foreign (h : isUnicodeEnd c = true) : isForeign c = true := by
  simp only [isUnicodeEnd, Bool.or_eq_true, beq_iff_eq] at h
  rw [foreign_iff]
  omega

theorem asFeed_unicodeEnd (h : isUnicodeEnd c = true) : asFeed c = '\n' := by
  have hreturn : c.toNat ≠ 13 := by
    simp only [isUnicodeEnd, Bool.or_eq_true, beq_iff_eq] at h
    omega
  simp [asFeed, unicodeEnd_lineEnd h, hreturn]

/-- A line end of a document that is none of Unicode is a line feed or a carriage return. -/
theorem asFeed_of_visible (h : isUnicodeEnd c = false) (hvisible : isForeign c = true → 32 ≤ c.toNat) :
    asFeed c = c := by
  unfold asFeed
  split
  · rename_i hend
    rw [Bool.and_eq_true, bne_iff_ne, isLineEnd_iff] at hend
    have hunicode : ¬ (c.toNat = 0x85 ∨ c.toNat = 0x2028 ∨ c.toNat = 0x2029) := by
      rintro hc
      simp [isUnicodeEnd] at h
      omega
    refine (char_eq_of_toNat ?_).symm
    show c.toNat = 10
    by_contra hne
    have hwhite : isWhitespace c = false := by
      rw [← Bool.not_eq_true, isWhitespace_iff]
      omega
    have hforeign := hvisible (foreign_iff.mpr (.inr ⟨by omega, hwhite⟩))
    omega
  · rfl

end Characters

section Documents

variable {text : List Char}

theorem rejoined_cons (c : Char) (rest : List Char) :
    rejoined false (c :: rest) =
      if isLineEnd c then
        if c.toNat == 13 && rest.isEmpty then [] else '\n' :: rejoined (c.toNat == 13) rest
      else c :: rejoined false rest := by
  rw [rejoined, Bool.false_and, if_neg (by simp)]

theorem rejoined_true (c : Char) (rest : List Char) :
    rejoined true (c :: rest) =
      if c.toNat = 10 then rejoined false rest else rejoined false (c :: rest) := by
  by_cases hc : c.toNat = 10
  · rw [rejoined, if_pos (by simp [hc]), if_pos hc]
  · rw [rejoined, if_neg (by simp [hc]), if_neg hc, rejoined_cons]

theorem relined_rejoined (text : List Char) :
    Relined (text.map asFeed) (rejoined false text) := by
  induction hlength : text.length using Nat.strong_induction_on generalizing text with
  | _ length ih =>
    cases text with
    | nil => exact .refl []
    | cons c rest =>
      have hrest : Relined (rest.map asFeed) (rejoined false rest) :=
        ih rest.length (by rw [← hlength]; simp) rest rfl
      rw [rejoined_cons, List.map_cons]
      by_cases hend : isLineEnd c = true
      · rw [if_pos hend]
        by_cases hreturn : c.toNat = 13
        · have hc : c = '\r' := char_eq_of_toNat hreturn
          have hfeed : asFeed c = '\r' := by simp [asFeed, hc]
          rw [hfeed, show (c.toNat == 13) = true by simp [hreturn], Bool.true_and]
          cases rest with
          | nil => exact .trail (by simp [isWhitespace])
          | cons d rest =>
            rw [List.isEmpty_cons, if_neg (by simp), rejoined_true]
            by_cases hd : d.toNat = 10
            · have hnewline : asFeed d = '\n' := by simp [asFeed, isLineEnd_iff, hd]
              rw [if_pos hd, List.map_cons, hnewline]
              refine .crlf (ih rest.length ?_ rest rfl)
              rw [← hlength]
              simp only [List.length_cons]
              omega
            · rw [if_neg hd]
              exact .feed hrest
        · have hfeed : asFeed c = '\n' := by simp [asFeed, hend, hreturn]
          rw [hfeed, show (c.toNat == 13) = false by simp [hreturn], Bool.false_and,
            if_neg (by simp)]
          exact .keep '\n' hrest
      · rw [if_neg hend]
        have hfeed : asFeed c = c := by simp [asFeed, hend]
        rw [hfeed]
        exact .keep c hrest

/-- In a document a character of strings only is no control character. -/
theorem visible_of_clean (h : Token.bad ∉ lex text) :
    ∀ c ∈ text, isForeign c = true → 32 ≤ c.toNat := by
  intro c hmem hc
  obtain ⟨before, after, rfl⟩ := List.append_of_mem hmem
  exact (lex_cut hc h).1

/-- Joining the lines of a document keeps its tokens, when no string of it has a line end. -/
theorem lex_rejoined (h : Token.bad ∉ lex text) (hends : ∀ c ∈ text, isUnicodeEnd c = false) :
    lex (rejoined false text) = lex text := by
  have hsame : text.map asFeed = text :=
    (List.map_congr_left fun c hc =>
      asFeed_of_visible (hends c hc) (visible_of_clean h c hc)).trans (List.map_id text)
  have hrelined := relined_rejoined text
  rw [hsame] at hrelined
  exact (lex_relined hrelined).symm

theorem unicodeEnd_split (h : ¬ ∀ c ∈ text, isUnicodeEnd c = false) :
    ∃ before c after, text = before ++ c :: after ∧ (∀ d ∈ before, isUnicodeEnd d = false) ∧
      isUnicodeEnd c = true := by
  push Not at h
  obtain ⟨d, hd, hend⟩ := h
  rw [ne_eq, Bool.not_eq_false] at hend
  obtain ⟨c, before, after, hbefore, hc, hsplit, -⟩ := List.exists_of_eraseP hd hend
  exact ⟨before, c, after, hsplit, fun e he => by simpa using hbefore e he, hc⟩

/-- Joining the lines of a document with such a string cuts the string. -/
theorem bad_rejoined (h : Token.bad ∉ lex text) (hends : ¬ ∀ c ∈ text, isUnicodeEnd c = false) :
    Token.bad ∈ lex (rejoined false text) := by
  have hvisible := visible_of_clean h
  obtain ⟨before, c, after, rfl, hbefore, hc⟩ := unicodeEnd_split hends
  rw [← lex_relined (relined_rejoined _), List.map_append, List.map_cons, asFeed_unicodeEnd hc]
  have hsame : before.map asFeed = before :=
    (List.map_congr_left fun d hd => asFeed_of_visible (hbefore d hd)
      (hvisible d (List.mem_append_left _ hd))).trans (List.map_id before)
  rw [hsame]
  exact (lex_cut (unicodeEnd_foreign hc) h).2.2 _ (.inr ⟨_, rfl⟩)

/-- What `strip` removes in front of a document is white space. -/
theorem leading_whitespace {leading rest : List Char} (h : Token.bad ∉ lex (leading ++ rest))
    (hspace : ∀ c ∈ leading, isSpace c = true) : ∀ c ∈ leading, isWhitespace c = true := by
  induction leading with
  | nil => simp
  | cons c leading ih =>
    rw [List.forall_mem_cons] at hspace ⊢
    rw [List.cons_append] at h
    by_cases hc : isWhitespace c = true
    · rw [lex_whitespace hc] at h
      exact ⟨hc, ih h hspace.2⟩
    · rw [Bool.not_eq_true] at hc
      rw [lex_bad hc (tokenAt_foreign (foreign_of_space hspace.1 hc) _)] at h
      exact absurd List.mem_cons_self h

theorem trailing_whitespace {front trailing : List Char} (h : Token.bad ∉ lex (front ++ trailing))
    (hspace : ∀ c ∈ trailing, isSpace c = true) : ∀ c ∈ trailing, isWhitespace c = true := by
  intro c hmem
  by_contra hnot
  rw [Bool.not_eq_true] at hnot
  have hforeign := foreign_of_space (hspace c hmem) hnot
  obtain ⟨before, after, rfl⟩ := List.append_of_mem hmem
  rw [← List.append_assoc] at h
  have hquote := (lex_cut hforeign h).2.1
  have hnospace := hspace '"' (List.mem_append_right before (List.mem_cons_of_mem c hquote))
  exact absurd hnospace (by decide)

/-- A text is what `strip` leaves between two stretches of white space. -/
theorem strip_split (text : String) :
    ∃ leading trailing, text.toList = leading ++ ((strip text).toList ++ trailing) ∧
      (∀ c ∈ leading, isSpace c = true) ∧ ∀ c ∈ trailing, isSpace c = true := by
  have hmem : ∀ (l : List Char), ∀ c ∈ l.takeWhile isSpace, isSpace c = true := by
    intro l
    exact List.all_eq_true.mp List.all_takeWhile
  refine ⟨text.toList.takeWhile isSpace,
    ((text.toList.dropWhile isSpace).reverse.takeWhile isSpace).reverse, ?_, hmem _, ?_⟩
  · unfold strip
    rw [String.toList_ofList, ← List.reverse_append, List.takeWhile_append_dropWhile,
      List.reverse_reverse, List.takeWhile_append_dropWhile]
  · intro c hc
    exact hmem _ c (List.mem_reverse.mp hc)

theorem lex_strip {text : String} (h : Token.bad ∉ lex text.toList) :
    lex (strip text).toList = lex text.toList := by
  obtain ⟨leading, trailing, hsplit, hleading, htrailing⟩ := strip_split text
  rw [hsplit] at h ⊢
  have hwhite := leading_whitespace h hleading
  rw [lex_leading hwhite] at h ⊢
  exact (lex_relined (Relined.trailing (trailing_whitespace h htrailing) _)).symm

end Documents

/-- A note of two lines, between which stands the separator of Unicode. -/
def twoLineNote : String := "\x7b\"note\": \"Milk.\u2028Bread.\"\x7d"

def escapedNote : String := "\x7b\"note\": \"Milk.\\u2028Bread.\"\x7d"

theorem escapedNote_ends : ∀ c ∈ escapedNote.toList, isUnicodeEnd c = false :=
  List.all_iff_forall_prop.mp (by decide)

end BaseAgent
