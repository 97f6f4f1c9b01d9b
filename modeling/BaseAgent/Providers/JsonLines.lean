import BaseAgent.Models.Lines
import BaseAgent.Providers.Cli

/-!
# The event stream of a command-line provider

A command-line model writes one JSON object a line.  The reader takes for the end of a line what
`str.splitlines` does, and a raw line end of Unicode in a string of an object cuts it in two.
-/

namespace BaseAgent
namespace Providers

open BaseAgent.Runtime Text

section Reader

variable {N : Type} (number : List Char → Option N) (provider : String)

/-- The loop of `_json_lines`, from the number of the first line.  A number that `int` refuses
raises a `ValueError` that is no `JSONDecodeError`. -/
def eventsFrom (lineNumber : Nat) :
    List String → Except Failure (List (List (List Nat × Json N)))
  | [] => .ok []
  | line :: rest =>
    if isBlank line then eventsFrom (lineNumber + 1) rest
    else match Json.loads number line.toList with
      | .ok (.object fields) => (eventsFrom (lineNumber + 1) rest).map (fields :: ·)
      | .ok _ =>
        .error (invalidResponse s!"{provider} JSONL line {lineNumber} is not an object")
      | .error .decode =>
        .error (invalidResponse s!"{provider} emitted invalid JSONL on line {lineNumber}")
      | .error .number =>
        .error (.raised "ValueError" "Exceeds the limit (4300 digits) for integer string conversion")

def jsonLines (stdout : String) : Except Failure (List (List (List Nat × Json N))) :=
  (eventsFrom number provider 1 (splitlines stdout)).bind fun events =>
    if events.isEmpty then .error (invalidResponse s!"{provider} emitted no JSON events")
    else .ok events

end Reader

/-- The text is a serialization of the object, on one line for the writer. -/
structure Serializes {N : Type} (number : List Char → Option N) (text : String)
    (fields : List (List Nat × Json N)) : Prop where
  loads : Json.loads number text.toList = .ok (.object fields)
  feed : '\n' ∉ text.toList
  carriage : '\r' ∉ text.toList

section Lines

variable {N : Type} {number : List Char → Option N} {provider text : String}
variable {fields : List (List Nat × Json N)} {texts : List String}

theorem Serializes.not_blank (h : Serializes number text fields) : isBlank text = false := by
  by_contra hblank
  rw [Bool.not_eq_false] at hblank
  have hspace : ∀ c ∈ text.toList, isSpace c = true := List.all_eq_true.mp hblank
  have hclean := Json.not_bad_of_loads h.loads
  have hwhite : ∀ c ∈ text.toList, isWhitespace c = true := by
    rw [← List.append_nil text.toList] at hclean
    exact leading_whitespace hclean hspace
  have hlex := lex_leading hwhite []
  rw [List.append_nil] at hlex
  have hloads := h.loads
  rw [Json.loads, hlex] at hloads
  cases hloads

/-- A serialization without a line end of Unicode is one line for the reader, too. -/
theorem Serializes.lineless (h : Serializes number text fields) {part : List Char}
    (hpart : ∀ c ∈ part, c ∈ text.toList ∧ isUnicodeEnd c = false) :
    ∀ c ∈ part, isLineEnd c = false := by
  intro c hc
  by_contra hend
  rw [Bool.not_eq_false] at hend
  obtain ⟨hmem, hunicode⟩ := hpart c hc
  have hvisible := visible_of_clean (Json.not_bad_of_loads h.loads) c hmem
  have hfeed : asFeed c = c := asFeed_of_visible hunicode hvisible
  by_cases hreturn : c.toNat = 13
  · have hcarriage : c = '\r' := char_eq_of_toNat hreturn
    rw [hcarriage] at hmem
    exact h.carriage hmem
  · have hnewline : c = '\n' := by
      rw [← hfeed]
      simp [asFeed, hend, hreturn]
    rw [hnewline] at hmem
    exact h.feed hmem

theorem toList_join_cons (text : String) (texts : List String) :
    (String.intercalate "\n" (text :: texts)).toList = text.toList ++
      if texts = [] then [] else '\n' :: (String.intercalate "\n" texts).toList := by
  cases texts with
  | nil => simp
  | cons next rest =>
    rw [String.intercalate_cons_cons, String.toList_append, String.toList_append,
      List.append_assoc, if_neg (by simp)]
    rfl

theorem splitlines_join (hlineless : ∀ c ∈ text.toList, isLineEnd c = false)
    (hsome : text.toList ≠ []) (texts : List String) :
    splitlines (String.intercalate "\n" (text :: texts)) =
      text :: splitlines (String.intercalate "\n" texts) := by
  unfold splitlines
  rw [toList_join_cons]
  by_cases htexts : texts = []
  · rw [if_pos htexts, List.append_nil, splitlinesFrom_last hlineless hsome, String.ofList_toList,
      htexts]
    rfl
  · rw [if_neg htexts, splitlinesFrom_line hlineless (by decide), String.ofList_toList]
    rfl

theorem splitlines_join_cut {before after : List Char} {c : Char}
    (htext : text.toList = before ++ c :: after)
    (hbefore : ∀ d ∈ before, isLineEnd d = false) (hc : isLineEnd c = true)
    (texts : List String) :
    ∃ more, splitlines (String.intercalate "\n" (text :: texts)) = String.ofList before :: more := by
  unfold splitlines
  rw [toList_join_cons, htext, List.append_assoc, List.cons_append, splitlinesFrom_line hbefore hc]
  exact ⟨_, rfl⟩

theorem eventsFrom_cut (h : Serializes number text fields) {before after : List Char} {c : Char}
    (htext : text.toList = before ++ c :: after) (hc : isUnicodeEnd c = true) (lineNumber : Nat)
    (more : List String) :
    ∃ failure, eventsFrom number provider lineNumber (String.ofList before :: more) =
      .error failure := by
  have hclean := Json.not_bad_of_loads h.loads
  rw [htext] at hclean
  have hforeign := unicodeEnd_foreign hc
  have hblank : isBlank (String.ofList before) = false := by
    by_contra hblank
    rw [Bool.not_eq_false, isBlank, String.toList_ofList, List.all_eq_true] at hblank
    rw [lex_leading (leading_whitespace hclean hblank),
      lex_bad (foreign_not_whitespace hforeign) (tokenAt_foreign hforeign after)] at hclean
    exact hclean List.mem_cons_self
  have hbad : Token.bad ∈ lex (String.ofList before).toList := by
    have hcut := (lex_cut hforeign hclean).2.2 [] (.inl rfl)
    rw [List.append_nil] at hcut
    rw [String.toList_ofList]
    exact hcut
  obtain ⟨fault, hfault⟩ : ∃ fault, Json.loads number (String.ofList before).toList = .error fault :=
    Json.loads_bad hbad
  rw [eventsFrom, hblank, if_neg (by simp), hfault]
  cases fault with
  | decode => exact ⟨_, rfl⟩
  | number => exact ⟨_, rfl⟩

theorem eventsFrom_join {objects : List (List (List Nat × Json N))}
    (h : List.Forall₂ (Serializes number) texts objects) (lineNumber : Nat) :
    eventsFrom number provider lineNumber (splitlines (String.intercalate "\n" texts)) =
        .ok objects ↔ ∀ text ∈ texts, ∀ c ∈ text.toList, isUnicodeEnd c = false := by
  induction h generalizing lineNumber with
  | nil => exact iff_of_true rfl (by simp)
  | @cons text fields texts objects htext _ ih =>
    rw [List.forall_mem_cons]
    by_cases hends : ∀ c ∈ text.toList, isUnicodeEnd c = false
    · have hlineless := htext.lineless fun c hc => ⟨hc, hends c hc⟩
      have hsome : text.toList ≠ [] := by
        intro hnil
        have hblank := htext.not_blank
        rw [isBlank, hnil] at hblank
        cases hblank
      rw [splitlines_join hlineless hsome, eventsFrom, htext.not_blank, if_neg (by simp),
        htext.loads, and_iff_right hends, ← ih (lineNumber + 1)]
      show (Except.map (fields :: ·) _ = _) ↔ _
      cases eventsFrom number provider (lineNumber + 1)
          (splitlines (String.intercalate "\n" texts)) with
      | error failure => exact iff_of_false (by simp [Except.map]) (by simp)
      | ok events => simp [Except.map]
    · obtain ⟨before, c, after, hsplit, hbefore, hc⟩ := unicodeEnd_split hends
      have hlineless : ∀ d ∈ before, isLineEnd d = false := htext.lineless fun d hd =>
        ⟨hsplit ▸ List.mem_append_left _ hd, hbefore d hd⟩
      obtain ⟨more, hmore⟩ := splitlines_join_cut hsplit hlineless (unicodeEnd_lineEnd hc) texts
      obtain ⟨failure, hfailure⟩ : ∃ failure, eventsFrom number provider lineNumber
          (String.ofList before :: more) = .error failure := eventsFrom_cut htext hsplit hc _ more
      rw [hmore, hfailure]
      exact iff_of_false (by simp) fun hall => hends hall.1

/-- Serializations that are joined by line feeds are read as their objects when none of them has a
line end of Unicode, and only then. -/
theorem jsonLines_join_iff {objects : List (List (List Nat × Json N))}
    (h : List.Forall₂ (Serializes number) texts objects) (hsome : objects ≠ []) :
    jsonLines number provider (String.intercalate "\n" texts) = .ok objects ↔
      ∀ text ∈ texts, ∀ c ∈ text.toList, isUnicodeEnd c = false := by
  rw [← eventsFrom_join h 1]
  unfold jsonLines
  cases eventsFrom number provider 1 (splitlines (String.intercalate "\n" texts)) with
  | error failure => exact Iff.rfl
  | ok events =>
    show (if events.isEmpty then _ else _) = _ ↔ _
    split
    · rename_i hempty
      rw [List.isEmpty_iff] at hempty
      rw [hempty]
      exact iff_of_false (by simp) fun hnil => hsome (by cases hnil; rfl)
    · exact Iff.rfl

end Lines

-- The separator of lines stands in the string of the only event.
theorem unicode_line_lost :
    ∃ fields, Serializes Json.naturalNumber twoLineNote fields ∧
      jsonLines Json.naturalNumber "codex-cli" (String.intercalate "\n" [twoLineNote]) ≠
        .ok [fields] := by
  obtain ⟨fields, hloads⟩ := Json.isObject_iff.mp
    (show Json.isObject Json.naturalNumber twoLineNote.toList = true by decide)
  refine ⟨fields, ⟨hloads, by decide, by decide⟩, fun hread => ?_⟩
  have hlost : (jsonLines Json.naturalNumber "codex-cli"
      (String.intercalate "\n" [twoLineNote])).toOption.isSome = false := by decide
  rw [hread] at hlost
  cases hlost

theorem jsonLines_join_escaped :
    ∃ fields, Serializes Json.naturalNumber escapedNote fields ∧
      jsonLines Json.naturalNumber "codex-cli" (String.intercalate "\n" [escapedNote, escapedNote]) =
        .ok [fields, fields] := by
  obtain ⟨fields, hloads⟩ := Json.isObject_iff.mp
    (show Json.isObject Json.naturalNumber escapedNote.toList = true by decide)
  have hserializes : Serializes Json.naturalNumber escapedNote fields :=
    ⟨hloads, by decide, by decide⟩
  refine ⟨fields, hserializes, (jsonLines_join_iff
    (.cons hserializes (.cons hserializes .nil)) (by simp)).mpr fun text htext => ?_⟩
  have hnote : text = escapedNote := by simpa using htext
  rw [hnote]
  exact escapedNote_ends

end Providers
end BaseAgent
