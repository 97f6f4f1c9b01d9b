import BaseAgent.Models.Lines
import BaseAgent.Planning.Engine
import Mathlib.Data.Bool.AllAny

/-!
# Fenced JSON

A model may answer with its JSON between the lines of a fence.  The strategies remove the fence by
splitting the response into lines and joining those between the first and the last, which puts a
line feed for every line end.  A raw line end of Unicode inside a string, which JSON allows, becomes
a raw line feed there, which JSON refuses.
-/

namespace BaseAgent
namespace Runtime

open Async Text

/-- `ReActStrategy._parse_result`, with the same removal of the fence. -/
def ReActStrategy.parseResult (codec : PlanCodec) (content : String) :
    Except PlanFault ReActResult :=
  match codec.loads (PlanningStrategy.jsonText content) with
  | .ok (.obj payload) => codec.reactFields payload
  | .ok _ => .error (.invalid "ReAct response must be a JSON object")
  | .error e => .error e

def fence : String := "```"

/-- The line that opens a fence, the text and the line that closes it. -/
def fenced (text : String) : String := fence ++ "json\n" ++ text ++ "\n" ++ fence

/-! ## Removing the fence -/

section Removal

variable {text : String} {c : Char}

/-- The first character that is no white space begins a token. -/
theorem first_token {leading rest : List Char} (h : Token.bad ∉ lex (leading ++ c :: rest))
    (hleading : ∀ d ∈ leading, isSpace d = true) (hc : isSpace c = false) :
    tokenAt (c :: rest) ≠ none := by
  intro hnone
  rw [lex_leading (leading_whitespace h hleading)] at h
  have hwhite : isWhitespace c = false := by
    by_contra hnot
    rw [Bool.not_eq_false] at hnot
    rw [isSpace_of_whitespace hnot] at hc
    cases hc
  rw [lex_bad hwhite hnone] at h
  exact h List.mem_cons_self

theorem tokenAt_tick (rest : List Char) : tokenAt (Char.ofNat 96 :: rest) = none := by
  have hrun : (Char.ofNat 96 :: rest).takeWhile isSolid = [] :=
    List.takeWhile_cons_of_neg (by decide)
  rw [tokenAt, if_neg (by decide), if_neg (by decide), hrun]
  rfl

theorem tokenAt_j (rest : List Char) : tokenAt ('j' :: rest) = none := by
  have hrun : ('j' :: rest).takeWhile isSolid = 'j' :: rest.takeWhile isSolid :=
    List.takeWhile_cons_of_pos (by decide)
  rw [tokenAt, if_neg (by decide), if_neg (by decide), hrun]
  simp [atomAt, Word.all, Word.text, numberLength, Char.isDigit]

theorem document_first (h : Token.bad ∉ lex text.toList) (hsome : lex text.toList ≠ []) :
    ∃ leading c rest, text.toList = leading ++ c :: rest ∧
      (∀ d ∈ leading, isSpace d = true) ∧ isSpace c = false ∧ tokenAt (c :: rest) ≠ none := by
  have hleading : ∀ d ∈ text.toList.takeWhile isSpace, isSpace d = true :=
    List.all_eq_true.mp List.all_takeWhile
  have hsplit : text.toList = text.toList.takeWhile isSpace ++ text.toList.dropWhile isSpace :=
    List.takeWhile_append_dropWhile.symm
  cases hrest : text.toList.dropWhile isSpace with
  | nil =>
    rw [hrest] at hsplit
    rw [hsplit] at h hsome
    rw [lex_leading (leading_whitespace h hleading)] at hsome
    exact absurd rfl hsome
  | cons c rest =>
    have hc : isSpace c = false := by
      have hhead := List.head?_dropWhile_not isSpace text.toList
      rw [hrest] at hhead
      exact hhead
    rw [hrest] at hsplit
    refine ⟨_, c, rest, hsplit, hleading, hc, ?_⟩
    rw [hsplit] at h
    exact first_token h hleading hc

theorem rejoined_leading {leading rest : List Char} (hleading : ∀ d ∈ leading, isSpace d = true)
    (hc : isSpace c = false) (afterReturn : Bool) :
    ∃ front back, rejoined afterReturn (leading ++ c :: rest) = front ++ c :: back ∧
      ∀ d ∈ front, isSpace d = true := by
  have hend : isLineEnd c = false := by
    by_contra hnot
    rw [isSpace_of_lineEnd (by simpa using hnot)] at hc
    cases hc
  induction leading generalizing afterReturn with
  | nil =>
    have hfeed : ¬ (afterReturn && c.toNat == 10) = true := by
      intro hnot
      rw [Bool.and_eq_true, beq_iff_eq] at hnot
      simp [isLineEnd, hnot.2] at hend
    refine ⟨[], rejoined false rest, ?_, by simp⟩
    rw [List.nil_append, rejoined, if_neg hfeed, if_neg (by simp [hend])]
    rfl
  | cons d leading ih =>
    rw [List.forall_mem_cons] at hleading
    rw [List.cons_append, rejoined]
    split
    · exact ih hleading.2 false
    split
    · rw [show (leading ++ c :: rest).isEmpty = false by simp, Bool.and_false, if_neg (by simp)]
      obtain ⟨front, back, hsplit, hfront⟩ := ih hleading.2 (d.toNat == 13)
      refine ⟨'\n' :: front, back, ?_, ?_⟩
      · rw [hsplit]
        rfl
      · rw [List.forall_mem_cons]
        exact ⟨by decide, hfront⟩
    · obtain ⟨front, back, hsplit, hfront⟩ := ih hleading.2 false
      refine ⟨d :: front, back, ?_, ?_⟩
      · rw [hsplit]
        rfl
      · rw [List.forall_mem_cons]
        exact ⟨hleading.1, hfront⟩

/-- A text that begins and ends with other characters has no white space to strip. -/
theorem strip_eq_self {d : Char} {middle : List Char} (htext : text.toList = c :: (middle ++ [d]))
    (hc : isSpace c = false) (hd : isSpace d = false) : strip text = text := by
  unfold strip
  rw [htext, List.dropWhile_cons_of_neg (by simp [hc])]
  have hreverse : (c :: (middle ++ [d])).reverse = d :: (c :: middle).reverse := by simp
  rw [hreverse, List.dropWhile_cons_of_neg (by simp [hd]), ← hreverse, List.reverse_reverse,
    ← htext, String.ofList_toList]

theorem startsWith_first {start : String} {d : Char} {rest more : List Char}
    (htext : text.toList = c :: rest) (hstart : start.toList = d :: more) (hne : c ≠ d) :
    startsWith text start = false := by
  unfold startsWith
  rw [htext, hstart, List.isPrefixOf_cons_cons, show (d == c) = false by simpa using Ne.symm hne]
  rfl

/-- What is left of a fenced document are its lines, joined again. -/
theorem jsonText_fenced (h : Token.bad ∉ lex text.toList) (hsome : lex text.toList ≠ []) :
    (PlanningStrategy.jsonText (fenced text)).toList = rejoined false text.toList := by
  obtain ⟨leading, c, rest, htext, hleading, hc, htoken⟩ := document_first h hsome
  have hchars : (fenced text).toList =
      (fence ++ "json").toList ++ '\n' :: (text.toList ++ '\n' :: fence.toList) := by
    simp [fenced, fence]
  have hstrip : strip (fenced text) = fenced text := by
    have hends : (fenced text).toList = Char.ofNat 96 ::
        (("``json\n".toList ++ text.toList ++ "\n``".toList) ++ [Char.ofNat 96]) := by
      simp [fenced, fence]
    exact strip_eq_self hends (by decide) (by decide)
  have hstart : startsWith (fenced text) fence = true := by
    unfold startsWith
    rw [hchars, List.isPrefixOf_iff_prefix]
    exact ⟨"json".toList ++ '\n' :: (text.toList ++ '\n' :: fence.toList), by simp [fence]⟩
  obtain ⟨lines, hlines, hempty, hjoined⟩ : ∃ lines,
      splitlinesFrom [] false (text.toList ++ '\n' :: fence.toList) =
          lines ++ [String.ofList fence.toList] ∧
        (lines = [] ↔ false = true ∧ text.toList = []) ∧
        (String.intercalate "\n" lines).toList = [].reverse ++ rejoined false text.toList :=
    splitlinesFrom_fence (List.all_iff_forall_prop.mp (by decide)) (by decide) text.toList [] false (by simp)
  have hsplit : splitlines (fenced text) = (fence ++ "json") :: (lines ++ [fence]) := by
    unfold splitlines
    rw [hchars, splitlinesFrom_line (List.all_iff_forall_prop.mp (by decide)) (by decide), String.ofList_toList]
    show _ :: splitlinesFrom [] false _ = _
    rw [hlines, String.ofList_toList]
  have hnonempty : lines ≠ [] := by
    intro hnil
    have himpossible := hempty.mp hnil
    cases himpossible.1
  have hlong : 3 ≤ (splitlines (fenced text)).length ∧
      strip ((splitlines (fenced text)).getLastD "") = fence := by
    rw [hsplit]
    constructor
    · have hlength := List.length_pos_iff.mpr hnonempty
      simp only [List.length_cons, List.length_append, List.length_nil]
      omega
    · rw [← List.cons_append, List.getLastD_concat]
      decide
  have hinner : String.intercalate "\n" (splitlines (fenced text)).tail.dropLast =
      String.ofList (rejoined false text.toList) := by
    rw [hsplit, List.tail_cons, List.dropLast_concat, ← String.toList_inj, hjoined,
      String.toList_ofList]
    rfl
  -- the text does not begin with the name of the language
  have hplain : startsWith (lstrip (String.ofList (rejoined false text.toList))) "json" = false := by
    obtain ⟨front, back, hrejoined, hfront⟩ : ∃ front back,
        rejoined false (leading ++ c :: rest) = front ++ c :: back ∧
          ∀ d ∈ front, isSpace d = true := rejoined_leading hleading hc false
    have hlstrip : (lstrip (String.ofList (rejoined false text.toList))).toList = c :: back := by
      unfold lstrip
      rw [String.toList_ofList, String.toList_ofList, htext, hrejoined,
        List.dropWhile_append_of_pos hfront, List.dropWhile_cons_of_neg (by simp [hc])]
    have hname : "json".toList = 'j' :: "son".toList := by decide
    refine startsWith_first hlstrip hname ?_
    rintro rfl
    exact htoken (tokenAt_j rest)
  unfold PlanningStrategy.jsonText
  rw [hstrip]
  simp only [show "```" = fence from rfl, hstart, hlong, hinner, hplain, if_true, and_self,
    Bool.false_eq_true, if_false, String.toList_ofList]

theorem jsonText_bare (h : Token.bad ∉ lex text.toList) (hsome : lex text.toList ≠ []) :
    lex (PlanningStrategy.jsonText text).toList = lex text.toList := by
  have hsame := lex_strip h
  obtain ⟨leading, c, rest, htext, hleading, hc, htoken⟩ : ∃ leading c rest,
      (strip text).toList = leading ++ c :: rest ∧ (∀ d ∈ leading, isSpace d = true) ∧
        isSpace c = false ∧ tokenAt (c :: rest) ≠ none :=
    document_first (by rwa [hsame]) (by rwa [hsame])
  have hplain : startsWith (strip text) fence = false := by
    have htick : fence.toList = Char.ofNat 96 :: "``".toList := by decide
    cases leading with
    | nil =>
      refine startsWith_first htext htick ?_
      rintro rfl
      exact htoken (tokenAt_tick rest)
    | cons d leading =>
      refine startsWith_first htext htick ?_
      rintro rfl
      exact absurd (hleading _ List.mem_cons_self) (by decide)
  unfold PlanningStrategy.jsonText
  simp only [show "```" = fence from rfl, hplain, Bool.false_eq_true, if_false]
  exact hsame

end Removal

/-! ## Reading -/

/-- `codec.loads` is `json.loads`, and an object is an object to the models. -/
structure Reads {N : Type} (number : List Char → Option N) (value : Json N → JsonValue)
    (codec : PlanCodec) : Prop where
  loads : ∀ text v, Json.loads number text.toList = .ok v → codec.loads text = .ok (value v)
  fails : ∀ text e, Json.loads number text.toList = .error e → ∃ e, codec.loads text = .error e
  object : ∀ fields, ∃ payload, value (.object fields) = .obj payload

section Reading

variable {N : Type} {number : List Char → Option N} {value : Json N → JsonValue}
variable {strategy : PlanningStrategy} {text : String} {fields : List (List Nat × Json N)}

theorem lex_ne_nil_of_loads {v : Json N} (h : Json.loads number text.toList = .ok v) :
    lex text.toList ≠ [] := by
  intro hnil
  rw [Json.loads, hnil] at h
  cases h

/-- Two texts with the same tokens are the same value to the codec. -/
theorem Reads.congr (hreads : Reads number value strategy.codec) {other : String} {v : Json N}
    (h : Json.loads number text.toList = .ok v) (hsame : lex other.toList = lex text.toList) :
    strategy.codec.loads other = .ok (value v) := by
  apply hreads.loads
  rw [Json.loads_congr hsame]
  exact h

/-- A fenced document is read as it is read alone when it has no line end of Unicode, and only
then. -/
theorem fenced_object_iff (hreads : Reads number value strategy.codec)
    (hloads : Json.loads number text.toList = .ok (.object fields)) :
    (strategy.parseJsonObject (fenced text) = strategy.parseJsonObject text ∧
        ReActStrategy.parseResult strategy.codec (fenced text) =
          ReActStrategy.parseResult strategy.codec text) ↔
      ∀ c ∈ text.toList, isUnicodeEnd c = false := by
  have hclean := Json.not_bad_of_loads hloads
  have hsome := lex_ne_nil_of_loads hloads
  have hinner := jsonText_fenced hclean hsome
  have hbare : strategy.codec.loads (PlanningStrategy.jsonText text) = .ok (value (.object fields)) :=
    hreads.congr hloads (jsonText_bare hclean hsome)
  constructor
  · rintro ⟨hsame, -⟩
    by_contra hends
    have hbad := bad_rejoined hclean hends
    rw [← hinner] at hbad
    obtain ⟨fault, hfault⟩ : ∃ fault, Json.loads number
        (PlanningStrategy.jsonText (fenced text)).toList = .error fault := Json.loads_bad hbad
    obtain ⟨e, he⟩ := hreads.fails _ _ hfault
    obtain ⟨payload, hpayload⟩ := hreads.object fields
    unfold PlanningStrategy.parseJsonObject at hsame
    rw [he, hbare, hpayload] at hsame
    cases hsame
  · intro hends
    have hfenced : strategy.codec.loads (PlanningStrategy.jsonText (fenced text)) =
        .ok (value (.object fields)) := by
      refine hreads.congr hloads ?_
      rw [hinner, lex_rejoined hclean hends]
    unfold PlanningStrategy.parseJsonObject ReActStrategy.parseResult
    rw [hfenced, hbare]
    exact ⟨rfl, rfl⟩

end Reading

/-! ## A reader of JSON -/

mutual

def jsonValue : Json Nat → JsonValue
  | .word .true => .bool true
  | .word .false => .bool false
  | .word _ => .null
  | .number n => .int n
  | .string points => .str (String.ofList (points.map Char.ofNat))
  | .array items => .list (jsonItems items)
  | .object fields => .obj (jsonFields fields)

def jsonItems : List (Json Nat) → List JsonValue
  | [] => []
  | item :: rest => jsonValue item :: jsonItems rest

def jsonFields : List (List Nat × Json Nat) → List (String × JsonValue)
  | [] => []
  | (key, value) :: rest =>
    (String.ofList (key.map Char.ofNat), jsonValue value) :: jsonFields rest

end

def readJson (text : String) : Except PlanFault JsonValue :=
  match Json.loads Json.naturalNumber text.toList with
  | .ok v => .ok (jsonValue v)
  | .error _ => .error (.invalid "no JSON")

def readingPlanner : PlanningStrategy :=
  { plainPlanner with codec := { plainPlanner.codec with loads := readJson } }

theorem readingPlanner_reads : Reads Json.naturalNumber jsonValue readingPlanner.codec where
  loads text v h := by
    show readJson text = _
    rw [readJson, h]
  fails text e h := by
    refine ⟨.invalid "no JSON", ?_⟩
    show readJson text = _
    rw [readJson, h]
  object fields := ⟨jsonFields fields, rfl⟩

theorem fenced_note_refused :
    Json.isObject Json.naturalNumber twoLineNote.toList = true ∧
      (readingPlanner.parseJsonObject twoLineNote).toOption.isSome = true ∧
      (readingPlanner.parseJsonObject (fenced twoLineNote)).toOption.isSome = false := by
  decide +kernel

theorem fenced_object_escaped :
    readingPlanner.parseJsonObject (fenced escapedNote) =
      readingPlanner.parseJsonObject escapedNote := by
  obtain ⟨fields, hloads⟩ := Json.isObject_iff.mp
    (show Json.isObject Json.naturalNumber escapedNote.toList = true by decide +kernel)
  exact ((fenced_object_iff readingPlanner_reads hloads).mpr escapedNote_ends).1

end Runtime
end BaseAgent
