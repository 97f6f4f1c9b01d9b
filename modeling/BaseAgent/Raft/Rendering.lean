import BaseAgent.Raft.Parser
import Mathlib.Data.Bool.AllAny
import Mathlib.Data.List.Chain
import Mathlib.Data.List.TakeWhile

/-!
# The rendering that the parser inverts

A message is written as a header, the sender and the content, with a tag behind the content of a
task.  The parser reads a rendered inbox back where no header begins in a body.
-/

namespace BaseAgent
namespace Raft

/-! ## Pieces of a text -/

section Pieces

theorem literal_append (expected : String) (text : List Char) :
    literal expected (expected.toList ++ text) = some text := by
  have hlength : expected.length = expected.toList.length := by rw [String.length_toList]
  rw [literal, if_pos (by simp), hlength, List.drop_left]

theorem literal_some {expected : String} {text rest : List Char} :
    literal expected text = some rest ↔ text = expected.toList ++ rest := by
  constructor
  · intro h
    unfold literal at h
    split at h
    · rename_i hstarts
      cases h
      have hlength : expected.length = expected.toList.length := by rw [String.length_toList]
      rw [hlength]
      exact (List.prefix_iff_eq_append.mp (List.isPrefixOf_iff_prefix.mp hstarts)).symm
    · cases h
  · rintro rfl
    exact literal_append expected rest

variable {accepts : Char → Bool} {run rest text : List Char}

theorem someOf_append (hrun : run ≠ []) (haccepts : ∀ c ∈ run, accepts c = true)
    (hstop : ∀ c, rest.head? = some c → accepts c = false) :
    someOf accepts (run ++ rest) = some (run, rest) := by
  have htake : (run ++ rest).takeWhile accepts = run := by
    rw [List.takeWhile_append_of_pos haccepts]
    cases rest with
    | nil => simp
    | cons c more => rw [List.takeWhile_cons_of_neg (by simp [hstop c rfl]), List.append_nil]
  have hdrop : (run ++ rest).dropWhile accepts = rest := by
    rw [List.dropWhile_append_of_pos haccepts]
    cases rest with
    | nil => rfl
    | cons c more => rw [List.dropWhile_cons_of_neg (by simp [hstop c rfl])]
  rw [someOf, htake, hdrop, if_neg (by simpa using hrun)]

theorem someOf_some (h : someOf accepts text = some (run, rest)) :
    text = run ++ rest ∧ run ≠ [] ∧ ∀ c ∈ run, accepts c = true := by
  unfold someOf at h
  split at h
  · cases h
  · rename_i hsome
    cases h
    exact ⟨List.takeWhile_append_dropWhile.symm, by simpa using hsome,
      fun c hc => List.mem_takeWhile_imp hc⟩

theorem rstrip_of_last (h : ∀ c, text.getLast? = some c → isSpace c = false) :
    rstrip text = text := by
  unfold rstrip
  cases hreverse : text.reverse with
  | nil =>
    rw [List.reverse_eq_nil_iff] at hreverse
    rw [hreverse]
    rfl
  | cons c before =>
    have hlast : text.getLast? = some c := by rw [← List.head?_reverse, hreverse]; rfl
    rw [List.dropWhile_cons_of_neg (by simp [h c hlast]), ← hreverse, List.reverse_reverse]

/-! ## Lines -/

theorem lines_ne_nil (text : List Char) : lines text ≠ [] := by
  cases text with
  | nil => simp [lines]
  | cons c rest =>
    rw [lines]
    split
    · simp
    · split <;> simp

theorem lines_append (first second : List Char) :
    lines (first ++ '\n' :: second) = lines first ++ lines second := by
  induction first with
  | nil => simp [lines]
  | cons c rest ih =>
    rw [List.cons_append, lines, lines, ih]
    by_cases hc : c = '\n'
    · simp [hc]
    · cases hlines : lines rest with
      | nil => exact absurd hlines (lines_ne_nil rest)
      | cons line others => simp [hc]

/-- What stands in front of a text without a line feed belongs to its first line. -/
theorem lines_behind {front : List Char} (h : '\n' ∉ front) (text : List Char) :
    lines (front ++ text) = (front ++ (lines text).head (lines_ne_nil text)) ::
      (lines text).tail := by
  induction front with
  | nil => simp
  | cons c rest ih =>
    rw [List.mem_cons, not_or] at h
    rw [List.cons_append, lines, if_neg (Ne.symm h.1), ih h.2]
    rfl

theorem lines_single (h : '\n' ∉ text) : lines text = [text] := by
  have hline := lines_behind h []
  simpa [lines] using hline

/-- What stands behind a text without a line feed belongs to its last line. -/
theorem lines_before {behind : List Char} (h : '\n' ∉ behind) (text : List Char) :
    ∃ first last, lines text = first ++ [last] ∧
      lines (text ++ behind) = first ++ [last ++ behind] := by
  induction text with
  | nil => exact ⟨[], [], rfl, lines_single h⟩
  | cons c rest ih =>
    obtain ⟨first, last, hrest, hbehind⟩ := ih
    rw [List.cons_append, lines, lines, hrest, hbehind]
    by_cases hc : c = '\n'
    · exact ⟨[] :: first, last, by simp [hc], by simp [hc]⟩
    · cases first with
      | nil => exact ⟨[], c :: last, by simp [hc], by simp [hc]⟩
      | cons line others => exact ⟨(c :: line) :: others, last, by simp [hc], by simp [hc]⟩

theorem joinLines_cons (line : List Char) {others : List (List Char)} (h : others ≠ []) :
    joinLines (line :: others) = line ++ '\n' :: joinLines others := by
  cases others with
  | nil => exact absurd rfl h
  | cons next rest => simp [joinLines, List.intercalate]

theorem joinLines_lines (text : List Char) : joinLines (lines text) = text := by
  induction text with
  | nil => rfl
  | cons c rest ih =>
    rw [lines]
    by_cases hc : c = '\n'
    · rw [if_pos hc, joinLines_cons _ (lines_ne_nil rest), ih, hc, List.nil_append]
    · rw [if_neg hc]
      cases hlines : lines rest with
      | nil => exact absurd hlines (lines_ne_nil rest)
      | cons line others =>
        rw [← ih, hlines]
        cases others with
        | nil => simp [joinLines, List.intercalate]
        | cons next more =>
          show joinLines ((c :: line) :: next :: more) = c :: joinLines (line :: next :: more)
          rw [joinLines_cons _ (List.cons_ne_nil next more),
            joinLines_cons _ (List.cons_ne_nil next more), List.cons_append]

theorem lines_joinLines {texts : List (List Char)} (h : texts ≠ []) :
    lines (joinLines texts) = texts.flatMap lines := by
  induction texts with
  | nil => exact absurd rfl h
  | cons text rest ih =>
    cases rest with
    | nil => simp [joinLines, List.intercalate]
    | cons next more =>
      rw [joinLines_cons _ (by simp), lines_append, ih (by simp)]
      rfl

end Pieces

/-! ## The header -/

section Headers

def isTypeCharacter (c : Char) : Bool := c ≠ ']' && !isSpace c

def headerFront (target messageId timestamp kind : List Char) : List Char :=
  "[target=".toList ++ (target ++ (" msg=".toList ++ (messageId ++ (" time=".toList ++
    (timestamp ++ (" type=".toList ++ kind))))))

/-- `[target=T msg=M time=S type=K] `. -/
def headerText (h : Header) : List Char :=
  headerFront h.target.toList h.messageId.toList h.timestamp.toList h.senderType.toList ++
    "] ".toList

/-- The fields of a header as its pattern describes them. -/
structure HeaderFields (h : Header) : Prop where
  target : h.target ≠ "" ∧ ∀ c ∈ h.target.toList, isSpace c = false
  messageId : h.messageId ≠ "" ∧ ∀ c ∈ h.messageId.toList, isSpace c = false
  timestamp : '\n' ∉ h.timestamp.toList
  senderType : h.senderType ≠ "" ∧ ∀ c ∈ h.senderType.toList, c ≠ ']' ∧ isSpace c = false

/-- The rest of the header does not fit before the end of the timestamp. -/
def FirstPlace (timestamp : String) : Prop :=
  ∀ before after, timestamp.toList = before ++ after → after ≠ [] →
    headerType (after ++ [' ']) = none

variable {text rest after kind : List Char}

theorem headerType_append (hkind : kind ≠ []) (haccepts : ∀ c ∈ kind, isTypeCharacter c = true)
    (after : List Char) :
    headerType (" type=".toList ++ (kind ++ ("] ".toList ++ after))) = some (kind, after) := by
  have hstop : ∀ c, ("] ".toList ++ after).head? = some c → isTypeCharacter c = false := by
    intro c hc
    cases hc
    decide
  have hrun : someOf (fun c => c ≠ ']' && !isSpace c) (kind ++ ("] ".toList ++ after)) =
      some (kind, "] ".toList ++ after) := someOf_append hkind haccepts hstop
  simp only [headerType, literal_append, hrun, Option.bind_eq_bind, Option.bind_some, Option.pure_def]

theorem headerType_some (h : headerType text = some (kind, after)) :
    text = " type=".toList ++ (kind ++ ("] ".toList ++ after)) ∧ kind ≠ [] ∧
      ∀ c ∈ kind, isTypeCharacter c = true := by
  obtain ⟨rest, hrest, h⟩ := Option.bind_eq_some_iff.mp h
  obtain ⟨⟨run, rest'⟩, hrun, h⟩ := Option.bind_eq_some_iff.mp h
  obtain ⟨rest'', hclose, h⟩ := Option.bind_eq_some_iff.mp h
  cases h
  obtain ⟨hsplit, hsome, hall⟩ := someOf_some hrun
  rw [literal_some.mp hrest, hsplit, literal_some.mp hclose]
  exact ⟨rfl, hsome, hall⟩

/-- A closing bracket with a space behind it stands before a given space or is followed by it, or it
stands behind that space. -/
theorem bracket_place {front back before after : List Char}
    (h : front ++ ' ' :: back = before ++ ']' :: ' ' :: after) :
    (∃ more, front ++ [' '] = before ++ ']' :: ' ' :: more) ∨
      ∃ middle, before = front ++ ' ' :: middle ∧ back = middle ++ ']' :: ' ' :: after := by
  cases List.append_eq_append_iff.mp h with
  | inl hlong =>
    obtain ⟨middle, hbefore, hback⟩ := hlong
    cases middle with
    | nil => cases hback
    | cons c rest =>
      rw [List.cons_append, List.cons.injEq] at hback
      obtain ⟨rfl, hback⟩ := hback
      exact .inr ⟨rest, hbefore, hback⟩
  | inr hshort =>
    obtain ⟨middle, hfront, hafter⟩ := hshort
    cases middle with
    | nil => cases hafter
    | cons c rest =>
      rw [List.cons_append, List.cons.injEq] at hafter
      obtain ⟨rfl, hafter⟩ := hafter
      cases rest with
      | nil => exact .inl ⟨[], by rw [hfront, List.append_assoc]; rfl⟩
      | cons d more =>
        rw [List.cons_append, List.cons.injEq] at hafter
        obtain ⟨rfl, hafter⟩ := hafter
        exact .inl ⟨more ++ [' '], by rw [hfront, List.append_assoc]; rfl⟩

/-- A match of ` type=K] ` that begins before a space does not go past it. -/
theorem headerType_behind (hrest : rest ≠ []) (h : headerType (rest ++ [' ']) = none)
    (back : List Char) : headerType (rest ++ ' ' :: back) = none := by
  cases htype : headerType (rest ++ ' ' :: back) with
  | none => rfl
  | some found =>
    obtain ⟨kind, after⟩ := found
    obtain ⟨htext, hkind, haccepts⟩ := headerType_some htype
    have hsplit : rest ++ ' ' :: back = (" type=".toList ++ kind) ++ ']' :: ' ' :: after := by
      rw [htext, List.append_assoc]
      rfl
    cases bracket_place hsplit with
    | inl hinside =>
      obtain ⟨more, hmore⟩ := hinside
      rw [hmore, List.append_assoc] at h
      have hfits := headerType_append hkind haccepts more
      exact absurd (h.symm.trans hfits) (by simp)
    | inr hpast =>
      obtain ⟨middle, hmiddle, -⟩ := hpast
      cases rest with
      | nil => exact absurd rfl hrest
      | cons c rest =>
        have hspace : ' ' ∈ "type=".toList ++ kind := by
          have htail := congrArg List.tail hmiddle
          change "type=".toList ++ kind = rest ++ ' ' :: middle at htail
          rw [htail]
          simp
        cases List.mem_append.mp hspace with
        | inl hword => exact absurd hword (by decide)
        | inr hmem => exact absurd (haccepts ' ' hmem) (by decide)

theorem headerTime_append {timestamp : List Char}
    (hfirst : ∀ before after, timestamp = before ++ after → after ≠ [] →
      headerType (after ++ text) = none)
    (htype : headerType text = some (kind, rest)) :
    headerTime (timestamp ++ text) = some (timestamp, kind, rest) := by
  induction timestamp with
  | nil =>
    cases text with
    | nil => cases htype
    | cons c more =>
      rw [List.nil_append, headerTime, htype]
  | cons c more ih =>
    have hnot := hfirst [] (c :: more) rfl (by simp)
    rw [List.cons_append] at hnot
    rw [List.cons_append, headerTime, hnot,
      ih fun before after hsplit => hfirst (c :: before) after (by rw [hsplit]; rfl)]
    rfl

theorem headerTime_some {timestamp : List Char}
    (h : headerTime text = some (timestamp, kind, after)) :
    ∃ rest, text = timestamp ++ rest ∧ headerType rest = some (kind, after) := by
  induction text generalizing timestamp with
  | nil => cases h
  | cons c more ih =>
    rw [headerTime] at h
    split at h
    · rename_i found htype
      cases h
      exact ⟨c :: more, rfl, htype⟩
    · rw [Option.map_eq_some_iff] at h
      obtain ⟨⟨s, k, a⟩, hfound, h⟩ := h
      cases h
      obtain ⟨rest, hrest, htype⟩ := ih hfound
      exact ⟨rest, by rw [hrest]; rfl, htype⟩

theorem headerTime_exists {rest : List Char} (h : headerType rest = some (kind, after))
    (front : List Char) : (headerTime (front ++ rest)).isSome = true := by
  induction front with
  | nil =>
    cases rest with
    | nil => cases h
    | cons c more => rw [List.nil_append, headerTime, h]; rfl
  | cons c more ih =>
    rw [List.cons_append, headerTime]
    split
    · rfl
    · rwa [Option.isSome_map]

section Shape

variable {target messageId timestamp : List Char}

theorem headerFront_append (behind : List Char) :
    headerFront target messageId timestamp kind ++ behind =
      "[target=".toList ++ (target ++ (" msg=".toList ++ (messageId ++ (" time=".toList ++
        (timestamp ++ (" type=".toList ++ (kind ++ behind))))))) := by
  unfold headerFront
  generalize "[target=".toList = first
  generalize " msg=".toList = second
  generalize " time=".toList = third
  generalize " type=".toList = fourth
  simp only [List.append_assoc]

structure HeaderPieces (target messageId kind : List Char) : Prop where
  target : target ≠ [] ∧ ∀ c ∈ target, (!isSpace c) = true
  messageId : messageId ≠ [] ∧ ∀ c ∈ messageId, (!isSpace c) = true
  kind : kind ≠ [] ∧ ∀ c ∈ kind, isTypeCharacter c = true

theorem header_pieces (h : HeaderPieces target messageId kind) (behind : List Char) :
    header (headerFront target messageId timestamp kind ++ behind) =
      (headerTime (timestamp ++ (" type=".toList ++ (kind ++ behind)))).map
        fun (timestamp, kind, rest) =>
          ({ target := String.ofList target, messageId := String.ofList messageId,
             timestamp := String.ofList timestamp, senderType := String.ofList kind }, rest) := by
  have hspace : ∀ (word : String), word.toList.head? = some ' ' → ∀ back c,
      (word.toList ++ back).head? = some c → (!isSpace c) = false := by
    intro word hword back c hc
    rw [List.head?_append, hword, Option.some_or, Option.some.injEq] at hc
    rw [← hc]
    decide
  have htarget := someOf_append h.target.1 h.target.2 (hspace " msg=" (by decide) (messageId ++
    (" time=".toList ++ (timestamp ++ (" type=".toList ++ (kind ++ behind))))))
  have hmessage := someOf_append h.messageId.1 h.messageId.2 (hspace " time=" (by decide)
    (timestamp ++ (" type=".toList ++ (kind ++ behind))))
  rw [headerFront_append]
  simp only [header, literal_append, htarget, hmessage, Option.bind_eq_bind, Option.bind_some,
    Option.pure_def]
  cases headerTime (timestamp ++ (" type=".toList ++ (kind ++ behind))) <;> rfl

theorem header_some {h : Header} (hheader : header text = some (h, after)) :
    ∃ target messageId timestamp kind, HeaderPieces target messageId kind ∧
      text = headerFront target messageId timestamp kind ++ ']' :: ' ' :: after := by
  obtain ⟨rest, hrest, hheader⟩ := Option.bind_eq_some_iff.mp hheader
  obtain ⟨⟨target, rest₁⟩, htarget, hheader⟩ := Option.bind_eq_some_iff.mp hheader
  obtain ⟨rest₂, hmsg, hheader⟩ := Option.bind_eq_some_iff.mp hheader
  obtain ⟨⟨messageId, rest₃⟩, hmessage, hheader⟩ := Option.bind_eq_some_iff.mp hheader
  obtain ⟨rest₄, htime, hheader⟩ := Option.bind_eq_some_iff.mp hheader
  obtain ⟨⟨timestamp, kind, rest₅⟩, hfound, hheader⟩ := Option.bind_eq_some_iff.mp hheader
  cases hheader
  obtain ⟨htargetText, htargetPieces⟩ := someOf_some htarget
  obtain ⟨hmessageText, hmessagePieces⟩ := someOf_some hmessage
  obtain ⟨rest₆, htimeText, htype⟩ := headerTime_some hfound
  obtain ⟨htypeText, hkindPieces⟩ := headerType_some htype
  refine ⟨target, messageId, timestamp, kind, ⟨htargetPieces, hmessagePieces, hkindPieces⟩, ?_⟩
  rw [headerFront_append, literal_some.mp hrest, htargetText, literal_some.mp hmsg, hmessageText,
    literal_some.mp htime, htimeText, htypeText]
  rfl

theorem header_exists (h : HeaderPieces target messageId kind) (after : List Char) :
    (header (headerFront target messageId timestamp kind ++ ']' :: ' ' :: after)).isSome = true := by
  have htype := headerType_append h.kind.1 h.kind.2 after
  have htime := headerTime_exists htype timestamp
  rw [header_pieces h, Option.isSome_map]
  exact htime

end Shape

theorem header_text {h : Header} (hfields : HeaderFields h) (hfirst : FirstPlace h.timestamp)
    (body : List Char) : header (headerText h ++ body) = some (h, body) := by
  have hpieces : HeaderPieces h.target.toList h.messageId.toList h.senderType.toList := by
    refine ⟨⟨?_, fun c hc => ?_⟩, ⟨?_, fun c hc => ?_⟩, ?_, fun c hc => ?_⟩
    · simpa using hfields.target.1
    · rw [hfields.target.2 c hc]
      rfl
    · simpa using hfields.messageId.1
    · rw [hfields.messageId.2 c hc]
      rfl
    · simpa using hfields.senderType.1
    · obtain ⟨hbracket, hspace⟩ := hfields.senderType.2 c hc
      simp [isTypeCharacter, hbracket, hspace]
  have htype := headerType_append hpieces.kind.1 hpieces.kind.2 body
  have hplace : ∀ before after, h.timestamp.toList = before ++ after → after ≠ [] →
      headerType (after ++ (" type=".toList ++ (h.senderType.toList ++
        ("] ".toList ++ body)))) = none := by
    intro before after hsplit hafter
    have hword : " type=".toList = ' ' :: "type=".toList := by decide
    rw [hword, List.cons_append]
    exact headerType_behind hafter (hfirst before after hsplit hafter) _
  have htext : headerText h ++ body = headerFront h.target.toList h.messageId.toList
      h.timestamp.toList h.senderType.toList ++ ("] ".toList ++ body) := by
    rw [headerText, List.append_assoc]
  rw [htext, header_pieces hpieces, headerTime_append hplace htype]
  simp only [Option.map_some, String.ofList_toList]

/-- A header that does not end before a given space does not end behind it, where no closing bracket
is followed by a space. -/
theorem header_behind {line back : List Char} (h : header (line ++ [' ']) = none)
    (hback : ∀ middle after, back ≠ middle ++ ']' :: ' ' :: after) :
    header (line ++ ' ' :: back) = none := by
  cases hheader : header (line ++ ' ' :: back) with
  | none => rfl
  | some found =>
    obtain ⟨target, messageId, timestamp, kind, hpieces, htext⟩ := header_some hheader
    cases bracket_place htext with
    | inl hinside =>
      obtain ⟨more, hmore⟩ := hinside
      have hexists : (header (headerFront target messageId timestamp kind ++
        ']' :: ' ' :: more)).isSome = true := header_exists hpieces more
      rw [← hmore, h] at hexists
      cases hexists
    | inr hpast =>
      obtain ⟨middle, -, hmiddle⟩ := hpast
      exact absurd hmiddle (hback middle _)

end Headers

/-! ## The tag of a task -/

section Tags

variable {lib : Library}

def assigneeText : Option (String × String) → List Char
  | some (kind, id) => " assignee=".toList ++ (kind.toList ++ (":".toList ++ id.toList))
  | none => []

/-- `[task #N status=X]` or `[task #N status=X assignee=Y:Z]`. -/
def tagText (tag : TaskTag) : List Char :=
  "[task #".toList ++ (tag.digits ++ (" status=".toList ++ (tag.status.toList ++
    (assigneeText tag.assignee ++ "]".toList))))

/-- The fields of a tag as its pattern describes them. -/
structure TagFields (lib : Library) (tag : TaskTag) : Prop where
  digits : tag.digits ≠ [] ∧ ∀ c ∈ tag.digits, (lib.decimal c).isSome = true
  status : tag.status ≠ "" ∧ ∀ c ∈ tag.status.toList, isKeyword c = true
  assignee : ∀ kind id, tag.assignee = some (kind, id) →
    (kind ≠ "" ∧ ∀ c ∈ kind.toList, isKeyword c = true) ∧
      id ≠ "" ∧ ∀ c ∈ id.toList, isTypeCharacter c = true

theorem literal_none {expected : String} {text : List Char} {c d : Char}
    (hexpected : expected.toList.head? = some c) (htext : text.head? = some d) (h : c ≠ d) :
    literal expected text = none := by
  cases hliteral : literal expected text with
  | none => rfl
  | some rest =>
    rw [literal_some.mp hliteral, List.head?_append, hexpected, Option.some_or,
      Option.some.injEq] at htext
    exact absurd htext h

theorem tagText_append (tag : TaskTag) (behind : List Char) :
    tagText tag ++ behind = "[task #".toList ++ (tag.digits ++ (" status=".toList ++
      (tag.status.toList ++ (assigneeText tag.assignee ++ ("]".toList ++ behind))))) := by
  unfold tagText
  generalize "[task #".toList = first
  generalize " status=".toList = second
  generalize "]".toList = third
  generalize assigneeText tag.assignee = fourth
  generalize tag.status.toList = fifth
  simp only [List.append_assoc]

theorem taskAssignee_text {kind id : String}
    (hkind : kind ≠ "" ∧ ∀ c ∈ kind.toList, isKeyword c = true)
    (hid : id ≠ "" ∧ ∀ c ∈ id.toList, isTypeCharacter c = true) (behind : List Char) :
    taskAssignee (assigneeText (some (kind, id)) ++ ("]".toList ++ behind)) =
      some ((kind, id), "]".toList ++ behind) := by
  have hcolon : ":".toList = [':'] := by decide
  have hbracket : "]".toList = [']'] := by decide
  have hstop : ∀ c, (":".toList ++ (id.toList ++ ("]".toList ++ behind))).head? = some c →
      isKeyword c = false := by
    intro c hc
    rw [hcolon] at hc
    cases hc
    decide
  have hclose : ∀ c, ("]".toList ++ behind).head? = some c → isTypeCharacter c = false := by
    intro c hc
    rw [hbracket] at hc
    cases hc
    decide
  have hfirst := someOf_append (by simpa using hkind.1) hkind.2 hstop
  have hsecond : someOf (fun c => c ≠ ']' && !isSpace c) (id.toList ++ ("]".toList ++ behind)) =
      some (id.toList, "]".toList ++ behind) := someOf_append (by simpa using hid.1) hid.2 hclose
  have htext : assigneeText (some (kind, id)) ++ ("]".toList ++ behind) =
      " assignee=".toList ++ (kind.toList ++ (":".toList ++ (id.toList ++
        ("]".toList ++ behind)))) := by
    unfold assigneeText
    generalize " assignee=".toList = first
    generalize ":".toList = second
    simp only [List.append_assoc]
  rw [htext]
  simp only [taskAssignee, literal_append, hfirst, hsecond, Option.bind_eq_bind, Option.bind_some,
    Option.pure_def, String.ofList_toList]

theorem taskAssignee_none (behind : List Char) : taskAssignee ("]".toList ++ behind) = none := by
  have hbracket : "]".toList = [']'] := by decide
  have hword : " assignee=".toList.head? = some ' ' := by decide
  have hliteral : literal " assignee=" ("]".toList ++ behind) = none :=
    literal_none hword (by rw [hbracket]; rfl) (by decide)
  rw [taskAssignee, hliteral]
  rfl

theorem taskTag_text {tag : TaskTag} (h : TagFields lib tag) {white : List Char}
    (hwhite : ∀ c ∈ white, isSpace c = true) : taskTag lib (tagText tag ++ white) = some tag := by
  have hword : " status=".toList = ' ' :: "status=".toList := by decide
  have hassigned : " assignee=".toList.head? = some ' ' := by decide
  have hbracket : "]".toList = [']'] := by decide
  have hspace : ∀ back c, (" status=".toList ++ back).head? = some c →
      (lib.decimal c).isSome = false := by
    intro back c hc
    rw [hword] at hc
    cases hc
    rw [lib.decimal_ascii ' ' (by decide)]
    rfl
  obtain ⟨digits, status, assignee⟩ := tag
  have hend : ∀ c, (assigneeText assignee ++ ("]".toList ++ white)).head? = some c →
      isKeyword c = false := by
    intro c hc
    cases assignee with
    | none =>
      rw [hbracket] at hc
      cases hc
      decide
    | some pair =>
      have hhead : (assigneeText (some pair) ++ ("]".toList ++ white)).head? = some ' ' := by
        generalize "]".toList ++ white = behind
        show ((" assignee=".toList ++ _) ++ behind).head? = some ' '
        rw [List.append_assoc, List.head?_append, hassigned, Option.some_or]
      rw [hhead, Option.some.injEq] at hc
      rw [← hc]
      decide
  have hdigits := someOf_append h.digits.1 h.digits.2
    (hspace (status.toList ++ (assigneeText assignee ++ ("]".toList ++ white))))
  have hstatus := someOf_append (by simpa using h.status.1) h.status.2 hend
  have hall : white.all isSpace = true := List.all_eq_true.mpr hwhite
  rw [tagText_append]
  cases assignee with
  | none =>
    have hempty : assigneeText none ++ ("]".toList ++ white) = "]".toList ++ white := rfl
    rw [hempty] at hdigits hstatus ⊢
    simp only [taskTag, literal_append, hdigits, hstatus, taskAssignee_none, hall,
      Option.bind_eq_bind, Option.bind_some, if_true, Option.pure_def, String.ofList_toList]
  | some pair =>
    obtain ⟨kind, id⟩ := pair
    obtain ⟨hkind, hid⟩ := h.assignee kind id rfl
    simp only [taskTag, literal_append, hdigits, hstatus, taskAssignee_text hkind hid, hall,
      Option.bind_eq_bind, Option.bind_some, if_true, Option.pure_def, String.ofList_toList]

theorem taskAssignee_some {text rest : List Char} {kind id : String}
    (h : taskAssignee text = some ((kind, id), rest)) :
    text = assigneeText (some (kind, id)) ++ rest ∧ (∀ c ∈ kind.toList, c ≠ ' ') ∧
      ∀ c ∈ id.toList, c ≠ ' ' := by
  obtain ⟨rest₁, hfirst, h⟩ := Option.bind_eq_some_iff.mp h
  obtain ⟨⟨kind', rest₂⟩, hkind, h⟩ := Option.bind_eq_some_iff.mp h
  obtain ⟨rest₃, hcolon, h⟩ := Option.bind_eq_some_iff.mp h
  obtain ⟨⟨id', rest₄⟩, hid, h⟩ := Option.bind_eq_some_iff.mp h
  have hpair : ((String.ofList kind', String.ofList id'), rest₄) = ((kind, id), rest) :=
    Option.some.inj h
  have hkindList : kind.toList = kind' := by
    cases hpair
    exact String.toList_ofList
  have hidList : id.toList = id' := by
    cases hpair
    exact String.toList_ofList
  have hrest : rest₄ = rest := by
    cases hpair
    rfl
  obtain ⟨hkindText, -, hkindPieces⟩ := someOf_some hkind
  obtain ⟨hidText, -, hidPieces⟩ := someOf_some hid
  refine ⟨?_, ?_, ?_⟩
  · have htext : text = " assignee=".toList ++ (kind' ++ (":".toList ++ (id' ++ rest₄))) := by
      rw [literal_some.mp hfirst, hkindText, literal_some.mp hcolon, hidText]
    have hassoc : ∀ a b c d e : List Char,
        (a ++ (b ++ (c ++ d))) ++ e = a ++ (b ++ (c ++ (d ++ e))) := by
      intro a b c d e
      simp only [List.append_assoc]
    have hassigned : assigneeText (some (kind, id)) ++ rest =
        " assignee=".toList ++ (kind.toList ++ (":".toList ++ (id.toList ++ rest))) :=
      hassoc _ _ _ _ _
    subst hkindList hidList hrest
    exact htext.trans hassigned.symm
  · rintro c hc rfl
    rw [hkindList] at hc
    exact absurd (hkindPieces ' ' hc) (by decide)
  · rintro c hc rfl
    rw [hidList] at hc
    exact absurd (hidPieces ' ' hc) (by decide)

/-- No opening bracket follows a space. -/
def Apart (a b : Char) : Prop := ¬ (a = ' ' ∧ b = '[')

theorem apart_of_no_space {text : List Char} (h : ∀ c ∈ text, c ≠ ' ') : text.IsChain Apart := by
  induction text with
  | nil => exact List.IsChain.nil
  | cons c rest ih =>
    have hrest := ih fun d hd => h d (List.mem_cons_of_mem c hd)
    cases rest with
    | nil => exact List.IsChain.singleton c
    | cons d more =>
      exact List.isChain_cons_cons.mpr ⟨fun hpair => h c List.mem_cons_self hpair.1, hrest⟩

theorem apart_of_no_bracket {text : List Char} (h : ∀ c ∈ text, c ≠ '[') : text.IsChain Apart := by
  induction text with
  | nil => exact List.IsChain.nil
  | cons c rest ih =>
    have hrest := ih fun d hd => h d (List.mem_cons_of_mem c hd)
    cases rest with
    | nil => exact List.IsChain.singleton c
    | cons d more =>
      exact List.isChain_cons_cons.mpr
        ⟨fun hpair => h d (List.mem_cons_of_mem c List.mem_cons_self) hpair.2, hrest⟩

/-- Behind a text without brackets any other may follow that has no space before a bracket. -/
theorem apart_append {first second : List Char} (hfirst : ∀ c ∈ first, c ≠ ' ')
    (hsecond : second.IsChain Apart) : (first ++ second).IsChain Apart := by
  rw [List.isChain_append]
  refine ⟨apart_of_no_space hfirst, hsecond, fun a ha b _ hpair => ?_⟩
  exact hfirst a (List.mem_of_getLast? ha) hpair.1

theorem apart_space {d : Char} {rest : List Char} (hd : d ≠ '[') (h : (d :: rest).IsChain Apart) :
    (' ' :: d :: rest).IsChain Apart :=
  List.isChain_cons_cons.mpr ⟨fun hpair => hd hpair.2, h⟩

theorem assigneeText_apart {kind id : String} {behind : List Char}
    (hkind : ∀ c ∈ kind.toList, c ≠ ' ') (hid : ∀ c ∈ id.toList, c ≠ ' ')
    (hbehind : behind.IsChain Apart) : (assigneeText (some (kind, id)) ++ behind).IsChain Apart := by
  have hword : " assignee=".toList = ' ' :: 'a' :: "ssignee=".toList := by decide
  have hfront : ∀ c ∈ 'a' :: "ssignee=".toList, c ≠ ' ' :=
    List.all_iff_forall_prop.mp (by decide)
  have hcolon : ∀ c ∈ ":".toList, c ≠ ' ' :=
    List.all_iff_forall_prop.mp (by decide)
  have htail : ('a' :: "ssignee=".toList ++ (kind.toList ++ (":".toList ++
      (id.toList ++ behind)))).IsChain Apart :=
    apart_append hfront (apart_append hkind (apart_append hcolon (apart_append hid hbehind)))
  have hassoc : ∀ a b c d e : List Char,
      (a ++ (b ++ (c ++ d))) ++ e = a ++ (b ++ (c ++ (d ++ e))) := by
    intro a b c d e
    simp only [List.append_assoc]
  have htext : assigneeText (some (kind, id)) ++ behind =
      " assignee=".toList ++ (kind.toList ++ (":".toList ++ (id.toList ++ behind))) :=
    hassoc _ _ _ _ _
  rw [htext, hword]
  exact apart_space (by decide) htail

/-- What the pattern of a tag accepts has no space before an opening bracket. -/
theorem taskTag_apart {text : List Char} {tag : TaskTag} (h : taskTag lib text = some tag) :
    text.IsChain Apart := by
  obtain ⟨rest₁, hfirst, h⟩ := Option.bind_eq_some_iff.mp h
  obtain ⟨⟨digits, rest₂⟩, hdigits, h⟩ := Option.bind_eq_some_iff.mp h
  obtain ⟨rest₃, hsecond, h⟩ := Option.bind_eq_some_iff.mp h
  obtain ⟨⟨status, rest₄⟩, hstatus, h⟩ := Option.bind_eq_some_iff.mp h
  obtain ⟨white, hclose, h⟩ := Option.bind_eq_some_iff.mp h
  obtain ⟨hdigitsText, -, hdigitsPieces⟩ := someOf_some hdigits
  obtain ⟨hstatusText, -, hstatusPieces⟩ := someOf_some hstatus
  have hwhite : ∀ c ∈ white, c ≠ '[' := by
    rintro c hc rfl
    split at h
    · rename_i hall
      exact absurd (List.all_eq_true.mp hall '[' hc) (by decide)
    · cases h
  have hend : ("]".toList ++ white).IsChain Apart :=
    apart_append (List.all_iff_forall_prop.mp (by decide)) (apart_of_no_bracket hwhite)
  have hbehind : rest₄.IsChain Apart := by
    cases hassignee : taskAssignee rest₄ with
    | none =>
      rw [hassignee] at hclose
      have hbracket : literal "]" rest₄ = some white := hclose
      rw [literal_some.mp hbracket]
      exact hend
    | some found =>
      obtain ⟨⟨kind, id⟩, rest₅⟩ := found
      rw [hassignee] at hclose
      have hbracket : literal "]" rest₅ = some white := hclose
      obtain ⟨htext, hkind, hid⟩ := taskAssignee_some hassignee
      rw [htext, literal_some.mp hbracket]
      exact assigneeText_apart hkind hid hend
  have hstatusApart : (status ++ rest₄).IsChain Apart := by
    refine apart_append ?_ hbehind
    rintro c hc rfl
    exact absurd (hstatusPieces ' ' hc) (by decide)
  have hword : " status=".toList = ' ' :: 's' :: "tatus=".toList := by decide
  have hfront : ∀ c ∈ 's' :: "tatus=".toList, c ≠ ' ' :=
    List.all_iff_forall_prop.mp (by decide)
  have hsecondApart : (" status=".toList ++ (status ++ rest₄)).IsChain Apart := by
    rw [hword]
    exact apart_space (by decide) (apart_append hfront hstatusApart)
  have hdigitsApart : (digits ++ (" status=".toList ++ (status ++ rest₄))).IsChain Apart := by
    refine apart_append ?_ hsecondApart
    rintro c hc rfl
    have hdecimal := hdigitsPieces ' ' hc
    rw [lib.decimal_ascii ' ' (by decide)] at hdecimal
    cases hdecimal
  have hnumber : (['#'] ++ (digits ++ (" status=".toList ++ (status ++ rest₄)))).IsChain Apart :=
    apart_append (List.all_iff_forall_prop.mp (by decide)) hdigitsApart
  have htask : "[task #".toList = "[task".toList ++ [' ', '#'] := by decide
  have hopening : ∀ c ∈ "[task".toList, c ≠ ' ' :=
    List.all_iff_forall_prop.mp (by decide)
  rw [literal_some.mp hfirst, hdigitsText, literal_some.mp hsecond, hstatusText, htask,
    List.append_assoc]
  exact apart_append hopening (apart_space (by decide) hnumber)

/-- A tag ends with the only closing bracket in it, and it has no line feed. -/
theorem tagText_close {tag : TaskTag} (h : TagFields lib tag) :
    ∃ front, tagText tag = front ++ [']'] ∧ ∀ c ∈ front, c ≠ ']' ∧ c ≠ '\n' := by
  have hclose : "]".toList = [']'] := by decide
  have hassoc : ∀ a b c d e f : List Char,
      a ++ (b ++ (c ++ (d ++ (e ++ f)))) = (a ++ (b ++ (c ++ (d ++ e)))) ++ f := by
    intro a b c d e f
    simp only [List.append_assoc]
  have hjoin : ∀ {a b : List Char}, (∀ c ∈ a, c ≠ ']' ∧ c ≠ '\n') → (∀ c ∈ b, c ≠ ']' ∧ c ≠ '\n') →
      ∀ c ∈ a ++ b, c ≠ ']' ∧ c ≠ '\n' :=
    fun ha hb c hc => (List.mem_append.mp hc).elim (ha c) (hb c)
  have hfirst : ∀ c ∈ "[task #".toList, c ≠ ']' ∧ c ≠ '\n' :=
    List.all_iff_forall_prop.mp (by decide)
  have hsecond : ∀ c ∈ " status=".toList, c ≠ ']' ∧ c ≠ '\n' :=
    List.all_iff_forall_prop.mp (by decide)
  have hthird : ∀ c ∈ " assignee=".toList, c ≠ ']' ∧ c ≠ '\n' :=
    List.all_iff_forall_prop.mp (by decide)
  have hfourth : ∀ c ∈ ":".toList, c ≠ ']' ∧ c ≠ '\n' :=
    List.all_iff_forall_prop.mp (by decide)
  have hdigits : ∀ c ∈ tag.digits, c ≠ ']' ∧ c ≠ '\n' := by
    refine fun c hc => ⟨?_, ?_⟩
    all_goals
      rintro rfl
      have hdecimal := h.digits.2 _ hc
      rw [lib.decimal_ascii _ (by decide)] at hdecimal
      cases hdecimal
  have hkeyword : ∀ {text : String}, (∀ c ∈ text.toList, isKeyword c = true) →
      ∀ c ∈ text.toList, c ≠ ']' ∧ c ≠ '\n' := by
    refine fun htext c hc => ⟨?_, ?_⟩
    all_goals
      rintro rfl
      exact absurd (htext _ hc) (by decide)
  have hassignee : ∀ c ∈ assigneeText tag.assignee, c ≠ ']' ∧ c ≠ '\n' := by
    cases hcase : tag.assignee with
    | none => exact fun c hc => absurd hc List.not_mem_nil
    | some pair =>
      obtain ⟨kind, id⟩ := pair
      obtain ⟨hkind, hid⟩ := h.assignee kind id hcase
      have hidPieces : ∀ c ∈ id.toList, c ≠ ']' ∧ c ≠ '\n' := by
        refine fun c hc => ⟨?_, ?_⟩
        all_goals
          rintro rfl
          exact absurd (hid.2 _ hc) (by decide)
      exact hjoin hthird (hjoin (hkeyword hkind.2) (hjoin hfourth hidPieces))
  refine ⟨_, ?_, hjoin hfirst (hjoin hdigits (hjoin hsecond
    (hjoin (hkeyword h.status.2) hassignee)))⟩
  rw [← hclose]
  exact hassoc _ _ _ _ _ _

theorem taskSearch_cons (c : Char) (rest : List Char) (found : Option TaskTag)
    (h : (if isSpace c then taskTag lib ((c :: rest).dropWhile isSpace) else none) = found) :
    taskSearch lib (c :: rest) =
      found.elim ((taskSearch lib rest).map fun (before, tag) => (c :: before, tag))
        fun tag => some ([], tag) := by
  obtain ⟨later, hlater⟩ : ∃ later, taskSearch lib rest = later := ⟨_, rfl⟩
  rw [hlater]
  unfold taskSearch
  rw [hlater, h]
  cases found <;> rfl

/-- The tag behind a content without white space at its end is found there and not before. -/
theorem taskSearch_text {tag : TaskTag} (h : TagFields lib tag) {content : List Char}
    (hlast : ∀ c, content.getLast? = some c → isSpace c = false) :
    taskSearch lib (content ++ ' ' :: tagText tag) = some (content, tag) := by
  have htag : taskTag lib (tagText tag) = some tag := by
    have htext : taskTag lib (tagText tag ++ []) = some tag := taskTag_text h (by simp)
    rwa [List.append_nil] at htext
  obtain ⟨behind, hbehind⟩ : ∃ behind, tagText tag = '[' :: behind := by
    have hword : "[task #".toList.head? = some '[' := by decide
    have hhead : ∀ back, ("[task #".toList ++ back).head? = some '[' := by
      intro back
      rw [List.head?_append, hword, Option.some_or]
    exact List.head?_eq_some_iff.mp (hhead _)
  rw [hbehind] at htag ⊢
  induction content with
  | nil =>
    rw [List.nil_append, taskSearch_cons ' ' ('[' :: behind) (some tag)]
    · rfl
    · rw [if_pos (by decide)]
      exact htag
  | cons c rest ih =>
    have hrest : ∀ d, rest.getLast? = some d → isSpace d = false := by
      intro d hd
      apply hlast d
      rw [List.getLast?_cons, hd]
      rfl
    rw [List.cons_append, taskSearch_cons c (rest ++ ' ' :: '[' :: behind) none, Option.elim_none,
      ih hrest]
    · rfl
    · by_cases hc : isSpace c = true
      · have hkeeps : (c :: rest).dropWhile isSpace ≠ [] := by
          intro hempty
          obtain ⟨d, hd⟩ : ∃ d, (c :: rest).getLast? = some d := ⟨_, List.getLast?_cons⟩
          have hspace := List.dropWhile_eq_nil_iff.mp hempty d (List.mem_of_getLast? hd)
          rw [hlast d hd] at hspace
          cases hspace
        rw [if_pos hc]
        cases hfound : taskTag lib ((c :: (rest ++ ' ' :: '[' :: behind)).dropWhile isSpace) with
        | none => rfl
        | some other =>
          have hapart := taskTag_apart hfound
          rw [← List.cons_append, List.dropWhile_append, if_neg (by simpa using hkeeps),
            List.isChain_append] at hapart
          exact absurd (List.isChain_cons_cons.mp hapart.2.1).1 (by simp [Apart])
      · rw [if_neg hc]

end Tags

/-! ## Messages -/

section Messages

variable (lib : Library)

namespace RaftMessage

def header (m : RaftMessage) : Header :=
  { target := m.target, messageId := m.messageId, timestamp := m.timestamp
    senderType := m.senderType }

def tag (m : RaftMessage) : Option TaskTag :=
  match m.taskNumber, m.taskStatus with
  | some number, some status =>
    some { digits := Nat.toDigits 10 number, status
           assignee := match m.taskAssigneeType, m.taskAssigneeId with
             | some kind, some id => some (kind, id)
             | _, _ => none }
  | _, _ => none

def tagged (m : RaftMessage) : List Char :=
  m.content.toList ++ match m.tag with
    | some tag => ' ' :: tagText tag
    | none => []

/-- `@H: content`. -/
def body (m : RaftMessage) : List Char :=
  "@".toList ++ (m.senderHandle.toList ++ (": ".toList ++ m.tagged))

def text (m : RaftMessage) : List Char := headerText m.header ++ m.body

/-- A message that the format describes. -/
structure Rendered (m : RaftMessage) : Prop where
  header : HeaderFields m.header
  messageId : m.messageId ≠ "-"
  senderHandle : m.senderHandle ≠ "" ∧ ∀ c ∈ m.senderHandle.toList, isSpace c = false ∧ c ≠ ':'
  content : m.content ≠ ""
  content_head : ∀ c, m.content.toList.head? = some c → isSpace c = false
  content_last : ∀ c, m.content.toList.getLast? = some c → isSpace c = false
  /-- No later line of the content begins with a header. -/
  continuation : ∀ line ∈ (lines m.content.toList).tail, Raft.header line = none
  untagged : m.taskNumber = none → taskSearch lib m.content.toList = none
  task : m.taskNumber.isSome = m.taskStatus.isSome
  assigned : m.taskAssigneeType.isSome = m.taskAssigneeId.isSome
  assigned_task : m.taskNumber = none → m.taskAssigneeType = none
  status : ∀ status, m.taskStatus = some status →
    status ≠ "" ∧ ∀ c ∈ status.toList, isKeyword c = true
  assigneeType : ∀ kind, m.taskAssigneeType = some kind →
    kind ≠ "" ∧ ∀ c ∈ kind.toList, isKeyword c = true
  assigneeId : ∀ id, m.taskAssigneeId = some id →
    id ≠ "" ∧ ∀ c ∈ id.toList, isTypeCharacter c = true

/-- The rendering does not show another header or another end of the timestamp. -/
structure Unambiguous (m : RaftMessage) : Prop where
  timestamp : FirstPlace m.timestamp
  /-- The space before a tag does not complete a header in the last line of the content. -/
  tagged : m.taskNumber ≠ none → ∀ line, (lines m.content.toList).tail.getLast? = some line →
    Raft.header (line ++ [' ']) = none
  /-- `str` and `int` take no more digits. -/
  number : ∀ number, m.taskNumber = some number → (Nat.toDigits 10 number).length ≤ 4300

end RaftMessage

/-- The output of `raft message check` with these messages. -/
def inboxText (messages : List RaftMessage) (suffix : String) : List Char :=
  joinLines (messages.map RaftMessage.text) ++ suffix.toList

variable {lib}

theorem readInt_digits {number : Nat} (h : (Nat.toDigits 10 number).length ≤ 4300) :
    readInt lib (Nat.toDigits 10 number) = .ok number := by
  have hdigit : ∀ d, d < 10 → (lib.decimal (Nat.digitChar d)).getD 0 = d := by
    have hall : ∀ d : Fin 10, (Nat.digitChar d).toNat < 128 ∧ (Nat.digitChar d).isDigit = true ∧
        (Nat.digitChar d).toNat - '0'.toNat = d := by decide
    intro d hd
    obtain ⟨hascii, hisDigit, hvalue⟩ := hall ⟨d, hd⟩
    rw [lib.decimal_ascii _ hascii, if_pos hisDigit]
    exact hvalue
  have hfold : ∀ n, (Nat.toDigits 10 n).foldl (fun n c => 10 * n + (lib.decimal c).getD 0) 0 = n := by
    intro n
    induction n using Nat.strong_induction_on with
    | _ n ih =>
      rw [Nat.toDigits_eq_if (by omega)]
      split
      · rename_i hsmall
        rw [List.foldl_cons, List.foldl_nil, hdigit n hsmall]
        omega
      · rw [List.foldl_append, ih (n / 10) (by omega), List.foldl_cons, List.foldl_nil,
          hdigit _ (Nat.mod_lt n (by omega))]
        omega
  rw [readInt, if_neg (by omega), hfold]

theorem sender_text {handle : List Char}
    (hhandle : handle ≠ [] ∧ ∀ c ∈ handle, isSpace c = false ∧ c ≠ ':') (content : List Char) :
    sender ("@".toList ++ (handle ++ (": ".toList ++ content))) = some (handle, content) := by
  have hword : ": ".toList.head? = some ':' := by decide
  have hcolon : (": ".toList ++ content).head? = some ':' := by
    rw [List.head?_append, hword, Option.some_or]
  have hstop : ∀ c, (": ".toList ++ content).head? = some c → (!isSpace c && c ≠ ':') = false := by
    intro c hc
    rw [hcolon, Option.some.injEq] at hc
    rw [← hc]
    decide
  have hpieces : ∀ c ∈ handle, (!isSpace c && c ≠ ':') = true := by
    intro c hc
    obtain ⟨hspace, hne⟩ := hhandle.2 c hc
    simp [hspace, hne]
  have hrun := someOf_append hhandle.1 hpieces hstop
  have hdash : " — ".toList.head? = some ' ' := by decide
  have htitle : literal " — " (": ".toList ++ content) = none :=
    literal_none hdash hcolon (by decide)
  simp only [sender, literal_append, hrun, htitle, Option.bind_eq_bind, Option.bind_some,
    Option.pure_def]

variable {m : RaftMessage}

namespace RaftMessage

theorem Rendered.tagFields (h : m.Rendered lib) {tag : TaskTag} (htag : m.tag = some tag) :
    TagFields lib tag := by
  have hdecimal : ∀ number, ∀ c ∈ Nat.toDigits 10 number, (lib.decimal c).isSome = true := by
    intro number c hc
    have hdigit : c.isDigit = true := Nat.isDigit_of_mem_toDigits (by decide) (by decide) hc
    have hascii : c.toNat < 128 := by
      simp only [Char.isDigit, Bool.and_eq_true, decide_eq_true_eq] at hdigit
      have hle : c.toNat ≤ 57 := hdigit.2
      omega
    rw [lib.decimal_ascii c hascii, if_pos hdigit]
    rfl
  unfold RaftMessage.tag at htag
  split at htag
  · rename_i number status hnumber hstatus
    cases htag
    refine ⟨⟨Nat.toDigits_ne_nil, hdecimal number⟩, h.status status hstatus, ?_⟩
    intro kind id hassignee
    split at hassignee
    · rename_i kind' id' hkind hid
      cases hassignee
      exact ⟨h.assigneeType kind hkind, h.assigneeId id hid⟩
    · cases hassignee
  · cases htag

/-- The three fields of the parsed tag are those of the message. -/
theorem Rendered.tag_some (h : m.Rendered lib) {number : Nat} (hnumber : m.taskNumber = some number) :
    ∃ tag, m.tag = some tag ∧ tag.digits = Nat.toDigits 10 number ∧
      some tag.status = m.taskStatus ∧ tag.assignee.map (·.1) = m.taskAssigneeType ∧
        tag.assignee.map (·.2) = m.taskAssigneeId := by
  have htask := h.task
  have hassigned := h.assigned
  rw [hnumber] at htask
  cases hstatus : m.taskStatus with
  | none =>
    rw [hstatus] at htask
    cases htask
  | some status =>
    unfold RaftMessage.tag
    rw [hnumber, hstatus]
    refine ⟨_, rfl, rfl, rfl, ?_, ?_⟩
    all_goals
      cases hkind : m.taskAssigneeType with
      | none =>
        rw [hkind] at hassigned
        cases hid : m.taskAssigneeId with
        | none => rfl
        | some id =>
          rw [hid] at hassigned
          cases hassigned
      | some kind =>
        rw [hkind] at hassigned
        cases hid : m.taskAssigneeId with
        | none =>
          rw [hid] at hassigned
          cases hassigned
        | some id => rfl

theorem tag_none (h : m.taskNumber = none) : m.tag = none := by
  unfold RaftMessage.tag
  rw [h]

theorem Rendered.tagged_last (h : m.Rendered lib) :
    ∀ c, m.tagged.getLast? = some c → isSpace c = false := by
  intro c hc
  unfold tagged at hc
  cases htag : m.tag with
  | none =>
    rw [htag, List.append_nil] at hc
    exact h.content_last c hc
  | some tag =>
    obtain ⟨front, hfront, -⟩ := tagText_close (h.tagFields htag)
    rw [htag] at hc
    simp only [hfront, ← List.cons_append, ← List.append_assoc, List.getLast?_concat,
      Option.some.injEq] at hc
    rw [← hc]
    decide

theorem untagged_eq (hnumber : m.taskNumber = none) (hstatus : m.taskStatus = none)
    (hkind : m.taskAssigneeType = none) (hid : m.taskAssigneeId = none) :
    { target := m.target, messageId := m.messageId, timestamp := m.timestamp,
      senderType := m.senderType, senderHandle := m.senderHandle, content := m.content } = m := by
  cases m
  cases hnumber
  cases hstatus
  cases hkind
  cases hid
  rfl

theorem parseEnvelope_body (h : m.Rendered lib) (hm : m.Unambiguous) :
    parseEnvelope lib m.header m.body = .ok m := by
  have hhandle : m.senderHandle.toList ≠ [] ∧
      ∀ c ∈ m.senderHandle.toList, isSpace c = false ∧ c ≠ ':' :=
    ⟨by simpa using h.senderHandle.1, h.senderHandle.2⟩
  have hsender : sender m.body = some (m.senderHandle.toList, m.tagged) :=
    sender_text hhandle m.tagged
  have hstrip : rstrip m.tagged = m.tagged := rstrip_of_last h.tagged_last
  have hcontent : rstrip m.content.toList = m.content.toList := rstrip_of_last h.content_last
  cases hnumber : m.taskNumber with
  | none =>
    have htagged : m.tagged = m.content.toList := by rw [tagged, tag_none hnumber, List.append_nil]
    have hsearch : taskSearch lib m.content.toList = none := h.untagged hnumber
    have hstatus : m.taskStatus = none := by
      have htask := h.task
      rw [hnumber] at htask
      exact Option.isNone_iff_eq_none.mp (by rw [← Option.not_isSome, ← htask]; rfl)
    have hkind := h.assigned_task hnumber
    have hid : m.taskAssigneeId = none := by
      have hassigned := h.assigned
      rw [hkind] at hassigned
      exact Option.isNone_iff_eq_none.mp (by rw [← Option.not_isSome, ← hassigned]; rfl)
    rw [htagged] at hsender
    simp only [parseEnvelope, hsender, hcontent, hsearch, orRaise, raiseIf, RaftMessage.header,
      h.messageId, if_false, String.ofList_toList, bind, Except.bind, pure, Except.pure,
      Option.map_none, Option.bind_none]
    exact congrArg Except.ok (untagged_eq hnumber hstatus hkind hid)
  | some number =>
    obtain ⟨tag, htag, hdigits, hstatus, hkind, hid⟩ := h.tag_some hnumber
    have hsearch : taskSearch lib m.tagged = some (m.content.toList, tag) := by
      rw [tagged, htag]
      exact taskSearch_text (h.tagFields htag) h.content_last
    have hread : readInt lib tag.digits = .ok number := by
      rw [hdigits]
      exact readInt_digits (hm.number number hnumber)
    simp only [parseEnvelope, hsender, hstrip, hcontent, hsearch, hread, orRaise, raiseIf,
      RaftMessage.header, h.messageId, if_false, String.ofList_toList, bind, Except.bind, pure,
      Except.pure, Option.map_some, Option.bind_some, hstatus, hkind, hid, ← hnumber]

theorem Rendered.continued (h : m.Rendered lib) (hm : m.Unambiguous) :
    ∀ line ∈ (lines m.tagged).tail, Raft.header line = none := by
  cases htag : m.tag with
  | none =>
    rw [tagged, htag, List.append_nil]
    exact h.continuation
  | some tag =>
    have hfields := h.tagFields htag
    obtain ⟨front, hfront, hfrontPieces⟩ := tagText_close hfields
    have hback : ∀ middle after, tagText tag ≠ middle ++ ']' :: ' ' :: after := by
      intro middle after heq
      rw [hfront] at heq
      have hdrop := congrArg List.dropLast heq
      rw [List.dropLast_concat, List.dropLast_append_of_ne_nil (by simp)] at hdrop
      have hmem : ']' ∈ front := by
        rw [hdrop]
        simp
      exact (hfrontPieces ']' hmem).1 rfl
    have hfeed : '\n' ∉ ' ' :: tagText tag := by
      intro hmem
      rw [hfront, ← List.cons_append] at hmem
      rcases List.mem_append.mp hmem with hmem | hmem
      · cases List.mem_cons.mp hmem with
        | inl hspace => cases hspace
        | inr hinside => exact (hfrontPieces '\n' hinside).2 rfl
      · cases List.mem_singleton.mp hmem
    have hnumber : m.taskNumber ≠ none := by
      intro hnone
      rw [tag_none hnone] at htag
      cases htag
    obtain ⟨first, last, hlines, hbehind⟩ := lines_before hfeed m.content.toList
    have htail : m.tagged = m.content.toList ++ ' ' :: tagText tag := by rw [tagged, htag]
    intro line hline
    rw [htail, hbehind] at hline
    cases first with
    | nil => cases hline
    | cons head others =>
      have hcontent := h.continuation
      have hlast := hm.tagged hnumber
      rw [hlines] at hcontent hlast
      cases List.mem_append.mp hline with
      | inl hother => exact hcontent line (List.mem_append_left _ hother)
      | inr htagged =>
        rw [List.mem_singleton.mp htagged]
        exact header_behind (hlast last (by simp)) hback

theorem headerText_feed {h : Header} (hfields : HeaderFields h) : '\n' ∉ headerText h := by
  have hjoin : ∀ {a b : List Char}, '\n' ∉ a → '\n' ∉ b → '\n' ∉ a ++ b :=
    fun ha hb hmem => (List.mem_append.mp hmem).elim ha hb
  have hclear : ∀ {text : String}, (∀ c ∈ text.toList, isSpace c = false) → '\n' ∉ text.toList :=
    fun htext hmem => absurd (htext '\n' hmem) (by decide)
  have hfirst : '\n' ∉ "[target=".toList := by decide
  have hsecond : '\n' ∉ " msg=".toList := by decide
  have hthird : '\n' ∉ " time=".toList := by decide
  have hfourth : '\n' ∉ " type=".toList := by decide
  have hfifth : '\n' ∉ "] ".toList := by decide
  exact hjoin (hjoin hfirst (hjoin (hclear hfields.target.2) (hjoin hsecond
    (hjoin (hclear hfields.messageId.2) (hjoin hthird (hjoin hfields.timestamp
      (hjoin hfourth (hclear fun c hc => (hfields.senderType.2 c hc).2)))))))) hfifth

/-- The lines of a rendered message: the header stands in the first one only. -/
theorem Rendered.lines_text (h : m.Rendered lib) (hm : m.Unambiguous) :
    ∃ first others, lines m.text = (headerText m.header ++ first) :: others ∧
      joinLines (first :: others) = m.body ∧ ∀ line ∈ others, Raft.header line = none := by
  have hfront : '\n' ∉ "@".toList ++ (m.senderHandle.toList ++ ": ".toList) := by
    have hat : '\n' ∉ "@".toList := by decide
    have hcolon : '\n' ∉ ": ".toList := by decide
    intro hmem
    rcases List.mem_append.mp hmem with hmem | hmem
    · exact hat hmem
    rcases List.mem_append.mp hmem with hmem | hmem
    · exact absurd (h.senderHandle.2 '\n' hmem).1 (by decide)
    · exact hcolon hmem
  have hbody : m.body = ("@".toList ++ (m.senderHandle.toList ++ ": ".toList)) ++ m.tagged := by
    have hassoc : ∀ a b c d : List Char, a ++ (b ++ (c ++ d)) = (a ++ (b ++ c)) ++ d := by
      intro a b c d
      simp only [List.append_assoc]
    exact hassoc _ _ _ _
  have htail : (lines m.body).tail = (lines m.tagged).tail := by rw [hbody, lines_behind hfront]; rfl
  refine ⟨(lines m.body).head (lines_ne_nil _), (lines m.body).tail,
    lines_behind (headerText_feed h.header) _, ?_, ?_⟩
  · rw [List.cons_head_tail, joinLines_lines]
  · rw [htail]
    exact h.continued hm

theorem Rendered.body_last (h : m.Rendered lib) :
    ∀ c, m.body.getLast? = some c → isSpace c = false := by
  have hsome : m.tagged ≠ [] := by
    intro hempty
    have hcontent : m.content.toList = [] := (List.append_eq_nil_iff.mp hempty).1
    exact h.content (by simpa using hcontent)
  obtain ⟨last, hlast⟩ : ∃ last, m.tagged.getLast? = some last :=
    ⟨_, List.getLast?_eq_some_getLast hsome⟩
  have hend : ∀ front : List Char, (front ++ m.tagged).getLast? = some last := by
    intro front
    rw [List.getLast?_append, hlast, Option.some_or]
  have hassoc : ∀ a b c d : List Char, a ++ (b ++ (c ++ d)) = (a ++ (b ++ c)) ++ d := by
    intro a b c d
    simp only [List.append_assoc]
  have hbody : m.body.getLast? = some last := by
    unfold body
    rw [hassoc]
    exact hend _
  intro c hc
  rw [hbody, Option.some.injEq] at hc
  rw [← hc]
  exact h.tagged_last last hlast

end RaftMessage

/-- The lines up to the next header are the body of an envelope. -/
theorem envelopes_block {first tail : List Char} {others rest : List (List Char)} {h : Header}
    (hfirst : header first = some (h, tail)) (hothers : ∀ line ∈ others, header line = none)
    (hrest : ∀ line, rest.head? = some line → (header line).isSome = true) :
    envelopes (first :: others ++ rest) =
      (h, rstrip (joinLines (tail :: others))) :: envelopes rest := by
  have hskip : ∀ others : List (List Char), (∀ line ∈ others, header line = none) →
      envelopes (others ++ rest) = envelopes rest ∧
        (others ++ rest).takeWhile (fun line => (header line).isNone) = others := by
    intro others
    induction others with
    | nil =>
      intro _
      refine ⟨rfl, ?_⟩
      cases rest with
      | nil => rfl
      | cons line more =>
        have hline := hrest line rfl
        rw [List.nil_append, List.takeWhile_cons_of_neg (by rw [← Option.not_isSome, hline]; decide)]
    | cons line more ih =>
      intro hmore
      have hline := hmore line List.mem_cons_self
      obtain ⟨hlater, htake⟩ := ih fun other hother => hmore other (List.mem_cons_of_mem _ hother)
      refine ⟨?_, ?_⟩
      · rw [List.cons_append, envelopes, hline]
        exact hlater
      · rw [List.cons_append, List.takeWhile_cons_of_pos (by rw [hline]; rfl), htake]
  obtain ⟨hlater, htake⟩ := hskip others hothers
  rw [List.cons_append, envelopes, hfirst]
  simp only [htake, hlater]

theorem envelopes_text {messages : List RaftMessage}
    (h : ∀ m ∈ messages, m.Rendered lib ∧ m.Unambiguous) :
    envelopes ((messages.map RaftMessage.text).flatMap lines) =
      messages.map fun m => (m.header, m.body) := by
  induction messages with
  | nil => rfl
  | cons m rest ih =>
    obtain ⟨hm, hclear⟩ := h m List.mem_cons_self
    have hrest : ∀ other ∈ rest, other.Rendered lib ∧ other.Unambiguous :=
      fun other hother => h other (List.mem_cons_of_mem m hother)
    obtain ⟨first, others, hlines, hjoin, hothers⟩ := hm.lines_text hclear
    have hheader : header (headerText m.header ++ first) = some (m.header, first) :=
      header_text hm.header hclear.timestamp first
    have hnext : ∀ line, ((rest.map RaftMessage.text).flatMap lines).head? = some line →
        (header line).isSome = true := by
      intro line hline
      cases rest with
      | nil => cases hline
      | cons next more =>
        obtain ⟨hnext, hclearNext⟩ := hrest next List.mem_cons_self
        obtain ⟨first', others', hlines', -, -⟩ := hnext.lines_text hclearNext
        rw [List.map_cons, List.flatMap_cons, hlines'] at hline
        cases hline
        rw [header_text hnext.header hclearNext.timestamp]
        rfl
    rw [List.map_cons, List.flatMap_cons, hlines, envelopes_block hheader hothers hnext, hjoin,
      rstrip_of_last hm.body_last, ih hrest, List.map_cons]

theorem text_last (h : m.Rendered lib) :
    ∃ c, m.text.getLast? = some c ∧ isSpace c = false := by
  have hsome : m.body ≠ [] := by
    intro hempty
    have hat : "@".toList = [] := (List.append_eq_nil_iff.mp hempty).1
    exact absurd hat (by decide)
  obtain ⟨last, hlast⟩ : ∃ last, m.body.getLast? = some last :=
    ⟨_, List.getLast?_eq_some_getLast hsome⟩
  refine ⟨last, ?_, h.body_last last hlast⟩
  rw [RaftMessage.text, List.getLast?_append, hlast, Option.some_or]

/-- Texts that end with a character of a kind are joined to a text that does. -/
theorem joinLines_last {kind : Char → Prop} {texts : List (List Char)} (hne : texts ≠ [])
    (h : ∀ text ∈ texts, ∃ c, text.getLast? = some c ∧ kind c) :
    ∃ c, (joinLines texts).getLast? = some c ∧ kind c := by
  induction texts with
  | nil => exact absurd rfl hne
  | cons text rest ih =>
    cases rest with
    | nil => simpa [joinLines, List.intercalate] using h text List.mem_cons_self
    | cons next more =>
      obtain ⟨c, hc, hkind⟩ := ih (by simp) fun t ht => h t (List.mem_cons_of_mem _ ht)
      refine ⟨c, ?_, hkind⟩
      rw [joinLines_cons _ (by simp), List.getLast?_append, List.getLast?_cons, hc]
      rfl

theorem joinLines_head {text : List Char} {rest : List (List Char)} (h : text ≠ []) :
    (joinLines (text :: rest)).head? = text.head? := by
  cases text with
  | nil => exact absurd rfl h
  | cons c more =>
    cases rest with
    | nil => simp [joinLines, List.intercalate]
    | cons next others => rw [joinLines_cons _ (by simp)]; rfl

theorem text_head (m : RaftMessage) : m.text.head? = some '[' := by
  have hword : "[target=".toList.head? = some '[' := by decide
  have hfront : ∀ a b c : List Char, (("[target=".toList ++ a) ++ b ++ c).head? = some '[' := by
    intro a b c
    rw [List.append_assoc, List.append_assoc, List.head?_append, hword, Option.some_or]
  exact hfront _ _ _

/-- Either suffix is taken off behind a text without white space at its end. -/
theorem dropSuffix_append {text : List Char} (hlast : rstrip text = text) {suffix : String}
    (hsuffix : suffix ∈ drainSuffixes) :
    dropSuffix (text ++ suffix.toList) drainSuffixes = text := by
  have htake : ∀ suffix : String, suffix.toList.isSuffixOf (text ++ suffix.toList) = true ∧
      (text ++ suffix.toList).take ((text ++ suffix.toList).length - suffix.length) = text := by
    intro suffix
    have hlength : suffix.length = suffix.toList.length := by rw [String.length_toList]
    refine ⟨by simp, ?_⟩
    rw [hlength, List.length_append, Nat.add_sub_cancel, List.take_left]
  have hother : ("\nNo more new messages.".toList.isSuffixOf (text ++
      "\nMore messages are pending. Run `raft message check` again.".toList)) = false := by
    have hnot : ¬ "\nNo more new messages.".toList <:+
        "\nMore messages are pending. Run `raft message check` again.".toList := by decide
    by_contra hends
    rw [Bool.not_eq_false, List.isSuffixOf_iff_suffix] at hends
    exact hnot (List.suffix_of_suffix_length_le hends (List.suffix_append _ _) (by decide))
  unfold drainSuffixes at hsuffix ⊢
  cases List.mem_cons.mp hsuffix with
  | inl hfirst =>
    subst hfirst
    obtain ⟨hends, htext⟩ := htake "\nNo more new messages."
    rw [dropSuffix, if_pos hends, htext, hlast]
  | inr hrest =>
    have hsecond := List.mem_singleton.mp hrest
    subst hsecond
    obtain ⟨hends, htext⟩ :=
      htake "\nMore messages are pending. Run `raft message check` again."
    rw [dropSuffix, if_neg (by rw [hother]; decide), dropSuffix, if_pos hends, htext, hlast]

theorem mapM_back {messages : List RaftMessage}
    {f : Header × List Char → Except RaftError RaftMessage}
    (h : ∀ m ∈ messages, f (m.header, m.body) = .ok m) :
    (messages.map fun m => (m.header, m.body)).mapM f = .ok messages := by
  induction messages with
  | nil => rfl
  | cons m rest ih =>
    rw [List.map_cons, List.mapM_cons, h m List.mem_cons_self,
      ih fun other hother => h other (List.mem_cons_of_mem m hother)]
    rfl

theorem messages_head {messages : List RaftMessage} (hne : messages ≠ []) :
    (joinLines (messages.map RaftMessage.text)).head? = some '[' := by
  cases messages with
  | nil => exact absurd rfl hne
  | cons m rest =>
    have hsome : m.text ≠ [] := by
      intro hempty
      have hbracket := text_head m
      rw [hempty] at hbracket
      cases hbracket
    rw [List.map_cons, joinLines_head hsome, text_head]

/-- A text that begins with a bracket is not the report of an empty inbox. -/
theorem not_nothing {text : List Char} (h : text.head? = some '[') :
    ¬ (text = [] ∨ text = "No new messages.".toList) := by
  have hnone : "No new messages.".toList.head? = some 'N' := by decide
  rintro (hempty | hnothing)
  · rw [hempty] at h
    cases h
  · rw [hnothing, hnone] at h
    cases h

/-- The parser reads the rendered messages back once the suffix is gone. -/
theorem parse_text {messages : List RaftMessage} (hne : messages ≠ [])
    (h : ∀ m ∈ messages, m.Rendered lib ∧ m.Unambiguous) {output : String}
    (houtput : normalized output = joinLines (messages.map RaftMessage.text)) :
    parseRaftMessages lib output = .ok messages := by
  have hlines : lines (joinLines (messages.map RaftMessage.text)) =
      (messages.map RaftMessage.text).flatMap lines := lines_joinLines (by simpa using hne)
  have hsome : (messages.map fun m => (m.header, m.body)) ≠ [] := by simpa using hne
  unfold parseRaftMessages
  rw [houtput, if_neg (not_nothing (messages_head hne)), hlines, envelopes_text h, if_neg hsome]
  exact mapM_back fun m hm => RaftMessage.parseEnvelope_body (h m hm).1 (h m hm).2

theorem rstrip_messages {messages : List RaftMessage} (hne : messages ≠ [])
    (h : ∀ m ∈ messages, m.Rendered lib) :
    rstrip (joinLines (messages.map RaftMessage.text)) =
      joinLines (messages.map RaftMessage.text) := by
  have hsome : messages.map RaftMessage.text ≠ [] := by simpa using hne
  have htexts : ∀ text ∈ messages.map RaftMessage.text,
      ∃ c, text.getLast? = some c ∧ isSpace c = false := by
    intro text htext
    obtain ⟨m, hm, rfl⟩ := List.mem_map.mp htext
    exact text_last (h m hm)
  obtain ⟨c, hc, hspace⟩ := joinLines_last hsome htexts
  apply rstrip_of_last
  intro other hother
  rw [hc] at hother
  cases hother
  exact hspace

theorem drainSuffixes_last :
    ∀ suffix ∈ drainSuffixes, suffix.toList.getLast? = some '.' := by decide

/-- Neither the trailing white space nor the suffix reaches the search for headers. -/
theorem normalized_inboxText {messages : List RaftMessage} (hne : messages ≠ [])
    (h : ∀ m ∈ messages, m.Rendered lib) {suffix : String} (hsuffix : suffix ∈ drainSuffixes) :
    normalized (String.ofList (inboxText messages suffix)) =
      joinLines (messages.map RaftMessage.text) := by
  have hlast : (inboxText messages suffix).getLast? = some '.' := by
    rw [inboxText, List.getLast?_append, drainSuffixes_last suffix hsuffix, Option.some_or]
  have hstrip : rstrip (inboxText messages suffix) = inboxText messages suffix :=
    rstrip_of_last fun c hc => by
      rw [hlast] at hc
      cases hc
      decide
  have hhead : (inboxText messages suffix).head? = some '[' := by
    rw [inboxText, List.head?_append, messages_head hne, Option.some_or]
  show (if rstrip (String.ofList (inboxText messages suffix)).toList = [] ∨ _ then _ else _) = _
  rw [String.toList_ofList, hstrip, if_neg (not_nothing hhead)]
  exact dropSuffix_append (rstrip_messages hne h) hsuffix

/-- A text that ends with another character than the suffixes is left as it is. -/
theorem dropSuffix_of_last {text : List Char} (hlast : text.getLast? ≠ some '.')
    {suffixes : List String} (h : ∀ suffix ∈ suffixes, suffix.toList.getLast? = some '.') :
    dropSuffix text suffixes = text := by
  induction suffixes with
  | nil => rfl
  | cons suffix rest ih =>
    have hnot : ¬ suffix.toList.isSuffixOf text = true := by
      rw [List.isSuffixOf_iff_suffix]
      rintro ⟨front, rfl⟩
      apply hlast
      rw [List.getLast?_append, h suffix List.mem_cons_self, Option.some_or]
    rw [dropSuffix, if_neg hnot]
    exact ih fun other hother => h other (List.mem_cons_of_mem suffix hother)

/-- Without a suffix the rendered messages are searched as they are. -/
theorem normalized_messages {messages : List RaftMessage} (hne : messages ≠ [])
    (h : ∀ m ∈ messages, m.Rendered lib)
    (hlast : (joinLines (messages.map RaftMessage.text)).getLast? ≠ some '.') :
    normalized (String.ofList (joinLines (messages.map RaftMessage.text))) =
      joinLines (messages.map RaftMessage.text) := by
  show (if rstrip (String.ofList (joinLines (messages.map RaftMessage.text))).toList = [] ∨ _
    then _ else _) = _
  rw [String.toList_ofList, rstrip_messages hne h, if_neg (not_nothing (messages_head hne))]
  exact dropSuffix_of_last hlast drainSuffixes_last

/-- The parser inverts the rendering of messages that are unambiguous. -/
theorem parse_inboxText {messages : List RaftMessage} (hne : messages ≠ [])
    (h : ∀ m ∈ messages, m.Rendered lib ∧ m.Unambiguous) {suffix : String}
    (hsuffix : suffix ∈ drainSuffixes) :
    parseRaftMessages lib (String.ofList (inboxText messages suffix)) = .ok messages :=
  parse_text hne h (normalized_inboxText hne (fun m hm => (h m hm).1) hsuffix)

end Messages

/-- A time without an equals sign holds no part of the rest of a header. -/
theorem firstPlace_of_notMem {timestamp : String} (h : '=' ∉ timestamp.toList) :
    FirstPlace timestamp := by
  intro before after hsplit _
  have hafter : '=' ∉ after ++ [' '] := by
    intro hmem
    rw [List.mem_append, List.mem_singleton] at hmem
    apply h
    rw [hsplit]
    exact List.mem_append_right before (hmem.resolve_right (by decide))
  have hword : '=' ∈ " type=".toList := by decide
  have hliteral : literal " type=" (after ++ [' ']) = none := by
    by_contra hsome
    obtain ⟨rest, hrest⟩ := Option.ne_none_iff_exists'.mp hsome
    rw [literal_some] at hrest
    apply hafter
    rw [hrest]
    exact List.mem_append_left rest hword
  unfold headerType
  rw [hliteral]
  rfl

def quotingNote : RaftMessage :=
  { target := "dm:@ann", messageId := "m1", timestamp := "10:00 today", senderType := "human"
    senderHandle := "ann", content := "see [task #1 status=todo]\nand [target=a msg=b: done" }

def assignedTask : RaftMessage :=
  { target := "#dev", messageId := "m2", timestamp := "", senderType := "agent"
    senderHandle := "bob", content := "fix: it", taskNumber := some 12
    taskStatus := some "in_progress", taskAssigneeType := some "human"
    taskAssigneeId := some "u-7" }

theorem quotingNote_rendered : quotingNote.Rendered asciiLibrary where
  header := ⟨⟨by decide, List.all_iff_forall_prop.mp (by decide)⟩,
    ⟨by decide, List.all_iff_forall_prop.mp (by decide)⟩, by decide,
    ⟨by decide, List.all_iff_forall_prop.mp (by decide)⟩⟩
  messageId := by decide
  senderHandle := ⟨by decide, List.all_iff_forall_prop.mp (by decide)⟩
  content := by decide
  content_head := by
    rintro c ⟨⟩
    decide
  content_last := by
    rintro c ⟨⟩
    decide
  continuation := by decide
  untagged := by decide
  task := rfl
  assigned := rfl
  assigned_task _ := rfl
  status := by rintro status ⟨⟩
  assigneeType := by rintro kind ⟨⟩
  assigneeId := by rintro id ⟨⟩

theorem assignedTask_rendered : assignedTask.Rendered asciiLibrary where
  header := ⟨⟨by decide, List.all_iff_forall_prop.mp (by decide)⟩,
    ⟨by decide, List.all_iff_forall_prop.mp (by decide)⟩, by decide,
    ⟨by decide, List.all_iff_forall_prop.mp (by decide)⟩⟩
  messageId := by decide
  senderHandle := ⟨by decide, List.all_iff_forall_prop.mp (by decide)⟩
  content := by decide
  content_head := by
    rintro c ⟨⟩
    decide
  content_last := by
    rintro c ⟨⟩
    decide
  continuation := by decide
  untagged := by rintro ⟨⟩
  task := rfl
  assigned := rfl
  assigned_task := by rintro ⟨⟩
  status := by
    rintro status ⟨⟩
    exact ⟨by decide, List.all_iff_forall_prop.mp (by decide)⟩
  assigneeType := by
    rintro kind ⟨⟩
    exact ⟨by decide, List.all_iff_forall_prop.mp (by decide)⟩
  assigneeId := by
    rintro id ⟨⟩
    exact ⟨by decide, List.all_iff_forall_prop.mp (by decide)⟩

-- Messages with and without a tag.
theorem parse_inboxText_pair :
    parseRaftMessages asciiLibrary
        (String.ofList (inboxText [quotingNote, assignedTask] "\nNo more new messages.")) =
      .ok [quotingNote, assignedTask] := by
  have hnote : quotingNote.Unambiguous := by
    constructor
    · exact firstPlace_of_notMem (by decide)
    · exact fun htask => absurd rfl htask
    · exact fun number hnumber => by cases hnumber
  have htask : assignedTask.Unambiguous := by
    constructor
    · exact firstPlace_of_notMem (by decide)
    · exact fun _ line hline => by cases hline
    · intro number hnumber
      cases hnumber
      decide
  refine parse_inboxText (by simp) (fun m hm => ?_) List.mem_cons_self
  cases List.mem_cons.mp hm with
  | inl hfirst =>
    rw [hfirst]
    exact ⟨quotingNote_rendered, hnote⟩
  | inr hrest =>
    rw [List.mem_singleton.mp hrest]
    exact ⟨assignedTask_rendered, htask⟩

def quotedHeader : RaftMessage :=
  { target := "#dev", messageId := "m1", timestamp := "now", senderType := "human"
    senderHandle := "ann", content := "see\n[target=a msg=b time=c type=d]"
    taskNumber := some 1, taskStatus := some "todo" }

theorem quotedHeader_rendered : quotedHeader.Rendered asciiLibrary where
  header := ⟨⟨by decide, List.all_iff_forall_prop.mp (by decide)⟩,
    ⟨by decide, List.all_iff_forall_prop.mp (by decide)⟩, by decide,
    ⟨by decide, List.all_iff_forall_prop.mp (by decide)⟩⟩
  messageId := by decide
  senderHandle := ⟨by decide, List.all_iff_forall_prop.mp (by decide)⟩
  content := by decide
  content_head := by
    rintro c ⟨⟩
    decide
  content_last := by
    rintro c ⟨⟩
    decide
  continuation := by decide
  untagged := by rintro ⟨⟩
  task := rfl
  assigned := rfl
  assigned_task := by rintro ⟨⟩
  status := by
    rintro status ⟨⟩
    exact ⟨by decide, List.all_iff_forall_prop.mp (by decide)⟩
  assigneeType := by rintro kind ⟨⟩
  assigneeId := by rintro id ⟨⟩

-- The space before the tag completes the header, and the tag is no message of its own.
theorem header_before_tag :
    ¬ ∀ (lib : Library) (messages : List RaftMessage) (suffix : String), messages ≠ [] →
      (∀ m ∈ messages, m.Rendered lib ∧ FirstPlace m.timestamp) → suffix ∈ drainSuffixes →
      parseRaftMessages lib (String.ofList (inboxText messages suffix)) = .ok messages := by
  intro hall
  have hsuffix : "\nNo more new messages." ∈ drainSuffixes := List.mem_cons_self
  have hrendered : ∀ m ∈ [quotedHeader], m.Rendered asciiLibrary ∧ FirstPlace m.timestamp := by
    intro m hm
    rw [List.mem_singleton] at hm
    subst hm
    exact ⟨quotedHeader_rendered, firstPlace_of_notMem (by decide)⟩
  have hparsed := hall asciiLibrary [quotedHeader] _ (by simp) hrendered hsuffix
  have htext := normalized_inboxText (by simp) (fun m hm => (hrendered m hm).1) hsuffix
  have hbodies : ((envelopes (lines (joinLines ([quotedHeader].map RaftMessage.text)))).mapM
      fun (h, body) => parseEnvelope asciiLibrary h body).toOption = none := by decide
  unfold parseRaftMessages at hparsed
  rw [htext, if_neg (not_nothing (messages_head (by simp))), if_neg (by decide)] at hparsed
  rw [hparsed] at hbodies
  cases hbodies

end Raft
end BaseAgent
