import BaseAgent.Models.JsonText
import BaseAgent.Text.Writing
import Mathlib.Data.List.Nodup
import Mathlib.Data.List.TakeWhile

/-!
# Reading JSON values back

`JsonValue.loads` is `json.loads`.  The value of a text with a fraction or an exponent is a
parameter, as is the text of a `float`.  A value that `compact` writes is read back as it was,
with its identifiers and points in time as texts (`loads_compact`).
-/

namespace BaseAgent

open Text

/-- What `parse_int` and `parse_float` make of a number. -/
inductive JsonNumber where
  | int (value : Int)
  | float (value : ℚ)
  /-- A `float` that is too large to be finite. -/
  | infinite
  deriving DecidableEq, Repr

/-- `float(literal)`, and `none` where it is infinite. -/
abbrev FloatReading := List Char → Option ℚ

/-- `sys.get_int_max_str_digits()`. -/
def maxStrDigits : Nat := 4300

/-- The integers that have a text and can be read. -/
def Writable (value : Int) : Prop := (Nat.toDigits 10 value.natAbs).length ≤ maxStrDigits

instance (value : Int) : Decidable (Writable value) :=
  inferInstanceAs (Decidable ((Nat.toDigits 10 value.natAbs).length ≤ maxStrDigits))

def unsigned (literal : List Char) : List Char :=
  if literal.head? = some '-' then literal.tail else literal

/-- `parse_int` raises a `ValueError` for an integer of too many digits. -/
def readNumber (float : FloatReading) (literal : List Char) : Option JsonNumber :=
  let digits := unsigned literal
  if digits.all Char.isDigit then
    if digits.length ≤ maxStrDigits then
      some (.int (if literal.head? = some '-' then -(Nat.ofDigitChars 10 digits 0 : Int)
        else Nat.ofDigitChars 10 digits 0))
    else none
  else some ((float literal).elim .infinite .float)

/-- The string of code points, unless one of them is half of a surrogate pair. -/
def stringOf (points : List Nat) : Option String :=
  if points.all (fun point => point < 0xD800 || (0xE000 ≤ point && point < 0x110000)) then
    some (String.ofList (points.map Char.ofNat))
  else none

namespace JsonValue

mutual

/-- The value of a document.  `NaN`, the infinities and strings with half of a surrogate pair
have no value here. -/
def ofJson : Json JsonNumber → Option JsonValue
  | .word .null => some .null
  | .word .true => some (.bool true)
  | .word .false => some (.bool false)
  | .word _ => none
  | .number (.int value) => some (.int value)
  | .number (.float value) => some (.float value)
  | .number .infinite => none
  | .string points => (stringOf points).map .str
  | .array items => (ofItems items).map .list
  | .object fields => (ofFields fields).map .obj

def ofItems : List (Json JsonNumber) → Option (List JsonValue)
  | [] => some []
  | item :: rest => (ofJson item).bind fun value => (ofItems rest).map (value :: ·)

def ofFields : List (List Nat × Json JsonNumber) → Option (List (String × JsonValue))
  | [] => some []
  | (key, item) :: rest => (stringOf key).bind fun name => (ofJson item).bind fun value =>
    (ofFields rest).map ((name, value) :: ·)

end

inductive LoadsFault where
  /-- `JSONDecodeError`. -/
  | decode
  /-- `ValueError`, for an integer of too many digits. -/
  | digits
  /-- The text has a value that is no `JsonValue`. -/
  | foreign
  deriving DecidableEq, Repr

def loads (float : FloatReading) (text : List Char) : Except LoadsFault JsonValue :=
  match Json.loads (readNumber float) text with
  | .ok document => orRaise (ofJson document) .foreign
  | .error .decode => .error .decode
  | .error .number => .error .digits

/-! ## The document of a value -/

def points (text : String) : List Nat := text.toList.map Char.toNat

section Document

variable (p : Printing)

mutual

def toJson : JsonValue → Json JsonNumber
  | null => .word .null
  | bool true => .word .true
  | bool false => .word .false
  | int value => .number (.int value)
  | float value => .number (.float value)
  | str value => .string (points value)
  | uuid value => .string (points (uuidText value))
  | time value => .string (points (p.time value))
  | list items => .array (toItems items)
  | obj fields => .object (toFields fields)

def toItems : List JsonValue → List (Json JsonNumber)
  | [] => []
  | item :: rest => toJson item :: toItems rest

def toFields : List (String × JsonValue) → List (List Nat × Json JsonNumber)
  | [] => []
  | (key, value) :: rest => (points key, toJson value) :: toFields rest

end

mutual

/-- The value that is read back: identifiers and points in time have become texts. -/
def texts : JsonValue → JsonValue
  | null => null
  | bool value => bool value
  | int value => int value
  | float value => float value
  | str value => str value
  | uuid value => str (uuidText value)
  | time value => str (p.time value)
  | list items => list (textItems items)
  | obj fields => obj (textFields fields)

def textItems : List JsonValue → List JsonValue
  | [] => []
  | item :: rest => texts item :: textItems rest

def textFields : List (String × JsonValue) → List (String × JsonValue)
  | [] => []
  | (key, value) :: rest => (key, texts value) :: textFields rest

end

end Document

/-- Induction over a value and the values in its lists and dictionaries. -/
theorem induct {motive : JsonValue → Prop} (null : motive null) (bool : ∀ b, motive (bool b))
    (int : ∀ i, motive (int i)) (float : ∀ x, motive (float x)) (str : ∀ s, motive (str s))
    (uuid : ∀ u, motive (uuid u)) (time : ∀ t, motive (time t))
    (list : ∀ items, (∀ item ∈ items, motive item) → motive (list items))
    (obj : ∀ fields, (∀ field ∈ fields, motive field.2) → motive (obj fields))
    (value : JsonValue) : motive value :=
  @JsonValue.rec motive (fun items => ∀ item ∈ items, motive item)
    (fun fields => ∀ field ∈ fields, motive field.2) (fun field => motive field.2)
    null bool int float str uuid time list obj
    (fun _ hmem => absurd hmem List.not_mem_nil)
    (fun _ _ hitem hrest => List.forall_mem_cons.mpr ⟨hitem, hrest⟩)
    (fun _ hmem => absurd hmem List.not_mem_nil)
    (fun _ _ hfield hrest => List.forall_mem_cons.mpr ⟨hfield, hrest⟩)
    (fun _ _ hvalue => hvalue) value

theorem toItems_eq (p : Printing) (items : List JsonValue) :
    toItems p items = items.map (toJson p) := by
  induction items with
  | nil => rfl
  | cons item rest ih => rw [toItems, ih, List.map_cons]

theorem toFields_eq (p : Printing) (fields : List (String × JsonValue)) :
    toFields p fields = fields.map fun field => (points field.1, toJson p field.2) := by
  induction fields with
  | nil => rfl
  | cons field rest ih =>
    obtain ⟨key, value⟩ := field
    rw [toFields, ih, List.map_cons]

end JsonValue

/-! ## Integers -/

theorem toDigits_cons (n : Nat) :
    ∃ d rest, Nat.toDigits 10 n = d :: rest ∧ (d = '0' → rest = []) := by
  induction n using Nat.strong_induction_on with
  | _ n ih =>
    rw [Nat.toDigits_eq_if (by omega)]
    by_cases hsmall : n < 10
    · rw [if_pos hsmall]
      exact ⟨_, [], rfl, fun _ => rfl⟩
    · rw [if_neg hsmall]
      obtain ⟨d, rest, hdigits, hzero⟩ := ih (n / 10) (by omega)
      refine ⟨d, rest ++ [Nat.digitChar (n % 10)], by rw [hdigits, List.cons_append], ?_⟩
      intro hd
      -- the quotient would be zero
      have hvalue : Nat.ofDigitChars 10 (Nat.toDigits 10 (n / 10)) 0 = n / 10 :=
        Nat.ofDigitChars_ten_toDigits
      rw [hdigits, hzero hd, hd] at hvalue
      have hnone : Nat.ofDigitChars 10 ['0'] 0 = 0 := by decide
      omega

theorem digits_isDigit (n : Nat) : ∀ c ∈ Nat.toDigits 10 n, c.isDigit = true :=
  fun _ hc => Nat.isDigit_of_mem_toDigits (by omega) (by omega) hc

section Numerals

variable {d : Char} {rest : List Char}

theorem numberLength_unsigned (hdigits : ∀ c ∈ d :: rest, c.isDigit = true)
    (hzero : d = '0' → rest = []) : numberLength (d :: rest) = rest.length + 1 := by
  have hd : d ≠ '-' := by
    rintro rfl
    exact absurd (hdigits _ List.mem_cons_self) (by decide)
  have hwhole : (if d = '0' then 1 else ((d :: rest).takeWhile Char.isDigit).length) =
      rest.length + 1 := by
    by_cases h : d = '0'
    · rw [if_pos h, hzero h]
      rfl
    · rw [if_neg h, List.takeWhile_eq_self_iff.mpr hdigits, List.length_cons]
  simp [numberLength, hd, hwhole]

theorem numberLength_signed (hdigits : ∀ c ∈ d :: rest, c.isDigit = true)
    (hzero : d = '0' → rest = []) : numberLength ('-' :: d :: rest) = rest.length + 2 := by
  have hwhole : (if d = '0' then 1 else ((d :: rest).takeWhile Char.isDigit).length) =
      rest.length + 1 := by
    by_cases h : d = '0'
    · rw [if_pos h, hzero h]
      rfl
    · rw [if_neg h, List.takeWhile_eq_self_iff.mpr hdigits, List.length_cons]
  have hsum : 1 + (if d = '0' then 1 else ((d :: rest).takeWhile Char.isDigit).length) =
      rest.length + 2 := by omega
  simp [numberLength, hsum]

end Numerals

/-- A run of solid characters that begins with a digit, with or without a minus in front, is a
number as far as the grammar goes. -/
theorem atomAt_numeral {sign rest : List Char} {d : Char} (hsign : sign = [] ∨ sign = ['-'])
    (hd : d.isDigit = true) (hlength : numberLength (sign ++ d :: rest) =
      (sign ++ d :: rest).length) :
    atomAt (sign ++ d :: rest) =
      some (.number (sign ++ d :: rest), (sign ++ d :: rest).length) := by
  have hne : ∀ c, c.isDigit = false → (c == d) = false := by
    intro c hc
    rw [beq_eq_false_iff_ne]
    rintro rfl
    rw [hc] at hd
    cases hd
  have hword : Word.all.find? (fun word => word.text.isPrefixOf (sign ++ d :: rest)) = none := by
    cases hsign with
    | inl hnone =>
      simp [hnone, Word.all, Word.text, List.isPrefixOf, hne 'n' rfl, hne 't' rfl, hne 'f' rfl,
        hne 'N' rfl, hne 'I' rfl, hne '-' rfl]
    | inr hminus => simp [hminus, Word.all, Word.text, List.isPrefixOf, hne 'I' rfl]
  unfold atomAt
  rw [hword]
  simp only [hlength, List.take_length]
  rw [if_neg (by cases hsign with
    | inl hnone => simp [hnone]
    | inr hminus => simp [hminus])]

/-! ## The compact style -/

namespace Printing

variable (p : Printing)

/-- `json.dumps(value, ensure_ascii=False, separators=(",", ":"))` of a document. -/
def style : Json.Style JsonNumber where
  number
    | .int value => (toString value).toList
    | .float value => (p.float value).toList
    | .infinite => Word.infinity.text
  escape point := escapeChar (Char.ofNat point)
  comma := [',']
  colon := [':']

theorem style_marked : p.style.Marked :=
  ⟨⟨[], rfl, fun _ hc => absurd hc List.not_mem_nil⟩,
    ⟨[], rfl, fun _ hc => absurd hc List.not_mem_nil⟩⟩

theorem counts_natural {float : FloatReading} {n : Nat}
    (h : (Nat.toDigits 10 n).length ≤ maxStrDigits) :
    p.style.Counts (readNumber float) (.int n) := by
  have htext : p.style.number (.int n) = Nat.toDigits 10 n := Nat.toList_repr
  obtain ⟨d, rest, hdigits, hzero⟩ := toDigits_cons n
  have hall := digits_isDigit n
  have hlength : (d :: rest).length ≤ maxStrDigits := by
    rw [← hdigits]
    exact h
  have hvalue : Nat.ofDigitChars 10 (d :: rest) 0 = n := by
    rw [← hdigits]
    exact Nat.ofDigitChars_ten_toDigits
  rw [hdigits] at hall
  have hminus : ¬ (d :: rest).head? = some '-' := by
    rw [List.head?_cons, Option.some.injEq]
    rintro rfl
    exact absurd (hall _ List.mem_cons_self) (by decide)
  unfold Json.Style.Counts
  rw [htext, hdigits]
  refine ⟨fun c hc => ?_, ?_, ?_⟩
  · simp [isSolid, Char.isAlphanum, hall c hc]
  · exact atomAt_numeral (.inl rfl) (hall d List.mem_cons_self) (numberLength_unsigned hall hzero)
  · have hunsigned : unsigned (d :: rest) = d :: rest := if_neg hminus
    simp only [readNumber, hunsigned, List.all_eq_true.mpr hall, if_true, hlength, hminus, if_false,
      hvalue]

theorem counts_negative {float : FloatReading} {n : Nat}
    (h : (Nat.toDigits 10 (n + 1)).length ≤ maxStrDigits) :
    p.style.Counts (readNumber float) (.int (Int.negSucc n)) := by
  have htext : p.style.number (.int (Int.negSucc n)) = '-' :: Nat.toDigits 10 (n + 1) := by
    show ("-" ++ Nat.repr (n + 1)).toList = _
    rw [String.toList_append, Nat.toList_repr]
    rfl
  obtain ⟨d, rest, hdigits, hzero⟩ := toDigits_cons (n + 1)
  have hall := digits_isDigit (n + 1)
  have hlength : (d :: rest).length ≤ maxStrDigits := by
    rw [← hdigits]
    exact h
  have hvalue : Nat.ofDigitChars 10 (d :: rest) 0 = n + 1 := by
    rw [← hdigits]
    exact Nat.ofDigitChars_ten_toDigits
  rw [hdigits] at hall
  unfold Json.Style.Counts
  rw [htext, hdigits]
  refine ⟨fun c hc => ?_, ?_, ?_⟩
  · cases List.mem_cons.mp hc with
    | inl hminus =>
      rw [hminus]
      rfl
    | inr hdigit => simp [isSolid, Char.isAlphanum, hall c hdigit]
  · exact atomAt_numeral (.inr rfl) (hall d List.mem_cons_self) (numberLength_signed hall hzero)
  · have hunsigned : unsigned ('-' :: d :: rest) = d :: rest := if_pos rfl
    simp only [readNumber, hunsigned, List.all_eq_true.mpr hall, if_true, hlength, List.head?_cons,
      hvalue]
    rfl

theorem counts_int {float : FloatReading} {value : Int} (h : Writable value) :
    p.style.Counts (readNumber float) (.int value) := by
  cases value with
  | ofNat n => exact p.counts_natural h
  | negSucc n => exact p.counts_negative h

/-- The text of a `float` that was read is read as that `float`. -/
def Repeats (float : FloatReading) : Prop :=
  ∀ literal x, float literal = some x → p.style.Counts (readNumber float) (.float x)

/-! ## Strings -/

theorem hexValue_digitChar {n : Nat} (h : n < 16) : hexValue (Nat.digitChar n) = some n := by
  have hall : ∀ n : Fin 16, hexValue (Nat.digitChar n) = some n.val := by decide
  exact hall ⟨n, h⟩

theorem stringFrom_go {mode next : Mode} {c : Char} {points : List Nat}
    (h : move mode c = some (.go next points)) (rest : List Char) :
    stringFrom mode (c :: rest) =
      (stringFrom next rest).map fun found => (points ++ found.1, found.2 + 1) := by
  rw [stringFrom_cons, h]

/-- A reader is led through what a string shows of a character. -/
theorem stringFrom_escapeChar (c : Char) (rest : List Char) :
    stringFrom .plain (escapeChar c ++ rest) = (stringFrom .plain rest).map fun found =>
      (c.toNat :: found.1, found.2 + (escapeChar c).length) := by
  -- a backslash and one character, of which the reader makes a code point
  have hshort : ∀ escaped : Char, ∀ point : Nat, escaped ≠ 'u' → unescape escaped = some point →
      stringFrom .plain ('\\' :: escaped :: rest) = (stringFrom .plain rest).map fun found =>
        (point :: found.1, found.2 + 2) := by
    intro escaped point hu hpoint
    have hmove : move .escape escaped = some (.go .plain [point]) := by
      rw [move, if_neg hu, hpoint]
      rfl
    rw [stringFrom_go rfl, stringFrom_go hmove, Option.map_map]
    rfl
  unfold escapeChar
  by_cases hquote : c = '"'
  · rw [if_pos hquote, hquote]
    exact hshort '"' 34 (by decide) rfl
  rw [if_neg hquote]
  by_cases hslash : c = '\\'
  · rw [if_pos hslash, hslash]
    exact hshort '\\' 92 (by decide) rfl
  rw [if_neg hslash]
  by_cases hfeed : c = '\n'
  · rw [if_pos hfeed, hfeed]
    exact hshort 'n' 10 (by decide) rfl
  rw [if_neg hfeed]
  by_cases hreturn : c = '\r'
  · rw [if_pos hreturn, hreturn]
    exact hshort 'r' 13 (by decide) rfl
  rw [if_neg hreturn]
  by_cases htab : c = '\t'
  · rw [if_pos htab, htab]
    exact hshort 't' 9 (by decide) rfl
  rw [if_neg htab]
  by_cases hback : c.toNat = 8
  · rw [if_pos hback, hback]
    exact hshort 'b' 8 (by decide) rfl
  rw [if_neg hback]
  by_cases hform : c.toNat = 12
  · rw [if_pos hform, hform]
    exact hshort 'f' 12 (by decide) rfl
  rw [if_neg hform]
  by_cases hcontrol : c.toNat < 32
  · rw [if_pos hcontrol]
    have hfirst := hexValue_digitChar (n := c.toNat / 16) (by omega)
    have hsecond := hexValue_digitChar (n := c.toNat % 16) (by omega)
    have hopen : move (.hex 0 0) '0' = some (.go (.hex 1 0) []) := rfl
    have hzero : move (.hex 1 0) '0' = some (.go (.hex 2 0) []) := rfl
    have hmoveFirst : move (.hex 2 0) (Nat.digitChar (c.toNat / 16)) =
        some (.go (.hex 3 (c.toNat / 16)) []) := by
      rw [move, hfirst]
      simp
    have hmoveSecond : move (.hex 3 (c.toNat / 16)) (Nat.digitChar (c.toNat % 16)) =
        some (.go .plain [c.toNat]) := by
      have hpoint : 16 * (c.toNat / 16) + c.toNat % 16 = c.toNat := by omega
      rw [move, hsecond]
      simp [hpoint]
    show stringFrom .plain ('\\' :: 'u' :: '0' :: '0' :: _ :: _ :: rest) = _
    rw [stringFrom_go rfl, stringFrom_go rfl, stringFrom_go hopen, stringFrom_go hzero,
      stringFrom_go hmoveFirst, stringFrom_go hmoveSecond]
    simp only [Option.map_map]
    rfl
  · rw [if_neg hcontrol]
    have hmove : move .plain c = some (.go .plain [c.toNat]) := by
      rw [move, if_neg hquote, if_neg hslash, if_neg hcontrol]
    rw [List.singleton_append, stringFrom_cons, hmove]
    rfl

end Printing

section Strings

theorem scalar_toNat (c : Char) : Scalar c.toNat := by
  have hvalid := c.valid
  simp only [UInt32.isValidChar, Nat.isValidChar] at hvalid
  show c.val.toNat < 0xD800 ∨ (0xE000 ≤ c.val.toNat ∧ c.val.toNat < 0x110000)
  omega

theorem Printing.spells (p : Printing) (text : String) : p.style.Spells (JsonValue.points text) := by
  intro point hpoint
  obtain ⟨c, -, rfl⟩ := List.mem_map.mp hpoint
  refine ⟨scalar_toNat c, .inl ?_⟩
  intro rest
  have hescape : p.style.escape c.toNat = escapeChar c := congrArg escapeChar (Char.ofNat_toNat c)
  rw [hescape]
  exact Printing.stringFrom_escapeChar c rest

theorem stringOf_points (text : String) : stringOf (JsonValue.points text) = some text := by
  have hall : (JsonValue.points text).all (fun point =>
      point < 0xD800 || (0xE000 ≤ point && point < 0x110000)) = true := by
    rw [List.all_eq_true]
    intro point hpoint
    obtain ⟨c, -, rfl⟩ := List.mem_map.mp hpoint
    have hscalar := scalar_toNat c
    unfold Scalar at hscalar
    simpa using hscalar
  have hchars : (JsonValue.points text).map Char.ofNat = text.toList := by
    simp [JsonValue.points, Function.comp_def]
  rw [stringOf, if_pos hall, hchars, String.ofList_toList]

theorem points_injective : Function.Injective JsonValue.points := by
  intro a b h
  have hread := stringOf_points a
  rw [h, stringOf_points] at hread
  exact (Option.some.inj hread).symm

end Strings

/-! ## Reading back -/

namespace JsonValue

variable {p : Printing} {float : FloatReading}

/-- The values that `compact` writes so that they can be read back: dictionaries have each of
their keys once, integers have a text, and the text of a `float` is read as that `float`. -/
inductive Readable (p : Printing) (float : FloatReading) : JsonValue → Prop where
  | null : Readable p float null
  | bool (b : Bool) : Readable p float (bool b)
  | int {i : Int} (h : Writable i) : Readable p float (int i)
  | float {x : ℚ} (h : p.style.Counts (readNumber float) (.float x)) : Readable p float (.float x)
  | str (s : String) : Readable p float (str s)
  | uuid (u : UUID) : Readable p float (uuid u)
  | time (t : Time) : Readable p float (time t)
  | list {items : List JsonValue} (h : ∀ item ∈ items, Readable p float item) :
    Readable p float (list items)
  | obj {fields : List (String × JsonValue)} (hkeys : (fields.map (·.1)).Nodup)
    (h : ∀ field ∈ fields, Readable p float field.2) : Readable p float (obj fields)

theorem compact_eq (value : JsonValue) : compact p value = Json.write p.style (toJson p value) := by
  have hquote : ∀ text, quoteText text = Json.writeString p.style (points text) := by
    intro text
    have hmap : ∀ chars : List Char, chars.flatMap escapeChar =
        (chars.map Char.toNat).flatMap fun point => escapeChar (Char.ofNat point) := by
      intro chars
      simp [List.flatMap_map]
    rw [quoteText, hmap]
    rfl
  induction value using induct with
  | null => rfl
  | bool b => cases b <;> rfl
  | int i => rfl
  | float x => rfl
  | str s => exact hquote s
  | uuid u => exact hquote (uuidText u)
  | time t => exact hquote (p.time t)
  | list items ih =>
    have hitems : compactItems p items = Json.writeItems p.style (toItems p items) := by
      induction items with
      | nil => rfl
      | cons item rest ihrest =>
        rw [List.forall_mem_cons] at ih
        cases rest with
        | nil => exact ih.1
        | cons next more =>
          have hrest := ihrest ih.2
          rw [compactItems, ih.1, hrest]
          rfl
    rw [compact, hitems]
    rfl
  | obj fields ih =>
    have hfields : compactFields p fields = Json.writeFields p.style (toFields p fields) := by
      induction fields with
      | nil => rfl
      | cons field rest ihrest =>
        obtain ⟨key, value⟩ := field
        rw [List.forall_mem_cons] at ih
        cases rest with
        | nil =>
          rw [compactFields, hquote, ih.1]
          rfl
        | cons next more =>
          obtain ⟨other, following⟩ := next
          have hrest := ihrest ih.2
          rw [compactFields, hquote, ih.1, hrest]
          rfl
    rw [compact, hfields]
    rfl

theorem legible {value : JsonValue} (h : Readable p float value) :
    Json.Legible p.style (readNumber float) (toJson p value) := by
  induction h with
  | null => exact .word _
  | bool b => cases b <;> exact .word _
  | int hsmall => exact .number (p.counts_int hsmall)
  | float hcounts => exact .number hcounts
  | str s => exact .string (p.spells s)
  | uuid u => exact .string (p.spells _)
  | time t => exact .string (p.spells _)
  | @list items _ ih =>
    rw [toJson, toItems_eq]
    refine .array fun item hitem => ?_
    obtain ⟨value, hvalue, rfl⟩ := List.mem_map.mp hitem
    exact ih value hvalue
  | @obj fields hkeys _ ih =>
    rw [toJson, toFields_eq]
    refine .object ?_ (fun field hfield => ?_) fun field hfield => ?_
    · rw [List.map_map]
      have hmap : (fields.map (·.1)).map points = fields.map
          ((·.1) ∘ fun field => (points field.1, toJson p field.2)) := by
        rw [List.map_map]
        rfl
      rw [← hmap]
      exact List.Nodup.map points_injective hkeys
    · obtain ⟨old, -, rfl⟩ := List.mem_map.mp hfield
      exact p.spells _
    · obtain ⟨old, hold, rfl⟩ := List.mem_map.mp hfield
      exact ih old hold

theorem ofJson_toJson (value : JsonValue) : ofJson (toJson p value) = some (texts p value) := by
  have hstr : ∀ text, ofJson (.string (points text)) = some (str text) := by
    intro text
    rw [ofJson, stringOf_points]
    rfl
  induction value using induct with
  | null => rfl
  | bool b => cases b <;> rfl
  | int i => rfl
  | float x => rfl
  | str s => exact hstr s
  | uuid u => exact hstr _
  | time t => exact hstr _
  | list items ih =>
    have hitems : ofItems (toItems p items) = some (textItems p items) := by
      induction items with
      | nil => rfl
      | cons item rest ihrest =>
        rw [List.forall_mem_cons] at ih
        rw [toItems, ofItems, ih.1, Option.bind_some, ihrest ih.2]
        rfl
    rw [toJson, ofJson, hitems]
    rfl
  | obj fields ih =>
    have hfields : ofFields (toFields p fields) = some (textFields p fields) := by
      induction fields with
      | nil => rfl
      | cons field rest ihrest =>
        obtain ⟨key, value⟩ := field
        rw [List.forall_mem_cons] at ih
        rw [toFields, ofFields, stringOf_points, Option.bind_some, ih.1, Option.bind_some,
          ihrest ih.2]
        rfl
    rw [toJson, ofJson, hfields]
    rfl

/-! ## Values without identifiers and points in time -/

/-- What `json.dumps` raises without `default`. -/
inductive DumpsFault where
  /-- `TypeError`. -/
  | type
  /-- `ValueError`, for an integer of too many digits. -/
  | digits
  deriving DecidableEq, Repr

mutual

def dumpsFault : JsonValue → Option DumpsFault
  | .null | .bool _ | .float _ | .str _ => none
  | .int value => if Writable value then none else some .digits
  | .uuid _ | .time _ => some .type
  | .list items => itemsFault items
  | .obj fields => fieldsFault fields

def itemsFault : List JsonValue → Option DumpsFault
  | [] => none
  | item :: rest => (dumpsFault item).or (itemsFault rest)

def fieldsFault : List (String × JsonValue) → Option DumpsFault
  | [] => none
  | (_, value) :: rest => (dumpsFault value).or (fieldsFault rest)

end

/-- `json.dumps(value, ensure_ascii=False, separators=(",", ":"))`. -/
def dumps (p : Printing) (value : JsonValue) : Except DumpsFault (List Char) :=
  match dumpsFault value with
  | none => .ok (compact p value)
  | some fault => .error fault

theorem itemsFault_none {items : List JsonValue} :
    itemsFault items = none ↔ ∀ item ∈ items, dumpsFault item = none := by
  induction items with
  | nil => simp [itemsFault]
  | cons item rest ih => rw [itemsFault, Option.or_eq_none_iff, ih, List.forall_mem_cons]

theorem fieldsFault_none {fields : List (String × JsonValue)} :
    fieldsFault fields = none ↔ ∀ field ∈ fields, dumpsFault field.2 = none := by
  induction fields with
  | nil => simp [fieldsFault]
  | cons field rest ih =>
    obtain ⟨key, value⟩ := field
    rw [fieldsFault, Option.or_eq_none_iff, ih, List.forall_mem_cons]

theorem textItems_eq (items : List JsonValue) : textItems p items = items.map (texts p) := by
  induction items with
  | nil => rfl
  | cons item rest ih => rw [textItems, ih, List.map_cons]

theorem textFields_eq (fields : List (String × JsonValue)) :
    textFields p fields = fields.map fun field => (field.1, texts p field.2) := by
  induction fields with
  | nil => rfl
  | cons field rest ih =>
    obtain ⟨key, value⟩ := field
    rw [textFields, ih, List.map_cons]

theorem texts_of_dumps {value : JsonValue} (h : dumpsFault value = none) :
    texts p value = value := by
  induction value using induct with
  | null => rfl
  | bool b => rfl
  | int i => rfl
  | float x => rfl
  | str s => rfl
  | uuid u => cases h
  | time t => cases h
  | list items ih =>
    rw [dumpsFault, itemsFault_none] at h
    rw [texts, textItems_eq]
    have hsame : items.map (texts p) = items := by
      refine (List.map_congr_left fun item hitem => ?_).trans (List.map_id' items)
      exact ih item hitem (h item hitem)
    rw [hsame]
  | obj fields ih =>
    rw [dumpsFault, fieldsFault_none] at h
    have hsame : (fields.map fun field => (field.1, texts p field.2)) = fields := by
      refine (List.map_congr_left fun field hfield => ?_).trans (List.map_id' fields)
      rw [ih field hfield (h field hfield)]
    rw [texts, textFields_eq, hsame]

/-- What is written is read back, with its identifiers and points in time as texts. -/
theorem loads_compact {value : JsonValue} (h : Readable p float value) :
    loads float (compact p value) = .ok (texts p value) := by
  rw [loads, compact_eq, Json.loads_write p.style_marked (legible h)]
  show orRaise (ofJson (toJson p value)) _ = _
  rw [ofJson_toJson]
  rfl

/-! ## Values that have been read -/

theorem ofDigitChars_lt {digits : List Char} (h : digits.all Char.isDigit = true) :
    Nat.ofDigitChars 10 digits 0 < 10 ^ digits.length := by
  induction digits with
  | nil => decide
  | cons d rest ih =>
    rw [List.all_cons, Bool.and_eq_true] at h
    have hd : d.toNat - '0'.toNat ≤ 9 := by
      have hrange := h.1
      simp only [Char.isDigit, ge_iff_le, Bool.and_eq_true, decide_eq_true_eq,
        UInt32.le_iff_toNat_le] at hrange
      have hhigh : d.toNat ≤ 57 := hrange.2
      have hzero : '0'.toNat = 48 := rfl
      omega
    have hrest := ih h.2
    rw [Nat.ofDigitChars_cons, Nat.ofDigitChars_eq_ofDigitChars_zero, List.length_cons,
      Nat.pow_succ, Nat.mul_zero, Nat.zero_add]
    have hfirst : 10 ^ rest.length * (d.toNat - '0'.toNat) ≤ 10 ^ rest.length * 9 :=
      Nat.mul_le_mul_left _ hd
    omega

theorem readNumber_int {literal : List Char} {value : Int}
    (h : readNumber float literal = some (.int value)) : Writable value := by
  unfold readNumber at h
  simp only at h
  split at h
  · rename_i hall
    split at h
    · rename_i hlength
      have hsmall := ofDigitChars_lt hall
      have hpower : (10 : Nat) ^ (unsigned literal).length ≤ 10 ^ maxStrDigits :=
        Nat.pow_le_pow_right (by omega) hlength
      have habs : value.natAbs = Nat.ofDigitChars 10 (unsigned literal) 0 := by
        rw [← JsonNumber.int.inj (Option.some.inj h)]
        split <;> simp
      show (Nat.toDigits 10 value.natAbs).length ≤ maxStrDigits
      rw [Nat.length_toDigits_le_iff (by omega) (by decide), habs]
      exact lt_of_lt_of_le hsmall hpower
    · cases h
  · have hfloat := Option.some.inj h
    cases hread : float literal with
    | none =>
      rw [hread] at hfloat
      cases hfloat
    | some y =>
      rw [hread] at hfloat
      cases hfloat

theorem readNumber_float {literal : List Char} {x : ℚ}
    (h : readNumber float literal = some (.float x)) : float literal = some x := by
  unfold readNumber at h
  simp only at h
  split at h
  · split at h <;> cases h
  · have hfloat := Option.some.inj h
    cases hread : float literal with
    | none =>
      rw [hread] at hfloat
      cases hfloat
    | some y =>
      rw [hread] at hfloat
      rw [JsonNumber.float.inj hfloat]

theorem stringOf_injective {a b : List Nat} {text : String} (ha : stringOf a = some text)
    (hb : stringOf b = some text) : a = b := by
  have hpoints : ∀ points : List Nat, stringOf points = some text →
      points = JsonValue.points text := by
    intro points h
    unfold stringOf at h
    split at h
    · rename_i hall
      have htext := Option.some.inj h
      rw [← htext, JsonValue.points, String.toList_ofList, List.map_map]
      symm
      refine (List.map_congr_left fun point hpoint => ?_).trans (List.map_id' points)
      have hscalar := List.all_eq_true.mp hall point hpoint
      simp only [Bool.or_eq_true, Bool.and_eq_true, decide_eq_true_eq] at hscalar
      have hvalid : point.isValidChar := by
        unfold Nat.isValidChar
        omega
      show (Char.ofNat point).toNat = point
      rw [Char.ofNat, dif_pos hvalid]
      rfl
    · cases h
  rw [hpoints a ha, hpoints b hb]

theorem ofItems_mem {items : List (Json JsonNumber)} {values : List JsonValue}
    (h : ofItems items = some values) :
    ∀ value ∈ values, ∃ item ∈ items, ofJson item = some value := by
  induction items generalizing values with
  | nil =>
    cases h
    exact fun _ hmem => absurd hmem List.not_mem_nil
  | cons item rest ih =>
    obtain ⟨first, hfirst, hrest⟩ := Option.bind_eq_some_iff.mp h
    obtain ⟨others, hothers, rfl⟩ := Option.map_eq_some_iff.mp hrest
    refine List.forall_mem_cons.mpr ⟨⟨item, List.mem_cons_self, hfirst⟩, fun value hvalue => ?_⟩
    obtain ⟨found, hfound, hof⟩ := ih hothers value hvalue
    exact ⟨found, List.mem_cons_of_mem _ hfound, hof⟩

theorem ofFields_mem {items : List (List Nat × Json JsonNumber)}
    {fields : List (String × JsonValue)} (h : ofFields items = some fields) :
    ∀ field ∈ fields, ∃ item ∈ items, stringOf item.1 = some field.1 ∧
      ofJson item.2 = some field.2 := by
  induction items generalizing fields with
  | nil =>
    cases h
    exact fun _ hmem => absurd hmem List.not_mem_nil
  | cons item rest ih =>
    obtain ⟨key, document⟩ := item
    obtain ⟨name, hname, hbound⟩ := Option.bind_eq_some_iff.mp h
    obtain ⟨first, hfirst, hrest⟩ := Option.bind_eq_some_iff.mp hbound
    obtain ⟨others, hothers, rfl⟩ := Option.map_eq_some_iff.mp hrest
    refine List.forall_mem_cons.mpr
      ⟨⟨_, List.mem_cons_self, hname, hfirst⟩, fun field hfield => ?_⟩
    obtain ⟨found, hfound, hof⟩ := ih hothers field hfield
    exact ⟨found, List.mem_cons_of_mem _ hfound, hof⟩

/-- Different keys of a document are different keys of its dictionary. -/
theorem ofFields_nodup {items : List (List Nat × Json JsonNumber)}
    {fields : List (String × JsonValue)} (h : ofFields items = some fields)
    (hkeys : (items.map (·.1)).Nodup) : (fields.map (·.1)).Nodup := by
  induction items generalizing fields with
  | nil =>
    cases h
    exact List.nodup_nil
  | cons item rest ih =>
    obtain ⟨key, document⟩ := item
    obtain ⟨name, hname, hbound⟩ := Option.bind_eq_some_iff.mp h
    obtain ⟨first, hfirst, hrest⟩ := Option.bind_eq_some_iff.mp hbound
    obtain ⟨others, hothers, rfl⟩ := Option.map_eq_some_iff.mp hrest
    rw [List.map_cons, List.nodup_cons] at hkeys ⊢
    refine ⟨fun hmem => ?_, ih hothers hkeys.2⟩
    obtain ⟨field, hfield, hsame⟩ := List.mem_map.mp hmem
    obtain ⟨found, hfound, hother, -⟩ := ofFields_mem hothers field hfield
    have hkey : found.1 = key := by
      apply stringOf_injective hother
      rw [hname]
      exact congrArg some hsame.symm
    exact hkeys.1 (List.mem_map.mpr ⟨found, hfound, hkey⟩)

theorem ofJson_readable (hprint : p.Repeats float) {document : Json JsonNumber}
    (hread : Json.Read (readNumber float) document) {value : JsonValue}
    (h : ofJson document = some value) :
    Readable p float value ∧ dumpsFault value = none := by
  induction hread generalizing value with
  | word w => cases w <;> cases h <;> exact ⟨by constructor, rfl⟩
  | @number literal n hnumber =>
    cases n with
    | int i =>
      cases h
      have hwritable := readNumber_int hnumber
      exact ⟨.int hwritable, if_pos hwritable⟩
    | float x =>
      cases h
      exact ⟨.float (hprint literal x (readNumber_float hnumber)), rfl⟩
    | infinite => cases h
  | string points =>
    obtain ⟨text, -, rfl⟩ := Option.map_eq_some_iff.mp h
    exact ⟨.str text, rfl⟩
  | array _ ih =>
    obtain ⟨values, hvalues, rfl⟩ := Option.map_eq_some_iff.mp h
    have hall : ∀ v ∈ values, Readable p float v ∧ dumpsFault v = none := by
      intro v hv
      obtain ⟨item, hitem, hof⟩ := ofItems_mem hvalues v hv
      exact ih item hitem hof
    refine ⟨.list fun v hv => (hall v hv).1, ?_⟩
    rw [dumpsFault, itemsFault_none]
    exact fun v hv => (hall v hv).2
  | object hkeys _ ih =>
    obtain ⟨fields, hfields, rfl⟩ := Option.map_eq_some_iff.mp h
    have hall : ∀ field ∈ fields, Readable p float field.2 ∧ dumpsFault field.2 = none := by
      intro field hfield
      obtain ⟨item, hitem, -, hof⟩ := ofFields_mem hfields field hfield
      exact ih item hitem hof
    refine ⟨.obj (ofFields_nodup hfields hkeys) fun field hfield => (hall field hfield).1, ?_⟩
    rw [dumpsFault, fieldsFault_none]
    exact fun field hfield => (hall field hfield).2

theorem loads_readable (hprint : p.Repeats float) {text : List Char} {value : JsonValue}
    (h : loads float text = .ok value) : Readable p float value ∧ dumpsFault value = none := by
  unfold loads at h
  split at h
  · rename_i document hdocument
    exact ofJson_readable hprint (Json.loads_read hdocument) (orRaise_ok.mp h)
  · cases h
  · cases h

end JsonValue

end BaseAgent
