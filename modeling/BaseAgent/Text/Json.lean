import BaseAgent.Models.Python

/-!
# JSON

`Json.loads` reads a document in two layers.  `lex` cuts the text into tokens, of which the last
one is `bad` when nothing of the grammar stands in front, and `Json.read` runs over the tokens with
the open arrays and objects on a stack.  What a number stands for is a parameter.

A character that is no ASCII, or a control character that is no white space, can only stand in a
string.  A text that is cut at such a character, or has a line feed in its place, is no document
any more.
-/

namespace BaseAgent
namespace Text

/-! ## Characters -/

def isWhitespace (c : Char) : Bool := c == ' ' || c == '\t' || c == '\n' || c == '\r'

def isMark (c : Char) : Bool :=
  c == '\x7b' || c == '\x7d' || c == '[' || c == ']' || c == ':' || c == ','

def isSolid (c : Char) : Bool := c.isAlphanum || c == '+' || c == '-' || c == '.'

def isForeign (c : Char) : Bool := 128 ≤ c.toNat || (c.toNat < 32 && !isWhitespace c)

def unescape (c : Char) : Option Nat :=
  if c = '"' ∨ c = '\\' ∨ c = '/' then some c.toNat
  else if c = 'b' then some 8
  else if c = 'f' then some 12
  else if c = 'n' then some 10
  else if c = 'r' then some 13
  else if c = 't' then some 9
  else none

def hexValue (c : Char) : Option Nat :=
  if '0' ≤ c ∧ c ≤ '9' then some (c.toNat - '0'.toNat)
  else if 'a' ≤ c ∧ c ≤ 'f' then some (c.toNat - 'a'.toNat + 10)
  else if 'A' ≤ c ∧ c ≤ 'F' then some (c.toNat - 'A'.toNat + 10)
  else none

/-! ## Strings -/

inductive Mode where
  | plain
  | escape
  | hex (digits value : Nat)
  deriving DecidableEq, Repr

inductive Move where
  | close
  | go (next : Mode) (points : List Nat)
  deriving DecidableEq, Repr

def move : Mode → Char → Option Move
  | .plain, c =>
    if c = '"' then some .close
    else if c = '\\' then some (.go .escape [])
    else if c.toNat < 32 then none
    else some (.go .plain [c.toNat])
  | .escape, c =>
    if c = 'u' then some (.go (.hex 0 0) [])
    else (unescape c).map fun point => .go .plain [point]
  | .hex digits value, c =>
    (hexValue c).map fun digit =>
      if digits = 3 then .go .plain [16 * value + digit]
      else .go (.hex (digits + 1) (16 * value + digit)) []

/-- The code points up to the quote that closes the string, and the number of characters read. -/
def stringFrom : Mode → List Char → Option (List Nat × Nat)
  | _, [] => none
  | mode, c :: rest =>
    match move mode c with
    | none => none
    | some .close => some ([], 1)
    | some (.go next points) =>
      (stringFrom next rest).map fun found => (points ++ found.1, found.2 + 1)

def joinSurrogates : List Nat → List Nat
  | high :: low :: rest =>
    if 0xD800 ≤ high ∧ high < 0xDC00 ∧ 0xDC00 ≤ low ∧ low < 0xE000 then
      (0x10000 + (high - 0xD800) * 0x400 + (low - 0xDC00)) :: joinSurrogates rest
    else high :: joinSurrogates (low :: rest)
  | points => points

/-! ## Tokens -/

inductive Word where
  | null | true | false | nan | infinity | negInfinity
  deriving DecidableEq, Repr

def Word.text : Word → List Char
  | null => ['n', 'u', 'l', 'l']
  | true => ['t', 'r', 'u', 'e']
  | false => ['f', 'a', 'l', 's', 'e']
  | nan => ['N', 'a', 'N']
  | infinity => ['I', 'n', 'f', 'i', 'n', 'i', 't', 'y']
  | negInfinity => ['-', 'I', 'n', 'f', 'i', 'n', 'i', 't', 'y']

def Word.all : List Word := [null, true, false, nan, infinity, negInfinity]

inductive Token where
  | mark (c : Char)
  | word (word : Word)
  | number (literal : List Char)
  | string (points : List Nat)
  | bad
  deriving DecidableEq, Repr

/-- The length of the number in front, `-?(0|[1-9]\d*)(\.\d+)?([eE][-+]?\d+)?`. -/
def numberLength (run : List Char) : Nat :=
  let digitsFrom (i : Nat) : Nat := ((run.drop i).takeWhile Char.isDigit).length
  let sign := if run[0]? = some '-' then 1 else 0
  let whole := sign + (if run[sign]? = some '0' then 1 else digitsFrom sign)
  let fraction :=
    if run[whole]? = some '.' ∧ digitsFrom (whole + 1) ≠ 0 then
      whole + 1 + digitsFrom (whole + 1)
    else whole
  let power := fraction + 1 +
    if run[fraction + 1]? = some '+' ∨ run[fraction + 1]? = some '-' then 1 else 0
  if whole = sign then 0
  else if (run[fraction]? = some 'e' ∨ run[fraction]? = some 'E') ∧ digitsFrom power ≠ 0 then
    power + digitsFrom power
  else fraction

/-- The word or the number in front of a run of solid characters, and its length. -/
def atomAt (run : List Char) : Option (Token × Nat) :=
  match Word.all.find? (fun word => word.text.isPrefixOf run) with
  | some word => some (.word word, word.text.length)
  | none =>
    let literal := run.take (numberLength run)
    if literal.isEmpty then none else some (.number literal, literal.length)

def tokenAt : List Char → Option (Token × Nat)
  | [] => none
  | c :: rest =>
    if c = '"' then
      (stringFrom .plain rest).map fun found => (.string (joinSurrogates found.1), found.2 + 1)
    else if isMark c then some (.mark c, 1)
    else atomAt ((c :: rest).takeWhile isSolid)

/-- The tokens of a text, after the first `skip` characters. -/
def lexFrom : Nat → List Char → List Token
  | _, [] => []
  | skip + 1, _ :: rest => lexFrom skip rest
  | 0, c :: rest =>
    if isWhitespace c then lexFrom 0 rest
    else match tokenAt (c :: rest) with
      | some (token, length) => token :: lexFrom (length - 1) rest
      | none => [.bad]

def lex (text : List Char) : List Token := lexFrom 0 text

/-! ## Characters of strings only -/

section Foreign

variable {c : Char}

theorem foreign_iff :
    isForeign c = true ↔ 128 ≤ c.toNat ∨ (c.toNat < 32 ∧ isWhitespace c = false) := by
  simp [isForeign]

theorem not_foreign_of {d : Char} (hd : isForeign d = false) (h : isForeign c = true) : c ≠ d := by
  rintro rfl
  rw [h] at hd
  cases hd

theorem foreign_not_whitespace (h : isForeign c = true) : isWhitespace c = false := by
  by_contra hnot
  rw [Bool.not_eq_false] at hnot
  simp only [isWhitespace, Bool.or_eq_true, beq_iff_eq] at hnot
  rcases hnot with ((rfl | rfl) | rfl) | rfl <;> exact absurd h (by decide)

theorem foreign_not_mark (h : isForeign c = true) : isMark c = false := by
  by_contra hnot
  rw [Bool.not_eq_false] at hnot
  simp only [isMark, Bool.or_eq_true, beq_iff_eq] at hnot
  rcases hnot with ((((rfl | rfl) | rfl) | rfl) | rfl) | rfl <;> exact absurd h (by decide)

theorem alphanum_range (h : c.isAlphanum = true) : 48 ≤ c.toNat ∧ c.toNat ≤ 122 := by
  change ((decide (65 ≤ c.val ∧ c.val ≤ 90) ||
    (decide (97 ≤ c.val) && decide (c.val ≤ 122))) ||
    (decide (48 ≤ c.val) && decide (c.val ≤ 57))) = true at h
  simp only [Bool.or_eq_true, Bool.and_eq_true, decide_eq_true_eq, UInt32.le_iff_toNat_le] at h
  change ((65 ≤ c.toNat ∧ c.toNat ≤ 90) ∨ (97 ≤ c.toNat ∧ c.toNat ≤ 122)) ∨
    (48 ≤ c.toNat ∧ c.toNat ≤ 57) at h
  omega

theorem foreign_not_solid (h : isForeign c = true) : isSolid c = false := by
  by_contra hnot
  rw [Bool.not_eq_false] at hnot
  simp only [isSolid, Bool.or_eq_true, beq_iff_eq] at hnot
  rcases hnot with ((halpha | rfl) | rfl) | rfl
  · have hrange := alphanum_range halpha
    cases foreign_iff.mp h with
    | inl hhigh => omega
    | inr hlow => omega
  all_goals exact absurd h (by decide)

theorem foreign_unescape (h : isForeign c = true) : unescape c = none := by
  have hne : ∀ d, isForeign d = false → c ≠ d := fun d hd => not_foreign_of hd h
  simp [unescape, hne _ (show isForeign '"' = false by decide),
    hne _ (show isForeign '\\' = false by decide), hne _ (show isForeign '/' = false by decide),
    hne _ (show isForeign 'b' = false by decide), hne _ (show isForeign 'f' = false by decide),
    hne _ (show isForeign 'n' = false by decide), hne _ (show isForeign 'r' = false by decide),
    hne _ (show isForeign 't' = false by decide)]

theorem hexValue_range {digit : Nat} (h : hexValue c = some digit) :
    48 ≤ c.toNat ∧ c.toNat ≤ 102 := by
  have hle : ∀ a b : Char, a ≤ b → a.toNat ≤ b.toNat := fun a b hab => hab
  unfold hexValue at h
  split at h
  · rename_i hdigit
    exact ⟨hle _ _ hdigit.1, (hle _ _ hdigit.2).trans (by decide)⟩
  split at h
  · rename_i hlower
    exact ⟨le_trans (by decide) (hle _ _ hlower.1), hle _ _ hlower.2⟩
  split at h
  · rename_i hupper
    exact ⟨le_trans (by decide) (hle _ _ hupper.1), (hle _ _ hupper.2).trans (by decide)⟩
  · cases h

theorem foreign_hexValue (h : isForeign c = true) : hexValue c = none := by
  cases hvalue : hexValue c with
  | none => rfl
  | some digit =>
    have hrange := hexValue_range hvalue
    cases foreign_iff.mp h with
    | inl hhigh => omega
    | inr hlow => omega

theorem move_foreign (h : isForeign c = true) {mode : Mode} {m : Move} (hm : move mode c = some m) :
    m = .go .plain [c.toNat] ∧ 32 ≤ c.toNat := by
  cases mode with
  | plain =>
    have hquote : c ≠ '"' := not_foreign_of (by decide) h
    have hslash : c ≠ '\\' := not_foreign_of (by decide) h
    simp only [move, hquote, hslash, if_false] at hm
    split at hm
    · cases hm
    · cases hm
      exact ⟨rfl, by omega⟩
  | escape =>
    have hu : c ≠ 'u' := not_foreign_of (by decide) h
    simp [move, hu, foreign_unescape h] at hm
  | hex digits value => simp [move, foreign_hexValue h] at hm

theorem move_control {mode : Mode} (h : c = '\n' ∨ c = '\r' ∨ c = '\t') : move mode c = none := by
  rcases h with rfl | rfl | rfl <;> cases mode <;> rfl

theorem tokenAt_foreign (h : isForeign c = true) (rest : List Char) :
    tokenAt (c :: rest) = none := by
  have hquote : c ≠ '"' := not_foreign_of (by decide) h
  have hrun : (c :: rest).takeWhile isSolid = [] := by simp [foreign_not_solid h]
  simp only [tokenAt, hquote, if_false, foreign_not_mark h, Bool.false_eq_true, hrun]
  rfl

end Foreign

/-! ## Documents -/

inductive Json (N : Type) where
  | word (word : Word)
  | number (value : N)
  | string (points : List Nat)
  | array (items : List (Json N))
  | object (fields : List (List Nat × Json N))

namespace Json

variable {N : Type}

/-- Why a text is not read: it is no document, or one of its numbers is refused. -/
inductive Fault where
  | decode
  | number
  deriving DecidableEq, Repr

/-- An open array, with its items in reverse, or an open object with the key that is due. -/
inductive Frame (N : Type) where
  | array (items : List (Json N))
  | object (fields : List (List Nat × Json N)) (key : List Nat)

inductive Place (N : Type) where
  | value (stack : List (Frame N))
  /-- A value, or the end of the array that has just begun. -/
  | first (stack : List (Frame N))
  /-- A key, or the end of the object that has just begun. -/
  | firstKey (stack : List (Frame N))
  | key (stack : List (Frame N)) (fields : List (List Nat × Json N))
  | colon (stack : List (Frame N)) (fields : List (List Nat × Json N)) (key : List Nat)
  /-- What follows a value. -/
  | after (stack : List (Frame N)) (value : Json N)

variable (number : List Char → Option N)

def begin (stack : List (Frame N)) : Token → Except Fault (Place N)
  | .mark '\x7b' => .ok (.firstKey stack)
  | .mark '[' => .ok (.first stack)
  | .word w => .ok (.after stack (.word w))
  | .string points => .ok (.after stack (.string points))
  | .number literal =>
    match number literal with
    | some value => .ok (.after stack (.number value))
    | none => .error .number
  | _ => .error .decode

def step : Place N → Token → Except Fault (Place N)
  | .value stack, token => begin number stack token
  | .first stack, .mark ']' => .ok (.after stack (.array []))
  | .first stack, token => begin number (.array [] :: stack) token
  | .firstKey stack, .mark '\x7d' => .ok (.after stack (.object []))
  | .firstKey stack, .string key => .ok (.colon stack [] key)
  | .key stack fields, .string key => .ok (.colon stack fields key)
  | .colon stack fields key, .mark ':' => .ok (.value (.object fields key :: stack))
  | .after (.array items :: stack) value, .mark ',' =>
    .ok (.value (.array (value :: items) :: stack))
  | .after (.array items :: stack) value, .mark ']' =>
    .ok (.after stack (.array (value :: items).reverse))
  | .after (.object fields key :: stack) value, .mark ',' =>
    .ok (.key stack (dictSet fields key value))
  | .after (.object fields key :: stack) value, .mark '\x7d' =>
    .ok (.after stack (.object (dictSet fields key value)))
  | _, _ => .error .decode

def readFrom (place : Place N) : List Token → Except Fault (Json N)
  | [] =>
    match place with
    | .after [] value => .ok value
    | _ => .error .decode
  | token :: rest => (step number place token).bind fun next => readFrom next rest

def loads (text : List Char) : Except Fault (Json N) := readFrom number (.value []) (lex text)

def isObject (text : List Char) : Bool :=
  match loads number text with
  | .ok (.object _) => true
  | _ => false

variable {number} in
theorem isObject_iff {text : List Char} :
    isObject number text = true ↔ ∃ fields, loads number text = .ok (.object fields) := by
  unfold isObject
  constructor
  · intro h
    split at h
    · rename_i fields hloads
      exact ⟨fields, hloads⟩
    · cases h
  · rintro ⟨fields, hloads⟩
    rw [hloads]

def naturalNumber (literal : List Char) : Option Nat :=
  if literal.all Char.isDigit then
    some (literal.foldl (fun n c => 10 * n + (c.toNat - '0'.toNat)) 0)
  else none

end Json

end Text
end BaseAgent
