import Mathlib.Data.Rat.Floor

/-!
# What the models take from the language and its library

Identifiers, points in time, text predicates and number formats, as the standard
library behaves.  A UUID is a number, a `datetime` is a count of microseconds, and
a finite `float` is the rational number it denotes.
-/

namespace BaseAgent

abbrev UUID := Nat

/-- `str(uuid)`: 32 hexadecimal digits in groups of 8, 4, 4, 4 and 12. -/
def uuidText (u : UUID) : String :=
  let digits := Nat.toDigits 16 u
  let padded := List.replicate (32 - digits.length) '0' ++ digits
  let group (start size : Nat) := (padded.drop start).take size
  String.ofList (group 0 8 ++ '-' :: group 8 4 ++ '-' :: group 12 4 ++ '-' :: group 16 4 ++
    '-' :: group 20 12)

/-- A `datetime`, in microseconds since 1970-01-01T00:00:00. -/
abbrev Time := Int

/-- `datetime.min`, 0001-01-01T00:00:00. -/
def minTime : Time := -62135596800000000

/-- `datetime.max`, 9999-12-31T23:59:59.999999. -/
def maxTime : Time := 253402300799999999

/-- `if bad: raise error`. -/
def raiseIf {ε : Type} (bad : Prop) [Decidable bad] (error : ε) : Except ε Unit :=
  if bad then .error error else .ok ()

@[simp] theorem raiseIf_ok {ε : Type} {bad : Prop} [Decidable bad] {error : ε} {u : Unit} :
    raiseIf bad error = .ok u ↔ ¬ bad := by
  unfold raiseIf
  split <;> simp_all

def orRaise {ε α : Type} (value : Option α) (error : ε) : Except ε α :=
  match value with
  | some a => .ok a
  | none => .error error

@[simp] theorem orRaise_ok {ε α : Type} {value : Option α} {error : ε} {a : α} :
    orRaise value error = .ok a ↔ value = some a := by
  cases value <;> simp [orRaise]

/-- A computation that may raise and returned: its first part returned, and so did the
rest. -/
theorem Except.bind_ok {ε α β : Type} {x : Except ε α} {f : α → Except ε β} {b : β} :
    (x >>= f) = .ok b ↔ ∃ a, x = .ok a ∧ f a = .ok b := by
  cases x with
  | error e => simp [bind, Except.bind]
  | ok a => simp [bind, Except.bind]

/-- `d.get(key)` of a dictionary, which keeps its keys in insertion order. -/
def dictGet {κ β : Type} [DecidableEq κ] (d : List (κ × β)) (key : κ) : Option β :=
  match d with
  | [] => none
  | (k, v) :: rest => if k = key then some v else dictGet rest key

/-- `d[key] = value`: a known key keeps its place. -/
def dictSet {κ β : Type} [DecidableEq κ] (d : List (κ × β)) (key : κ) (value : β) :
    List (κ × β) :=
  match d with
  | [] => [(key, value)]
  | (k, v) :: rest => if k = key then (k, value) :: rest else (k, v) :: dictSet rest key value

@[simp] theorem dictGet_set_self {κ β : Type} [DecidableEq κ] (d : List (κ × β)) (key : κ)
    (value : β) : dictGet (dictSet d key value) key = some value := by
  induction d with
  | nil => simp [dictSet, dictGet]
  | cons entry rest ih =>
    obtain ⟨k, v⟩ := entry
    by_cases hk : k = key
    · simp [dictSet, dictGet, hk]
    · simp [dictSet, dictGet, hk, ih]

theorem dictGet_set_ne {κ β : Type} [DecidableEq κ] (d : List (κ × β)) {key other : κ}
    (h : other ≠ key) (value : β) : dictGet (dictSet d key value) other = dictGet d other := by
  induction d with
  | nil => simp [dictSet, dictGet, h.symm]
  | cons entry rest ih =>
    obtain ⟨k, v⟩ := entry
    by_cases hk : k = key
    · simp [dictSet, dictGet, hk, h.symm]
    · by_cases ho : k = other
      · subst ho
        simp [dictSet, dictGet, hk]
      · simp [dictSet, dictGet, hk, ho, ih]

theorem dictGet_set {κ β : Type} [DecidableEq κ] (d : List (κ × β)) (key other : κ) (value : β) :
    dictGet (dictSet d key value) other = if other = key then some value else dictGet d other := by
  by_cases h : other = key
  · subst h
    simp
  · rw [dictGet_set_ne d h, if_neg h]

theorem dictGet_of_mem {κ β : Type} [DecidableEq κ] {d : List (κ × β)} {key : κ} {value : β}
    (hd : (d.map (·.1)).Nodup) (h : (key, value) ∈ d) : dictGet d key = some value := by
  induction d with
  | nil => cases h
  | cons entry rest ih =>
    obtain ⟨k, v⟩ := entry
    simp only [List.map_cons, List.nodup_cons] at hd
    cases List.mem_cons.mp h with
    | inl heq =>
      cases heq
      simp [dictGet]
    | inr hrest =>
      have hk : k ≠ key := by
        rintro rfl
        exact hd.1 (List.mem_map.mpr ⟨_, hrest, rfl⟩)
      simp only [dictGet, hk, if_false]
      exact ih hd.2 hrest

theorem mem_dictSet_keys {κ β : Type} [DecidableEq κ] (d : List (κ × β)) (key : κ) (value : β)
    {k : κ} (h : k ∈ (dictSet d key value).map (·.1)) : k = key ∨ k ∈ d.map (·.1) := by
  induction d with
  | nil => simpa [dictSet] using h
  | cons entry rest ih =>
    obtain ⟨k', v⟩ := entry
    by_cases hk : k' = key
    · simp only [dictSet, hk, if_true, List.map_cons, List.mem_cons] at h
      cases h with
      | inl heq => exact .inl heq
      | inr hrest => exact .inr (List.mem_cons_of_mem _ hrest)
    · simp only [dictSet, hk, if_false, List.map_cons, List.mem_cons] at h
      cases h with
      | inl heq => exact .inr (by simp [heq])
      | inr hrest =>
        cases ih hrest with
        | inl heq => exact .inl heq
        | inr hmem => exact .inr (List.mem_cons_of_mem _ hmem)

theorem dictSet_nodup {κ β : Type} [DecidableEq κ] {d : List (κ × β)} (key : κ) (value : β)
    (h : (d.map (·.1)).Nodup) : ((dictSet d key value).map (·.1)).Nodup := by
  induction d with
  | nil => simp [dictSet]
  | cons entry rest ih =>
    obtain ⟨k, v⟩ := entry
    simp only [List.map_cons, List.nodup_cons] at h
    by_cases hk : k = key
    · simp only [dictSet, hk, if_true, List.map_cons, List.nodup_cons]
      rw [← hk]
      exact h
    · simp only [dictSet, hk, if_false, List.map_cons, List.nodup_cons]
      refine ⟨fun hmem => ?_, ih h.2⟩
      cases mem_dictSet_keys rest key value hmem with
      | inl heq => exact hk heq
      | inr hold => exact h.1 hold

/-- The code points `str.isspace` accepts, which are those `str.strip` removes. -/
def isSpace (c : Char) : Bool :=
  let n := c.toNat
  (9 ≤ n && n ≤ 13) || (28 ≤ n && n ≤ 32) || n == 0x85 || n == 0xA0 || n == 0x1680 ||
    (0x2000 ≤ n && n ≤ 0x200A) || n == 0x2028 || n == 0x2029 || n == 0x202F ||
    n == 0x205F || n == 0x3000

/-- `not text.strip()`. -/
def isBlank (text : String) : Bool := text.toList.all isSpace

theorem length_pos_of_not_blank {text : String} (h : isBlank text = false) : 1 ≤ text.length := by
  have hne : text ≠ "" := by
    rintro rfl
    cases h
  have hpos : text.length ≠ 0 := fun hzero => hne (String.length_eq_zero_iff.mp hzero)
  omega

def strip (text : String) : String :=
  String.ofList ((text.toList.dropWhile isSpace).reverse.dropWhile isSpace).reverse

def lstrip (text : String) : String := String.ofList (text.toList.dropWhile isSpace)

/-- `text.startswith(start)`. -/
def startsWith (text start : String) : Bool := start.toList.isPrefixOf text.toList

/-- The code points that end a line for `str.splitlines`. -/
def isLineEnd (c : Char) : Bool :=
  let n := c.toNat
  (10 ≤ n && n ≤ 13) || (28 ≤ n && n ≤ 30) || n == 0x85 || n == 0x2028 || n == 0x2029

/-- The lines of a text whose first line begins with `line`, in reverse.  A line feed right
after a carriage return ends no line of its own. -/
def splitlinesFrom (line : List Char) (afterReturn : Bool) : List Char → List String
  | [] => if line.isEmpty then [] else [String.ofList line.reverse]
  | first :: rest =>
    if afterReturn && first.toNat == 10 then splitlinesFrom [] false rest
    else if isLineEnd first then
      String.ofList line.reverse :: splitlinesFrom [] (first.toNat == 13) rest
    else splitlinesFrom (first :: line) false rest

def splitlines (text : String) : List String := splitlinesFrom [] false text.toList

def roundHalfEven (x : ℚ) : Int :=
  let low := ⌊x⌋
  let rest := x - low
  if rest < 1 / 2 then low
  else if 1 / 2 < rest then low + 1
  else if low % 2 = 0 then low else low + 1

/-- `timedelta(seconds=seconds)`, in microseconds. -/
def timedelta (seconds : ℚ) : Int := roundHalfEven (seconds * 1000000)

/-- `start + timedelta(seconds=seconds)`, or the text of the `OverflowError`. -/
def addSeconds (start : Time) (seconds : ℚ) : Except String Time :=
  let span := timedelta seconds
  let days := span / 86400000000
  if days < -2147483648 ∨ 2147483647 < days then
    .error "Python int too large to convert to C int"
  else if 999999999 < days.natAbs then .error s!"days={days}; must have magnitude <= 999999999"
  else if start + span < minTime ∨ maxTime < start + span then .error "date value out of range"
  else .ok (start + span)

def totalSeconds (span : Int) : ℚ := span / 1000000

/-- The decimal exponent of a positive number, searched within `fuel` places. -/
def decimalExponent (x : ℚ) : Nat → Int
  | 0 => 0
  | fuel + 1 =>
    if 10 ≤ x then decimalExponent (x / 10) fuel + 1
    else if x < 1 then decimalExponent (x * 10) fuel - 1
    else 0

/-- Remove the trailing zeros of a fraction, and its point when nothing is left. -/
def stripZeros (digits : List Char) : List Char :=
  (digits.reverse.dropWhile (· == '0')).dropWhile (· == '.') |>.reverse

/-- `format(x, "g")` of a non-negative number: six significant digits, trailing
zeros removed, scientific notation below `1e-4` and from `1e6` on. -/
def formatG (x : ℚ) : String :=
  if x = 0 then "0" else
    let e₀ := decimalExponent x 400
    let m₀ := roundHalfEven (x / (10 : ℚ) ^ (e₀ - 5))
    let (m, e) := if m₀ = 1000000 then (100000, e₀ + 1) else (m₀, e₀)
    let digits := (toString m.toNat).toList
    if -4 ≤ e ∧ e < 6 then
      if 0 ≤ e then
        String.ofList (stripZeros (digits.take (e.toNat + 1) ++ '.' :: digits.drop (e.toNat + 1)))
      else
        String.ofList (stripZeros ("0.".toList ++ List.replicate (-e - 1).toNat '0' ++ digits))
    else
      let mantissa := stripZeros (digits.take 1 ++ '.' :: digits.drop 1)
      let power := toString e.natAbs
      String.ofList mantissa ++ (if 0 ≤ e then "e+" else "e-") ++
        (if power.length < 2 then "0" ++ power else power)

end BaseAgent
