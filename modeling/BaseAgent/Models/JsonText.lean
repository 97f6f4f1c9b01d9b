import BaseAgent.Models.Run

/-!
# The compact text of a JSON value

`json.dumps(value, ensure_ascii=False, separators=(",", ":"), default=str)`, and the number of bytes
it takes in UTF-8.  How a `float` and a `datetime` are written is a parameter.
-/

namespace BaseAgent

/-! ## Dictionaries -/

section Dictionaries

variable {κ β : Type} [DecidableEq κ]

theorem dictSet_dictSet (d : List (κ × β)) (key : κ) (first second : β) :
    dictSet (dictSet d key first) key second = dictSet d key second := by
  induction d with
  | nil => simp [dictSet]
  | cons entry rest ih =>
    obtain ⟨k, v⟩ := entry
    by_cases hk : k = key
    · simp [dictSet, hk]
    · simp [dictSet, hk, ih]

/-- Two keys are set in any order where the first one is known. -/
theorem dictSet_swap {d : List (κ × β)} {key other : κ} (hne : key ≠ other)
    (h : dictGet d key ≠ none) (value extra : β) :
    dictSet (dictSet d other extra) key value = dictSet (dictSet d key value) other extra := by
  induction d with
  | nil => exact absurd rfl h
  | cons entry rest ih =>
    obtain ⟨k, v⟩ := entry
    by_cases hk : k = key
    · subst hk
      simp [dictSet, hne]
    · simp only [dictGet, hk, if_false] at h
      by_cases ho : k = other
      · subst ho
        simp [dictSet, hne.symm]
      · simp [dictSet, hk, ho, ih h]

end Dictionaries

/-! ## Texts -/

def encodeUtf8 (text : List Char) : List UInt8 := text.flatMap String.utf8EncodeChar

def utf8Bytes (text : List Char) : Nat := (text.map Char.utf8Size).sum

@[simp] theorem encodeUtf8_length (text : List Char) :
    (encodeUtf8 text).length = utf8Bytes text := by
  simp [encodeUtf8, utf8Bytes, List.length_flatMap]

@[simp] theorem utf8Bytes_nil : utf8Bytes [] = 0 := rfl

@[simp] theorem utf8Bytes_cons (c : Char) (text : List Char) :
    utf8Bytes (c :: text) = c.utf8Size + utf8Bytes text := by
  simp [utf8Bytes]

@[simp] theorem utf8Bytes_append (first second : List Char) :
    utf8Bytes (first ++ second) = utf8Bytes first + utf8Bytes second := by
  simp [utf8Bytes]

def escapeChar (c : Char) : List Char :=
  if c = '"' then ['\\', '"']
  else if c = '\\' then ['\\', '\\']
  else if c = '\n' then ['\\', 'n']
  else if c = '\r' then ['\\', 'r']
  else if c = '\t' then ['\\', 't']
  else if c.toNat = 8 then ['\\', 'b']
  else if c.toNat = 12 then ['\\', 'f']
  else if c.toNat < 32 then
    ['\\', 'u', '0', '0', Nat.digitChar (c.toNat / 16), Nat.digitChar (c.toNat % 16)]
  else [c]

def quoteText (text : String) : List Char := '"' :: (text.toList.flatMap escapeChar ++ ['"'])

def Plain (c : Char) : Prop := escapeChar c = [c] ∧ c.utf8Size = 1

instance (c : Char) : Decidable (Plain c) :=
  inferInstanceAs (Decidable (escapeChar c = [c] ∧ c.utf8Size = 1))

theorem utf8Bytes_plain {text : List Char} (h : ∀ c ∈ text, Plain c) :
    utf8Bytes text = text.length := by
  induction text with
  | nil => rfl
  | cons c rest ih =>
    rw [utf8Bytes_cons, (h c List.mem_cons_self).2,
      ih fun d hd => h d (List.mem_cons_of_mem c hd), List.length_cons]
    omega

theorem quoteText_plain {text : String} (h : ∀ c ∈ text.toList, Plain c) :
    utf8Bytes (quoteText text) = text.toList.length + 2 := by
  have hquote : '"'.utf8Size = 1 := rfl
  have hsame : ∀ rest : List Char, (∀ c ∈ rest, Plain c) → rest.flatMap escapeChar = rest := by
    intro rest
    induction rest with
    | nil => exact fun _ => rfl
    | cons c rest ih =>
      intro hrest
      rw [List.flatMap_cons, (hrest c List.mem_cons_self).1,
        ih fun d hd => hrest d (List.mem_cons_of_mem c hd), List.singleton_append]
  rw [quoteText, hsame _ h, utf8Bytes_cons, utf8Bytes_append, utf8Bytes_plain h, utf8Bytes_cons,
    utf8Bytes_nil]
  omega

theorem quoteText_replicate {c : Char} (h : escapeChar c = [c]) (n : Nat) :
    utf8Bytes (quoteText (String.ofList (List.replicate n c))) = n * c.utf8Size + 2 := by
  have hquote : '"'.utf8Size = 1 := rfl
  have hbytes : utf8Bytes ((List.replicate n c).flatMap escapeChar) = n * c.utf8Size := by
    induction n with
    | zero => rw [Nat.zero_mul]; rfl
    | succ n ih =>
      rw [List.replicate_succ, List.flatMap_cons, h, List.singleton_append, utf8Bytes_cons, ih,
        Nat.succ_mul]
      omega
  rw [quoteText, String.toList_ofList, utf8Bytes_cons, utf8Bytes_append, hbytes, utf8Bytes_cons,
    utf8Bytes_nil]
  omega

theorem digitChar_plain {n : Nat} (h : n < 16) : Plain (Nat.digitChar n) := by
  have hall : ∀ n : Fin 16, Plain (Nat.digitChar n) := by decide
  exact hall ⟨n, h⟩

theorem toDigits_plain {base : Nat} (hbase : 1 < base) (hle : base ≤ 16) (n : Nat) :
    ∀ c ∈ Nat.toDigits base n, Plain c := by
  induction n using Nat.strong_induction_on with
  | _ n ih =>
    intro c hc
    rw [Nat.toDigits_eq_if hbase] at hc
    split at hc
    · rename_i hsmall
      rw [List.mem_singleton.mp hc]
      exact digitChar_plain (by omega)
    · rename_i hlarge
      have hpos : 0 < n := by omega
      cases List.mem_append.mp hc with
      | inl hfirst => exact ih (n / base) (Nat.div_lt_self hpos hbase) c hfirst
      | inr hlast =>
        rw [List.mem_singleton.mp hlast]
        exact digitChar_plain (Nat.lt_of_lt_of_le (Nat.mod_lt n (by omega)) hle)

theorem uuidText_length (u : UUID) : (uuidText u).toList.length = 36 := by
  simp only [uuidText, String.toList_ofList, List.length_append, List.length_cons, List.length_take,
    List.length_drop, List.length_replicate]
  omega

theorem uuidText_plain (u : UUID) : ∀ c ∈ (uuidText u).toList, Plain c := by
  have hpadded : ∀ c ∈ List.replicate (32 - (Nat.toDigits 16 u).length) '0' ++ Nat.toDigits 16 u,
      Plain c := by
    intro c hc
    cases List.mem_append.mp hc with
    | inl hzero =>
      rw [List.eq_of_mem_replicate hzero]
      decide
    | inr hdigit => exact toDigits_plain (by omega) (by omega) u c hdigit
  have hpart : ∀ start count, ∀ c ∈ (List.drop start (List.replicate
      (32 - (Nat.toDigits 16 u).length) '0' ++ Nat.toDigits 16 u)).take count, Plain c :=
    fun start count c hc => hpadded c (List.mem_of_mem_drop (List.mem_of_mem_take hc))
  have hhyphen : Plain '-' := by decide
  intro c hc
  simp only [uuidText, String.toList_ofList, List.mem_append, List.mem_cons, or_assoc] at hc
  rcases hc with h | rfl | h | rfl | h | rfl | h | rfl | h
  · exact hpart _ _ c h
  · exact hhyphen
  · exact hpart _ _ c h
  · exact hhyphen
  · exact hpart _ _ c h
  · exact hhyphen
  · exact hpart _ _ c h
  · exact hhyphen
  · exact hpart _ _ c h

/-- How the values are written that have no text of their own here. -/
structure Printing where
  float : ℚ → String
  time : Time → String

namespace JsonValue

section Compact

variable (p : Printing)

mutual

def compact : JsonValue → List Char
  | null => ['n', 'u', 'l', 'l']
  | bool true => ['t', 'r', 'u', 'e']
  | bool false => ['f', 'a', 'l', 's', 'e']
  | int value => (toString value).toList
  | float value => (p.float value).toList
  | str value => quoteText value
  | uuid value => quoteText (uuidText value)
  | time value => quoteText (p.time value)
  | list items => '[' :: (compactItems items ++ [']'])
  | obj fields => '\x7b' :: (compactFields fields ++ ['\x7d'])

def compactItems : List JsonValue → List Char
  | [] => []
  | [item] => compact item
  | item :: next :: rest => compact item ++ ',' :: compactItems (next :: rest)

def compactFields : List (String × JsonValue) → List Char
  | [] => []
  | [(key, value)] => quoteText key ++ ':' :: compact value
  | (key, value) :: next :: rest =>
    quoteText key ++ ':' :: (compact value ++ ',' :: compactFields (next :: rest))

end

def jsonBytes (value : JsonValue) : List UInt8 := encodeUtf8 (compact p value)

/-! ## Sizes -/

def size (value : JsonValue) : Nat := utf8Bytes (compact p value)

def fieldSize (field : String × JsonValue) : Nat :=
  utf8Bytes (quoteText field.1) + 1 + size p field.2

@[simp] theorem jsonBytes_length (value : JsonValue) : (jsonBytes p value).length = size p value := by
  simp [jsonBytes, size]

theorem compactItems_size (items : List JsonValue) :
    utf8Bytes (compactItems p items) = (items.map (size p)).sum + (items.length - 1) := by
  induction items with
  | nil => rfl
  | cons item rest ih =>
    cases rest with
    | nil => simp [compactItems, size]
    | cons next more =>
      rw [compactItems, utf8Bytes_append, utf8Bytes_cons, ih]
      simp only [List.map_cons, List.sum_cons, List.length_cons, size]
      have hcomma : ','.utf8Size = 1 := rfl
      omega

theorem compactFields_size (fields : List (String × JsonValue)) :
    utf8Bytes (compactFields p fields) =
      (fields.map (fieldSize p)).sum + (fields.length - 1) := by
  have hcomma : ','.utf8Size = 1 := rfl
  have hcolon : ':'.utf8Size = 1 := rfl
  induction fields with
  | nil => rfl
  | cons field rest ih =>
    obtain ⟨key, value⟩ := field
    cases rest with
    | nil =>
      simp only [compactFields, utf8Bytes_append, utf8Bytes_cons, List.map_cons, List.map_nil,
        List.sum_cons, List.sum_nil, List.length_cons, List.length_nil, fieldSize, size]
      omega
    | cons next more =>
      rw [compactFields, utf8Bytes_append, utf8Bytes_cons, utf8Bytes_append, utf8Bytes_cons, ih]
      simp only [List.map_cons, List.sum_cons, List.length_cons, fieldSize, size]
      omega

theorem size_list (items : List JsonValue) :
    size p (list items) = 2 + (items.map (size p)).sum + (items.length - 1) := by
  have hopen : '['.utf8Size = 1 := rfl
  have hclose : ']'.utf8Size = 1 := rfl
  rw [size, compact, utf8Bytes_cons, utf8Bytes_append, utf8Bytes_cons, utf8Bytes_nil,
    compactItems_size]
  omega

theorem size_obj (fields : List (String × JsonValue)) :
    size p (obj fields) = 2 + (fields.map (fieldSize p)).sum + (fields.length - 1) := by
  have hopen : '\x7b'.utf8Size = 1 := rfl
  have hclose : '\x7d'.utf8Size = 1 := rfl
  rw [size, compact, utf8Bytes_cons, utf8Bytes_append, utf8Bytes_cons, utf8Bytes_nil,
    compactFields_size]
  omega

theorem size_bool (b : Bool) : size p (bool b) = if b then 4 else 5 := by
  cases b <;> rfl

theorem size_uuid (u : UUID) : size p (uuid u) = 38 := by
  rw [size, compact, quoteText_plain (uuidText_plain u), uuidText_length]

theorem size_natural (n : Nat) : size p (int n) = (Nat.toDigits 10 n).length := by
  have htext : (toString (n : Int)).toList = Nat.toDigits 10 n := by
    show (Nat.repr n).toList = _
    rw [Nat.repr, String.toList_ofList]
  rw [size, compact, htext, utf8Bytes_plain (toDigits_plain (by omega) (by omega) n)]

theorem size_list_le {first items : List JsonValue} (h : first <+: items) :
    size p (list first) ≤ size p (list items) := by
  obtain ⟨more, rfl⟩ := h
  rw [size_list, size_list, List.map_append, List.sum_append, List.length_append]
  omega

theorem size_bool_mono {a b : Bool} (h : b = true → a = true) :
    size p (bool a) ≤ size p (bool b) := by
  cases a with
  | false =>
    cases b with
    | false => exact Nat.le_refl _
    | true => cases h rfl
  | true =>
    rw [size_bool, size_bool, if_pos rfl]
    split <;> omega

/-- A field that changes its value changes the size by the difference. -/
theorem size_dictSet {fields : List (String × JsonValue)} {key : String} {old : JsonValue}
    (h : dictGet fields key = some old) (value : JsonValue) :
    size p (obj (dictSet fields key value)) + size p old =
      size p (obj fields) + size p value := by
  have hsum : ∀ rest : List (String × JsonValue), dictGet rest key = some old →
      ((dictSet rest key value).map (fieldSize p)).sum + size p old =
        (rest.map (fieldSize p)).sum + size p value ∧
      (dictSet rest key value).length = rest.length := by
    intro rest
    induction rest with
    | nil =>
      intro hget
      cases hget
    | cons field rest ih =>
      obtain ⟨k, v⟩ := field
      intro hget
      by_cases hk : k = key
      · simp only [dictGet, hk, if_true, Option.some.injEq] at hget
        subst hget
        simp only [dictSet, hk, if_true, List.map_cons, List.sum_cons, List.length_cons, fieldSize,
          and_true]
        omega
      · simp only [dictGet, hk, if_false] at hget
        obtain ⟨hsize, hlength⟩ := ih hget
        simp only [dictSet, hk, if_false, List.map_cons, List.sum_cons, List.length_cons, hlength,
          and_true]
        omega
  obtain ⟨hsize, hlength⟩ := hsum fields h
  rw [size_obj, size_obj, hlength]
  omega

end Compact

end JsonValue

end BaseAgent
