import BaseAgent.Text.Lexing

/-!
# How documents are written

`Json.write` writes a document in a style of its own: how a number and a code point are written,
and what stands between two items and behind a key.  Whatever the style, a document is read back
as it was (`loads_write`).  The text is cut into the tokens that it was written from
(`lex_write`), and the reader leaves the place behind a value with that value
(`readFrom_tokens`).
-/

namespace BaseAgent
namespace Text

/-! ## Characters that open a token -/

section Solid

variable {c : Char} {rest : List Char}

theorem solid_not_whitespace (h : isSolid c = true) : isWhitespace c = false := by
  by_contra hnot
  rw [Bool.not_eq_false] at hnot
  simp only [isWhitespace, Bool.or_eq_true, beq_iff_eq] at hnot
  rcases hnot with ((rfl | rfl) | rfl) | rfl <;> exact absurd h (by decide)

theorem solid_not_mark (h : isSolid c = true) : isMark c = false := by
  by_contra hnot
  rw [Bool.not_eq_false] at hnot
  simp only [isMark, Bool.or_eq_true, beq_iff_eq] at hnot
  rcases hnot with ((((rfl | rfl) | rfl) | rfl) | rfl) | rfl <;> exact absurd h (by decide)

theorem mark_not_whitespace (h : isMark c = true) : isWhitespace c = false := by
  simp only [isMark, Bool.or_eq_true, beq_iff_eq] at h
  rcases h with ((((rfl | rfl) | rfl) | rfl) | rfl) | rfl <;> decide

theorem lex_mark (h : isMark c = true) (rest : List Char) :
    lex (c :: rest) = .mark c :: lex rest := by
  have hquote : c ≠ '"' := by
    rintro rfl
    exact absurd h (by decide)
  have htoken : tokenAt (c :: rest) = some (.mark c, 1) := by
    rw [tokenAt, if_neg hquote, if_pos h]
  exact lex_token (mark_not_whitespace h) htoken

def Clear (text : List Char) : Prop := ∀ c, text.head? = some c → isSolid c = false

theorem clear_of_mark (h : isMark c = true) (rest : List Char) : Clear (c :: rest) := by
  intro d hd
  rw [List.head?_cons, Option.some.injEq] at hd
  rw [← hd]
  by_contra hnot
  rw [Bool.not_eq_false] at hnot
  rw [solid_not_mark hnot] at h
  cases h

theorem takeWhile_clear {atom : List Char} (hatom : ∀ c ∈ atom, isSolid c = true)
    (h : Clear rest) : (atom ++ rest).takeWhile isSolid = atom := by
  rw [List.takeWhile_append_of_pos hatom]
  cases rest with
  | nil => simp
  | cons c rest => simp [h c rfl]

theorem lex_atom {atom : List Char} {token : Token} (hatom : ∀ c ∈ atom, isSolid c = true)
    (hread : atomAt atom = some (token, atom.length)) (h : Clear rest) :
    lex (atom ++ rest) = token :: lex rest := by
  cases atom with
  | nil => exact absurd (atomAt_length hread).1 (by decide)
  | cons c more =>
    have hsolid := hatom c List.mem_cons_self
    have hquote : c ≠ '"' := by
      rintro rfl
      exact absurd hsolid (by decide)
    have htoken : tokenAt (c :: (more ++ rest)) = some (token, (c :: more).length) := by
      have hrun : (c :: (more ++ rest)).takeWhile isSolid = c :: more := takeWhile_clear hatom h
      rw [tokenAt, if_neg hquote, solid_not_mark hsolid, if_neg Bool.false_ne_true, hrun]
      exact hread
    rw [List.cons_append, lex_token (solid_not_whitespace hsolid) htoken]
    have hdrop : (c :: (more ++ rest)).drop (c :: more).length = rest :=
      @List.drop_left _ (c :: more) rest
    rw [hdrop]

theorem word_solid (word : Word) : ∀ c ∈ word.text, isSolid c = true := by
  have hall : word.text.all isSolid = true := by cases word <;> decide
  exact List.all_eq_true.mp hall

theorem atomAt_word (word : Word) : atomAt word.text = some (.word word, word.text.length) := by
  cases word <;> decide

end Solid

/-! ## Strings -/

def Scalar (point : Nat) : Prop := point < 0xD800 ∨ (0xE000 ≤ point ∧ point < 0x110000)

def surrogates (point : Nat) : List Nat :=
  [0xD800 + (point - 0x10000) / 0x400, 0xDC00 + (point - 0x10000) % 0x400]

def ReadAs (text : List Char) (points : List Nat) : Prop :=
  ∀ rest, stringFrom .plain (text ++ rest) =
    (stringFrom .plain rest).map fun found => (points ++ found.1, found.2 + text.length)

def StandsFor (text : List Char) (point : Nat) : Prop :=
  ReadAs text [point] ∨ (0x10000 ≤ point ∧ ReadAs text (surrogates point))

section Strings

variable {point : Nat} {points : List Nat}

theorem joinSurrogates_scalar (h : Scalar point) (rest : List Nat) :
    joinSurrogates (point :: rest) = point :: joinSurrogates rest := by
  cases rest with
  | nil => rfl
  | cons low rest =>
    have hnot : ¬ (0xD800 ≤ point ∧ point < 0xDC00 ∧ 0xDC00 ≤ low ∧ low < 0xE000) := by
      unfold Scalar at h
      omega
    rw [joinSurrogates, if_neg hnot]

theorem joinSurrogates_pair (hlow : 0x10000 ≤ point) (hhigh : point < 0x110000) (rest : List Nat) :
    joinSurrogates (surrogates point ++ rest) = point :: joinSurrogates rest := by
  have hpair : 0xD800 ≤ 0xD800 + (point - 0x10000) / 0x400 ∧
      0xD800 + (point - 0x10000) / 0x400 < 0xDC00 ∧
      0xDC00 ≤ 0xDC00 + (point - 0x10000) % 0x400 ∧
      0xDC00 + (point - 0x10000) % 0x400 < 0xE000 := by omega
  show joinSurrogates (_ :: _ :: rest) = _
  rw [joinSurrogates, if_pos hpair]
  have hpoint : 0x10000 + (0xD800 + (point - 0x10000) / 0x400 - 0xD800) * 0x400 +
      (0xDC00 + (point - 0x10000) % 0x400 - 0xDC00) = point := by omega
  rw [hpoint]

/-- The code points of a string, from the texts that stand for them to its quote. -/
theorem stringFrom_escaped {escape : Nat → List Char}
    (hescape : ∀ point ∈ points, StandsFor (escape point) point)
    (hscalar : ∀ point ∈ points, Scalar point) (rest : List Char) :
    ∃ read, stringFrom .plain (points.flatMap escape ++ '"' :: rest) =
      some (read, (points.flatMap escape).length + 1) ∧ joinSurrogates read = points := by
  induction points with
  | nil => exact ⟨[], rfl, rfl⟩
  | cons point more ih =>
    rw [List.forall_mem_cons] at hescape hscalar
    obtain ⟨read, hread, hjoined⟩ := ih hescape.2 hscalar.2
    have htext : (point :: more).flatMap escape ++ '"' :: rest =
        escape point ++ (more.flatMap escape ++ '"' :: rest) := by
      rw [List.flatMap_cons, List.append_assoc]
    have hlength : (more.flatMap escape).length + 1 + (escape point).length =
        ((point :: more).flatMap escape).length + 1 := by
      rw [List.flatMap_cons, List.length_append]
      omega
    rw [htext, ← hlength]
    cases hescape.1 with
    | inl hself =>
      refine ⟨point :: read, ?_, ?_⟩
      · rw [hself, hread]
        rfl
      · rw [joinSurrogates_scalar hscalar.1, hjoined]
    | inr hpair =>
      refine ⟨surrogates point ++ read, ?_, ?_⟩
      · rw [hpair.2, hread]
        rfl
      · have hhigh : point < 0x110000 := by
          have hbound := hscalar.1
          have hfirst := hpair.1
          unfold Scalar at hbound
          omega
        rw [joinSurrogates_pair hpair.1 hhigh, hjoined]

end Strings

/-! ## Documents -/

namespace Json

variable {N : Type}

structure Style (N : Type) where
  number : N → List Char
  escape : Nat → List Char
  /-- What stands between two items. -/
  comma : List Char
  /-- What stands between a key and its value. -/
  colon : List Char

section Write

variable (style : Style N)

def writeString (points : List Nat) : List Char := '"' :: (points.flatMap style.escape ++ ['"'])

mutual

def write : Json N → List Char
  | .word w => w.text
  | .number value => style.number value
  | .string points => writeString style points
  | .array items => '[' :: (writeItems items ++ [']'])
  | .object fields => '\x7b' :: (writeFields fields ++ ['\x7d'])

def writeItems : List (Json N) → List Char
  | [] => []
  | [item] => write item
  | item :: next :: rest => write item ++ (style.comma ++ writeItems (next :: rest))

def writeFields : List (List Nat × Json N) → List Char
  | [] => []
  | [(key, value)] => writeString style key ++ (style.colon ++ write value)
  | (key, value) :: next :: rest =>
    writeString style key ++ (style.colon ++ (write value ++ (style.comma ++
      writeFields (next :: rest))))

end

mutual

/-- The tokens of what `write` writes. -/
def tokens : Json N → List Token
  | .word w => [.word w]
  | .number value => [.number (style.number value)]
  | .string points => [.string points]
  | .array items => .mark '[' :: (itemTokens items ++ [.mark ']'])
  | .object fields => .mark '\x7b' :: (fieldTokens fields ++ [.mark '\x7d'])

def itemTokens : List (Json N) → List Token
  | [] => []
  | [item] => tokens item
  | item :: next :: rest => tokens item ++ .mark ',' :: itemTokens (next :: rest)

def fieldTokens : List (List Nat × Json N) → List Token
  | [] => []
  | [(key, value)] => .string key :: .mark ':' :: tokens value
  | (key, value) :: next :: rest =>
    .string key :: .mark ':' :: (tokens value ++ .mark ',' :: fieldTokens (next :: rest))

end

end Write

/-- A style with the marks of the grammar between the items and the fields. -/
structure Style.Marked (style : Style N) : Prop where
  comma : ∃ space, style.comma = ',' :: space ∧ ∀ c ∈ space, isWhitespace c = true
  colon : ∃ space, style.colon = ':' :: space ∧ ∀ c ∈ space, isWhitespace c = true

/-- The style writes the code points of a string so that it can be read back. -/
def Style.Spells (style : Style N) (points : List Nat) : Prop :=
  ∀ point ∈ points, Scalar point ∧ StandsFor (style.escape point) point

/-- The style writes the number as one of the grammar, which is read back. -/
def Style.Counts (style : Style N) (number : List Char → Option N) (value : N) : Prop :=
  (∀ c ∈ style.number value, isSolid c = true) ∧
    atomAt (style.number value) =
      some (.number (style.number value), (style.number value).length) ∧
    number (style.number value) = some value

/-- The documents that the style writes so that they can be read back.  An object has each of
its keys once. -/
inductive Legible (style : Style N) (number : List Char → Option N) : Json N → Prop where
  | word (word : Word) : Legible style number (.word word)
  | number {value : N} (h : style.Counts number value) : Legible style number (.number value)
  | string {points : List Nat} (h : style.Spells points) : Legible style number (.string points)
  | array {items : List (Json N)} (h : ∀ item ∈ items, Legible style number item) :
    Legible style number (.array items)
  | object {fields : List (List Nat × Json N)} (hkeys : (fields.map (·.1)).Nodup)
    (hspelled : ∀ field ∈ fields, style.Spells field.1)
    (h : ∀ field ∈ fields, Legible style number field.2) : Legible style number (.object fields)

/-! ## The tokens of a document -/

section Lexing

variable {style : Style N} {number : List Char → Option N} {rest : List Char}

theorem lex_writeString {points : List Nat} (h : style.Spells points) (rest : List Char) :
    lex (writeString style points ++ rest) = .string points :: lex rest := by
  obtain ⟨read, hread, hjoined⟩ := stringFrom_escaped (fun point hp => (h point hp).2)
    (fun point hp => (h point hp).1) rest
  have htext : writeString style points ++ rest =
      '"' :: (points.flatMap style.escape ++ '"' :: rest) := by
    simp [writeString]
  have htoken : tokenAt ('"' :: (points.flatMap style.escape ++ '"' :: rest)) =
      some (.string points, (points.flatMap style.escape).length + 1 + 1) := by
    rw [tokenAt, if_pos rfl, hread, Option.map_some, hjoined]
  have hrest : ('"' :: (points.flatMap style.escape ++ '"' :: rest)).drop
      ((points.flatMap style.escape).length + 1 + 1) = rest := by
    rw [List.drop_succ_cons, ← List.drop_drop, List.drop_left, List.drop_succ_cons, List.drop_zero]
  rw [htext, lex_token (by decide) htoken, hrest]

theorem lex_separator {mark : Char} {separator space : List Char} (hmark : isMark mark = true)
    (hsep : separator = mark :: space) (hspace : ∀ c ∈ space, isWhitespace c = true)
    (rest : List Char) : lex (separator ++ rest) = .mark mark :: lex rest := by
  rw [hsep, List.cons_append, lex_mark hmark, lex_leading hspace]

theorem clear_separator {mark : Char} {separator space : List Char} (hmark : isMark mark = true)
    (hsep : separator = mark :: space) (rest : List Char) : Clear (separator ++ rest) := by
  rw [hsep, List.cons_append]
  exact clear_of_mark hmark _

variable (hstyle : style.Marked)
include hstyle

theorem lex_writeItems {items : List (Json N)}
    (hitems : ∀ item ∈ items, ∀ rest, Clear rest →
      lex (write style item ++ rest) = tokens style item ++ lex rest) (h : Clear rest) :
    lex (writeItems style items ++ rest) = itemTokens style items ++ lex rest := by
  obtain ⟨space, hcomma, hspace⟩ := hstyle.comma
  induction items with
  | nil => rw [writeItems, itemTokens, List.nil_append, List.nil_append]
  | cons item more ih =>
    rw [List.forall_mem_cons] at hitems
    cases more with
    | nil => exact hitems.1 rest h
    | cons next more =>
      rw [writeItems, itemTokens, List.append_assoc, List.append_assoc,
        hitems.1 _ (clear_separator rfl hcomma _), lex_separator rfl hcomma hspace, ih hitems.2,
        List.append_assoc, List.cons_append]

theorem lex_writeFields {fields : List (List Nat × Json N)}
    (hspelled : ∀ field ∈ fields, style.Spells field.1)
    (hfields : ∀ field ∈ fields, ∀ rest, Clear rest →
      lex (write style field.2 ++ rest) = tokens style field.2 ++ lex rest) (h : Clear rest) :
    lex (writeFields style fields ++ rest) = fieldTokens style fields ++ lex rest := by
  obtain ⟨space, hcomma, hspace⟩ := hstyle.comma
  obtain ⟨gap, hcolon, hgap⟩ := hstyle.colon
  induction fields with
  | nil => rw [writeFields, fieldTokens, List.nil_append, List.nil_append]
  | cons field more ih =>
    obtain ⟨key, value⟩ := field
    rw [List.forall_mem_cons] at hspelled hfields
    cases more with
    | nil =>
      rw [writeFields, fieldTokens, List.append_assoc, List.append_assoc,
        lex_writeString hspelled.1, lex_separator rfl hcolon hgap, hfields.1 rest h,
        List.cons_append, List.cons_append]
    | cons next more =>
      rw [writeFields, fieldTokens, List.append_assoc, List.append_assoc, List.append_assoc,
        List.append_assoc, lex_writeString hspelled.1, lex_separator rfl hcolon hgap,
        hfields.1 _ (clear_separator rfl hcomma _), lex_separator rfl hcomma hspace,
        ih hspelled.2 hfields.2, List.cons_append, List.cons_append, List.append_assoc,
        List.cons_append]

/-- A document in front of a text that does not go on with its last word or number. -/
theorem lex_write {value : Json N} (hvalue : Legible style number value) :
    ∀ rest, Clear rest → lex (write style value ++ rest) = tokens style value ++ lex rest := by
  induction hvalue with
  | word word => exact fun rest h => lex_atom (word_solid word) (atomAt_word word) h
  | number hcounts => exact fun rest h => lex_atom hcounts.1 hcounts.2.1 h
  | string hspells => exact fun rest _ => lex_writeString hspells rest
  | array _ ih =>
    intro rest h
    rw [write, tokens, List.cons_append, List.append_assoc, List.singleton_append,
      lex_mark rfl, lex_writeItems hstyle ih (clear_of_mark rfl rest), lex_mark rfl,
      List.cons_append, List.append_assoc, List.singleton_append]
  | object _ hspelled _ ih =>
    intro rest h
    rw [write, tokens, List.cons_append, List.append_assoc, List.singleton_append,
      lex_mark rfl, lex_writeFields hstyle hspelled ih (clear_of_mark rfl rest), lex_mark rfl,
      List.cons_append, List.append_assoc, List.singleton_append]

end Lexing

/-! ## Reading the tokens -/

section Reading

variable {style : Style N} {number : List Char → Option N}

theorem readFrom_cons {place next : Place N} {token : Token} (h : step number place token = .ok next)
    (more : List Token) : readFrom number place (token :: more) = readFrom number next more := by
  rw [readFrom, h]
  rfl

/-- A token that does not close an array is read as the first item of one. -/
theorem step_first {token : Token} (h : token ≠ .mark ']') (stack : List (Frame N)) :
    step number (.first stack) token = step number (.value (.array [] :: stack)) token := by
  rw [step, step]
  exact h

def Reads (style : Style N) (number : List Char → Option N) (value : Json N) : Prop :=
  (∃ token rest, tokens style value = token :: rest ∧ token ≠ .mark ']') ∧
    ∀ stack more, readFrom number (.value stack) (tokens style value ++ more) =
      readFrom number (.after stack value) more

theorem readFrom_items {items : List (Json N)} (hitems : ∀ item ∈ items, Reads style number item)
    (hne : items ≠ []) (done : List (Json N)) (stack : List (Frame N)) (more : List Token) :
    readFrom number (.value (.array done :: stack)) (itemTokens style items ++ .mark ']' :: more) =
      readFrom number (.after stack (.array (done.reverse ++ items))) more := by
  induction items generalizing done with
  | nil => exact absurd rfl hne
  | cons item rest ih =>
    rw [List.forall_mem_cons] at hitems
    cases rest with
    | nil =>
      rw [itemTokens, hitems.1.2, readFrom_cons rfl, List.reverse_cons]
    | cons next rest =>
      rw [itemTokens, List.append_assoc, hitems.1.2, List.cons_append, readFrom_cons rfl,
        ih hitems.2 (List.cons_ne_nil _ _), List.reverse_cons, List.append_assoc,
        List.singleton_append]

theorem itemTokens_head {items : List (Json N)} (hitems : ∀ item ∈ items, Reads style number item)
    (hne : items ≠ []) :
    ∃ token rest, itemTokens style items = token :: rest ∧ token ≠ .mark ']' := by
  cases items with
  | nil => exact absurd rfl hne
  | cons item rest =>
    obtain ⟨token, behind, htokens, hopen⟩ := (hitems item List.mem_cons_self).1
    cases rest with
    | nil => exact ⟨token, behind, htokens, hopen⟩
    | cons next rest =>
      rw [itemTokens, htokens]
      exact ⟨token, _, rfl, hopen⟩

theorem dictSet_absent {fields : List (List Nat × Json N)} {key : List Nat} (value : Json N)
    (h : key ∉ fields.map (·.1)) : dictSet fields key value = fields ++ [(key, value)] := by
  induction fields with
  | nil => rfl
  | cons field rest ih =>
    obtain ⟨other, old⟩ := field
    rw [List.map_cons, List.mem_cons, not_or] at h
    rw [dictSet, if_neg (Ne.symm h.1), ih h.2, List.cons_append]

theorem readFrom_fields {fields : List (List Nat × Json N)}
    (hfields : ∀ field ∈ fields, Reads style number field.2) (hne : fields ≠ [])
    (done : List (List Nat × Json N)) (hkeys : ((done ++ fields).map (·.1)).Nodup)
    (stack : List (Frame N)) (more : List Token) :
    readFrom number (.key stack done) (fieldTokens style fields ++ .mark '\x7d' :: more) =
      readFrom number (.after stack (.object (done ++ fields))) more := by
  induction fields generalizing done with
  | nil => exact absurd rfl hne
  | cons field rest ih =>
    obtain ⟨key, value⟩ := field
    rw [List.forall_mem_cons] at hfields
    have habsent : key ∉ done.map (·.1) := by
      intro hmem
      rw [List.map_append, List.nodup_append] at hkeys
      exact hkeys.2.2 key hmem key (by simp) rfl
    cases rest with
    | nil =>
      rw [fieldTokens, List.cons_append, readFrom_cons rfl, List.cons_append, readFrom_cons rfl,
        hfields.1.2, readFrom_cons rfl, dictSet_absent value habsent]
    | cons next rest =>
      rw [fieldTokens, List.cons_append, readFrom_cons rfl, List.cons_append, readFrom_cons rfl,
        List.append_assoc, hfields.1.2, List.cons_append, readFrom_cons rfl,
        dictSet_absent value habsent, ih hfields.2 (List.cons_ne_nil _ _)]
      · rw [List.append_assoc, List.singleton_append]
      · rw [List.append_assoc, List.singleton_append]
        exact hkeys

theorem readFrom_tokens {value : Json N} (h : Legible style number value) :
    Reads style number value := by
  induction h with
  | word w => exact ⟨⟨_, _, rfl, by simp⟩, fun stack more => rfl⟩
  | @number value hcounts =>
    refine ⟨⟨_, _, rfl, by simp⟩, fun stack more => ?_⟩
    have hstep : step number (.value stack) (.number (style.number value)) =
        .ok (.after stack (.number value)) := by
      rw [step, begin, hcounts.2.2]
    rw [tokens, List.singleton_append, readFrom_cons hstep]
  | string _ => exact ⟨⟨_, _, rfl, by simp⟩, fun stack more => rfl⟩
  | @array items _ ih =>
    refine ⟨⟨_, _, rfl, by simp⟩, fun stack more => ?_⟩
    rw [tokens, List.cons_append, readFrom_cons rfl, List.append_assoc, List.singleton_append]
    by_cases hne : items = []
    · rw [hne]
      rfl
    · obtain ⟨token, rest, htokens, hopen⟩ := itemTokens_head ih hne
      have hfirst : readFrom number (.first stack) (itemTokens style items ++ .mark ']' :: more) =
          readFrom number (.value (.array [] :: stack))
            (itemTokens style items ++ .mark ']' :: more) := by
        rw [htokens, List.cons_append, readFrom, readFrom, step_first hopen]
      rw [hfirst, readFrom_items ih hne]
      rfl
  | @object fields hkeys _ _ ih =>
    refine ⟨⟨_, _, rfl, by simp⟩, fun stack more => ?_⟩
    rw [tokens, List.cons_append, readFrom_cons rfl, List.append_assoc, List.singleton_append]
    by_cases hne : fields = []
    · rw [hne]
      rfl
    · have hfirst : readFrom number (.firstKey stack)
          (fieldTokens style fields ++ .mark '\x7d' :: more) =
          readFrom number (.key stack []) (fieldTokens style fields ++ .mark '\x7d' :: more) := by
        cases fields with
        | nil => exact absurd rfl hne
        | cons field rest =>
          obtain ⟨key, value⟩ := field
          cases rest with
          | nil => rw [fieldTokens, List.cons_append, readFrom_cons rfl, readFrom_cons rfl]
          | cons next rest => rw [fieldTokens, List.cons_append, readFrom_cons rfl, readFrom_cons rfl]
      rw [hfirst, readFrom_fields ih hne [] hkeys]
      rfl

end Reading

theorem loads_write {style : Style N} {number : List Char → Option N} {value : Json N}
    (hstyle : style.Marked) (h : Legible style number value) :
    loads number (write style value) = .ok value := by
  have hlex := lex_write hstyle h [] (fun c hc => by cases hc)
  have hread := (readFrom_tokens h).2 [] []
  rw [List.append_nil] at hlex hread
  have hnil : lex [] = [] := rfl
  rw [loads, hlex, hnil, List.append_nil, hread]
  rfl

/-! ## What is read -/

/-- The documents that the reader makes: an object has each of its keys once, and a number is
what some literal stands for. -/
inductive Read (number : List Char → Option N) : Json N → Prop where
  | word (word : Word) : Read number (.word word)
  | number {literal : List Char} {value : N} (h : number literal = some value) :
    Read number (.number value)
  | string (points : List Nat) : Read number (.string points)
  | array {items : List (Json N)} (h : ∀ item ∈ items, Read number item) :
    Read number (.array items)
  | object {fields : List (List Nat × Json N)} (hkeys : (fields.map (·.1)).Nodup)
    (h : ∀ field ∈ fields, Read number field.2) : Read number (.object fields)

section Machine

variable {number : List Char → Option N}

def ReadFields (number : List Char → Option N) (fields : List (List Nat × Json N)) : Prop :=
  (fields.map (·.1)).Nodup ∧ ∀ field ∈ fields, Read number field.2

def Frame.Read (number : List Char → Option N) : Frame N → Prop
  | .array items => ∀ item ∈ items, Json.Read number item
  | .object fields _ => ReadFields number fields

def Place.Read (number : List Char → Option N) : Place N → Prop
  | .value stack | .first stack | .firstKey stack => ∀ frame ∈ stack, frame.Read number
  | .key stack fields | .colon stack fields _ =>
    (∀ frame ∈ stack, frame.Read number) ∧ ReadFields number fields
  | .after stack v => (∀ frame ∈ stack, frame.Read number) ∧ Json.Read number v

theorem mem_dictSet {fields : List (List Nat × Json N)} {key : List Nat} {value : Json N}
    {field : List Nat × Json N} (h : field ∈ dictSet fields key value) :
    field.2 = value ∨ field ∈ fields := by
  induction fields with
  | nil =>
    rw [List.mem_singleton.mp h]
    exact .inl rfl
  | cons first rest ih =>
    obtain ⟨other, old⟩ := first
    unfold dictSet at h
    by_cases hkey : other = key
    · rw [if_pos hkey] at h
      cases List.mem_cons.mp h with
      | inl heq =>
        rw [heq]
        exact .inl rfl
      | inr hrest => exact .inr (List.mem_cons_of_mem _ hrest)
    · rw [if_neg hkey] at h
      cases List.mem_cons.mp h with
      | inl heq =>
        rw [heq]
        exact .inr List.mem_cons_self
      | inr hrest =>
        cases ih hrest with
        | inl hvalue => exact .inl hvalue
        | inr hmem => exact .inr (List.mem_cons_of_mem _ hmem)

theorem ReadFields.set {fields : List (List Nat × Json N)} (h : ReadFields number fields)
    (key : List Nat) {value : Json N} (hvalue : Json.Read number value) :
    ReadFields number (dictSet fields key value) := by
  refine ⟨dictSet_nodup key value h.1, fun field hfield => ?_⟩
  cases mem_dictSet hfield with
  | inl hnew =>
    rw [hnew]
    exact hvalue
  | inr hold => exact h.2 field hold

theorem begin_read {stack : List (Frame N)} {token : Token} {next : Place N}
    (h : ∀ frame ∈ stack, frame.Read number) (hstep : begin number stack token = .ok next) :
    next.Read number := by
  unfold begin at hstep
  split at hstep
  · cases hstep
    exact h
  · cases hstep
    exact h
  · cases hstep
    exact ⟨h, .word _⟩
  · cases hstep
    exact ⟨h, .string _⟩
  · split at hstep
    · rename_i value hvalue
      cases hstep
      exact ⟨h, .number hvalue⟩
    · cases hstep
  · cases hstep

theorem step_read {place next : Place N} {token : Token} (h : place.Read number)
    (hstep : step number place token = .ok next) : next.Read number := by
  have hempty : ReadFields number [] := ⟨List.nodup_nil, fun _ hmem => absurd hmem List.not_mem_nil⟩
  unfold step at hstep
  split at hstep
  · exact begin_read h hstep
  · cases hstep
    exact ⟨h, .array fun _ hmem => absurd hmem List.not_mem_nil⟩
  · refine begin_read ?_ hstep
    exact List.forall_mem_cons.mpr ⟨fun _ hmem => absurd hmem List.not_mem_nil, h⟩
  · cases hstep
    exact ⟨h, .object hempty.1 hempty.2⟩
  · cases hstep
    exact ⟨h, hempty⟩
  · cases hstep
    exact h
  · cases hstep
    exact List.forall_mem_cons.mpr ⟨h.2, h.1⟩
  · cases hstep
    have hstack := List.forall_mem_cons.mp h.1
    exact List.forall_mem_cons.mpr ⟨List.forall_mem_cons.mpr ⟨h.2, hstack.1⟩, hstack.2⟩
  · cases hstep
    have hstack := List.forall_mem_cons.mp h.1
    refine ⟨hstack.2, .array fun item hitem => ?_⟩
    exact List.forall_mem_cons.mpr ⟨h.2, hstack.1⟩ item (List.mem_reverse.mp hitem)
  · cases hstep
    have hstack := List.forall_mem_cons.mp h.1
    exact ⟨hstack.2, hstack.1.set _ h.2⟩
  · cases hstep
    have hstack := List.forall_mem_cons.mp h.1
    exact ⟨hstack.2, .object (hstack.1.set _ h.2).1 (hstack.1.set _ h.2).2⟩
  · cases hstep

theorem readFrom_read {tokens : List Token} {place : Place N} {value : Json N}
    (h : place.Read number) (hread : readFrom number place tokens = .ok value) :
    Json.Read number value := by
  induction tokens generalizing place with
  | nil =>
    unfold readFrom at hread
    split at hread
    · cases hread
      exact h.2
    · cases hread
  | cons token rest ih =>
    obtain ⟨next, hstep, hrest⟩ := Except.bind_ok.mp hread
    exact ih (step_read h hstep) hrest

end Machine

theorem loads_read {number : List Char → Option N} {text : List Char} {value : Json N}
    (h : loads number text = .ok value) : Read number value := by
  have hplace : Place.Read number (.value []) := fun _ hmem => absurd hmem List.not_mem_nil
  exact readFrom_read hplace h

end Json

end Text
end BaseAgent
