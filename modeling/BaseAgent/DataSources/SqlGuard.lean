import BaseAgent.Models.Unicode
import BaseAgent.Text.Brackets
import BaseAgent.Text.Quotes

/-!
# The guard of the MTBI data source

`_bounded_select` accepts one `SELECT` or `WITH` statement and puts it into a query with a limit.
It finds the words of the text with a scanner of its own, which passes over quoted text and reads a
backslash in it as an escape.
-/

namespace BaseAgent
namespace DataSources

open Text

inductive SqlError where
  | value (message : String)
  | permission (message : String)
  deriving DecidableEq, Repr

def forbiddenQueryWords : List String :=
  ["alter", "attach", "cache", "call", "comment", "copy", "create", "delete", "detach", "drop",
    "execute", "grant", "insert", "load", "merge", "msck", "optimize", "refresh", "repair",
    "replace", "revoke", "set", "truncate", "uncache", "unload", "update", "use", "vacuum"]

def isQuote (c : Char) : Bool := c == '\'' || c == '"' || c.toNat == 0x60

section Scanner

variable (tables : Unicode)

def startsWord (c : Char) : Bool := tables.isalpha c || c == '_'

def continuesWord (c : Char) : Bool := tables.isalnum c || c == '_' || c == '$'

/-- `_scan_sql_words`.  `skip` characters have been read ahead. -/
def scanSqlWords (quote : Option Char) (skip : Nat) :
    List Char → Except SqlError (List (List Char))
  | [] =>
    if quote.isSome then .error (.value "SQL contains an unterminated quoted value") else .ok []
  | character :: rest =>
    match skip with
    | skip + 1 => scanSqlWords quote skip rest
    | 0 =>
      match quote with
      | some q =>
        if character = q then
          if rest.head? = some q then scanSqlWords quote 1 rest else scanSqlWords none 0 rest
        else if character = '\\' ∧ rest ≠ [] then scanSqlWords quote 1 rest
        else scanSqlWords quote 0 rest
      | none =>
        if isQuote character then scanSqlWords (some character) 0 rest
        else if character = ';' then
          .error (.permission "MTBI DataSource accepts one SQL statement only")
        else if (character = '-' ∧ rest.head? = some '-') ∨
            (character = '/' ∧ rest.head? = some '*') then
          .error (.permission "SQL comments are not accepted by MTBI DataSource")
        else if startsWord tables character then do
          let word := rest.takeWhile (continuesWord tables)
          let words ← scanSqlWords none word.length rest
          return tables.fold (character :: word) :: words
        else scanSqlWords none 0 rest

/-- The text without white space around it and without a semicolon at its end. -/
def normalizedSql (sql : String) : List Char :=
  let text := (strip sql).toList
  if text.getLast? = some ';' then (text.dropLast.reverse.dropWhile isSpace).reverse else text

def boundedSelect (sql : String) (limit : Int) (maxCharacters : Nat) : Except SqlError String := do
  raiseIf (strip sql = "") (.value "SQL must not be blank")
  raiseIf (maxCharacters < (strip sql).length) (.value s!"SQL exceeds {maxCharacters} characters")
  raiseIf (Char.ofNat 0 ∈ (strip sql).toList) (.value "SQL must not contain NUL characters")
  let words ← scanSqlWords tables none 0 (normalizedSql sql)
  raiseIf (words.head? ≠ some "select".toList ∧ words.head? ≠ some "with".toList)
    (.permission "MTBI DataSource accepts SELECT/WITH queries only")
  let forbidden := forbiddenQueryWords.filter fun word => words.contains word.toList
  raiseIf (forbidden ≠ [])
    (.permission ("MTBI DataSource rejected SQL keyword(s): " ++ ", ".intercalate forbidden))
  return "SELECT * FROM (\n" ++ String.ofList (normalizedSql sql) ++
    s!"\n) AS base_agent_bounded_query LIMIT {limit + 1}"

end Scanner

/-! ## What the scanner sees -/

def guardQuoting : Quoting Char := ⟨isQuote, some '\\'⟩

/-- The two ways in which the engines read it. -/
inductive Convention where
  /-- A backslash is an ordinary character. -/
  | ordinary
  /-- A backslash escapes the next character. -/
  | escaping
  deriving DecidableEq, Repr

def Convention.quoting : Convention → Quoting Char
  | .ordinary => guardQuoting.plain
  | .escaping => guardQuoting

structure OneStatement (shown : List (Option Char)) : Prop where
  semicolon : some ';' ∉ shown
  dashes : ¬ [some '-', some '-'] <:+: shown
  star : ¬ [some '/', some '*'] <:+: shown

section Shown

variable (tables : Unicode)

/-- The words outside the quoted text, as the scanner returns them. -/
def shownWords (skip : Nat) (shown : List (Option Char)) : List (List Char) :=
  (words (startsWord tables) (continuesWord tables) skip shown).map tables.fold

/-- The text ends outside quotes, and shows one statement without a forbidden word. -/
def Harmless (quoting : Quoting Char) (text : List Char) : Prop :=
  ∃ shown, quoting.unquoted {} text = some shown ∧ OneStatement shown ∧
    ∀ word ∈ forbiddenQueryWords, word.toList ∉ shownWords tables 0 shown

theorem OneStatement.cons {a : Option Char} {shown : List (Option Char)} :
    OneStatement (a :: shown) ↔ OneStatement shown ∧ a ≠ some ';' ∧
      ¬ (a = some '-' ∧ shown.head? = some (some '-')) ∧
      ¬ (a = some '/' ∧ shown.head? = some (some '*')) := by
  have hpair : ∀ x y : Option Char, [x, y] <:+: a :: shown ↔
      (a = x ∧ shown.head? = some y) ∨ [x, y] <:+: shown := by
    intro x y
    rw [List.infix_cons_iff]
    refine or_congr_left ?_
    cases shown with
    | nil => simp
    | cons b rest => simp [List.cons_prefix_cons, eq_comm]
  constructor
  · intro h
    obtain ⟨hsemicolon, hdashes, hstar⟩ := h
    rw [hpair, not_or] at hdashes hstar
    rw [List.mem_cons, not_or] at hsemicolon
    exact ⟨⟨hsemicolon.2, hdashes.2, hstar.2⟩, Ne.symm hsemicolon.1, hdashes.1, hstar.1⟩
  · rintro ⟨⟨hsemicolon, hdashes, hstar⟩, hchar, hdash, hslash⟩
    refine ⟨?_, ?_, ?_⟩
    · rw [List.mem_cons, not_or]
      exact ⟨Ne.symm hchar, hsemicolon⟩
    · rw [hpair, not_or]
      exact ⟨hdash, hdashes⟩
    · rw [hpair, not_or]
      exact ⟨hslash, hstar⟩

theorem OneStatement.nil : OneStatement [] := by
  refine ⟨?_, ?_, ?_⟩ <;> simp

/-! ## Characters of words -/

theorem continuesWord_ascii {c : Char} (h : c.toNat < 128) :
    continuesWord tables c = (c.isAlphanum || c == '_' || c == '$') := by
  rw [continuesWord, tables.isalnum_ascii c h]

theorem continuesWord_quote {c : Char} (h : isQuote c = true) : continuesWord tables c = false := by
  simp only [isQuote, Bool.or_eq_true, beq_iff_eq] at h
  obtain (rfl | rfl) | h := h
  · rw [continuesWord_ascii _ (by decide)]
    decide
  · rw [continuesWord_ascii _ (by decide)]
    decide
  · have hc : c = Char.ofNat 0x60 := by
      rw [← h]
      exact (Char.ofNat_toNat c).symm
    subst hc
    rw [continuesWord_ascii _ (by decide)]
    decide

theorem continuesWord_mark {c : Char} (h : c = ';' ∨ c = '-' ∨ c = '/' ∨ c = '\\') :
    continuesWord tables c = false := by
  rcases h with rfl | rfl | rfl | rfl
  · rw [continuesWord_ascii _ (by decide)]
    decide
  · rw [continuesWord_ascii _ (by decide)]
    decide
  · rw [continuesWord_ascii _ (by decide)]
    decide
  · rw [continuesWord_ascii _ (by decide)]
    decide

variable {tables} {Q : Quoting Char} {text : List Char} {shown : List (Option Char)}

theorem unquoted_start_cons {c : Char} {rest : List Char} (hc : Q.quotes c = false) :
    Q.unquoted {} (c :: rest) = (Q.unquoted {} rest).map (some c :: ·) := by
  rw [Quoting.unquoted, Quoting.next_outside _ hc, Quoting.shown_outside _ hc]

theorem unquoted_start_quote {c : Char} {rest : List Char} (hc : Q.quotes c = true) :
    Q.unquoted {} (c :: rest) = (Q.unquoted ⟨some c, 0⟩ rest).map (none :: ·) := by
  rw [Quoting.unquoted, Quoting.next_open _ hc, Quoting.shown_quote _ hc]

theorem shown_head (h : Q.unquoted {} text = some shown) {c : Char}
    (hc : Q.quotes c = false) : shown.head? = some (some c) ↔ text.head? = some c := by
  cases text with
  | nil =>
    cases h
    simp
  | cons d rest =>
    by_cases hd : Q.quotes d = true
    · rw [unquoted_start_quote hd, Option.map_eq_some_iff] at h
      obtain ⟨v, -, rfl⟩ := h
      simp only [List.head?_cons, Option.some.injEq, reduceCtorEq, false_iff]
      rintro rfl
      rw [hc] at hd
      cases hd
    · rw [unquoted_start_cons (by simpa using hd), Option.map_eq_some_iff] at h
      obtain ⟨v, -, rfl⟩ := h
      simp

theorem wordRest_shown (hQ : Q.quotes = isQuote) (h : Q.unquoted {} text = some shown) :
    wordRest (continuesWord tables) shown = text.takeWhile (continuesWord tables) := by
  induction text generalizing shown with
  | nil =>
    cases h
    rfl
  | cons c rest ih =>
    by_cases hc : Q.quotes c = true
    · rw [unquoted_start_quote hc, Option.map_eq_some_iff] at h
      obtain ⟨v, -, rfl⟩ := h
      rw [List.takeWhile_cons_of_neg (by
        rw [continuesWord_quote tables (by rw [← hQ]; exact hc)]
        simp)]
      rfl
    · rw [unquoted_start_cons (by simpa using hc), Option.map_eq_some_iff] at h
      obtain ⟨v, hv, rfl⟩ := h
      rw [wordRest]
      by_cases hword : continuesWord tables c = true
      · rw [if_pos hword, List.takeWhile_cons_of_pos hword, ih hv]
      · rw [if_neg hword, List.takeWhile_cons_of_neg hword]

/-! ## The scanner reads what is shown -/

def Scans (tables : Unicode) (result : Except SqlError (List (List Char))) (skip : Nat)
    (shown : Option (List (Option Char))) : Prop :=
  ∀ found, result = .ok found ↔
    ∃ v, shown = some v ∧ OneStatement v ∧ found = shownWords tables skip v

theorem Scans.map_hidden {result : Except SqlError (List (List Char))}
    {shown : Option (List (Option Char))} (h : Scans tables result 0 shown) :
    Scans tables result 0 (shown.map (none :: ·)) := by
  intro found
  rw [h found]
  constructor
  · rintro ⟨v, rfl, hone, rfl⟩
    exact ⟨none :: v, rfl, OneStatement.cons.mpr ⟨hone, by simp⟩, rfl⟩
  · rintro ⟨v, hv, hone, rfl⟩
    rw [Option.map_eq_some_iff] at hv
    obtain ⟨v', rfl, rfl⟩ := hv
    exact ⟨v', rfl, (OneStatement.cons.mp hone).1, rfl⟩

theorem Scans.map_shown {result : Except SqlError (List (List Char))} {c : Char}
    {shown : Option (List (Option Char))} {skip skip' : Nat} (h : Scans tables result skip shown)
    (hone : ∀ v, shown = some v → OneStatement v → OneStatement (some c :: v))
    (hwords : ∀ v, shown = some v →
      shownWords tables skip' (some c :: v) = shownWords tables skip v) :
    Scans tables result skip' (shown.map (some c :: ·)) := by
  intro found
  rw [h found]
  constructor
  · rintro ⟨v, hv, hv', rfl⟩
    refine ⟨some c :: v, by rw [hv]; rfl, hone v hv hv', (hwords v hv).symm⟩
  · rintro ⟨v, hv, hv', rfl⟩
    rw [Option.map_eq_some_iff] at hv
    obtain ⟨v', hshown, rfl⟩ := hv
    exact ⟨v', hshown, (OneStatement.cons.mp hv').1, hwords v' hshown⟩

theorem scans_refused {error : SqlError} {skip : Nat} {shown : Option (List (Option Char))}
    (h : ∀ v, shown = some v → ¬ OneStatement v) :
    Scans tables (.error error) skip shown := by
  intro found
  constructor
  · intro hfound
    cases hfound
  · rintro ⟨v, hv, hone, -⟩
    exact absurd hone (h v hv)

structure ScansRest (tables : Unicode) (rest : List Char) : Prop where
  inside : ∀ q skip, Scans tables (scanSqlWords tables (some q) skip rest) 0
    (guardQuoting.unquoted ⟨some q, skip⟩ rest)
  outside : ∀ skip, (∀ c ∈ rest.take skip, continuesWord tables c = true) →
    Scans tables (scanSqlWords tables none skip rest) skip (guardQuoting.unquoted {} rest)

theorem ScansRest.start {rest : List Char} (h : ScansRest tables rest) :
    Scans tables (scanSqlWords tables none 0 rest) 0 (guardQuoting.unquoted {} rest) :=
  h.outside 0 (by simp)

theorem ScansRest.quoted {rest : List Char} (h : ScansRest tables rest) (c q : Char)
    (skip : Nat) : Scans tables (scanSqlWords tables (some q) skip (c :: rest)) 0
      (guardQuoting.unquoted ⟨some q, skip⟩ (c :: rest)) := by
  rw [Quoting.unquoted, Quoting.shown_inside]
  apply Scans.map_hidden
  cases skip with
  | succ n => exact h.inside q n
  | zero =>
    rw [scanSqlWords]
    by_cases hc : c = q
    · subst hc
      rw [if_pos rfl]
      by_cases hahead : rest.head? = some c
      · rw [if_pos hahead, hahead, Quoting.next_doubled]
        exact h.inside c 1
      · rw [if_neg hahead, Quoting.next_close _ hahead]
        exact h.start
    · rw [if_neg hc, Quoting.next_inside _ hc]
      by_cases hescape : c = '\\'
      · subst hescape
        rw [if_pos (show guardQuoting.escape = some '\\' from rfl)]
        cases rest with
        | nil =>
          apply scans_refused
          intro v hv
          cases hv
        | cons d more =>
          rw [if_pos ⟨rfl, by simp⟩]
          exact h.inside q 1
      · have hno : guardQuoting.escape ≠ some c := fun heq => hescape (Option.some.inj heq).symm
        rw [if_neg fun heq => hescape heq.1, if_neg hno]
        exact h.inside q 0

theorem ScansRest.word {rest : List Char} (h : ScansRest tables rest) {c : Char} {skip : Nat}
    (hskip : ∀ d ∈ (c :: rest).take (skip + 1), continuesWord tables d = true) :
    Scans tables (scanSqlWords tables none (skip + 1) (c :: rest)) (skip + 1)
      (guardQuoting.unquoted {} (c :: rest)) := by
  rw [List.take_succ_cons, List.forall_mem_cons] at hskip
  obtain ⟨hword, hrest⟩ := hskip
  have hquote : guardQuoting.quotes c = false := by
    by_contra hq
    rw [continuesWord_quote tables (c := c) (by simpa [guardQuoting] using hq)] at hword
    cases hword
  have hmark : ¬ (c = ';' ∨ c = '-' ∨ c = '/' ∨ c = '\\') := by
    intro hmark
    rw [continuesWord_mark tables hmark] at hword
    cases hword
  rw [unquoted_start_cons hquote]
  apply Scans.map_shown (h.outside skip hrest)
  · intro v _ hone
    apply OneStatement.cons.mpr
    refine ⟨hone, ?_, ?_, ?_⟩
    · intro heq
      exact hmark (.inl (Option.some.inj heq))
    · intro heq
      exact hmark (.inr (.inl (Option.some.inj heq.1)))
    · intro heq
      exact hmark (.inr (.inr (.inl (Option.some.inj heq.1))))
  · intro v _
    rfl

theorem ScansRest.start_word {rest : List Char} (h : ScansRest tables rest) {c : Char}
    (hstarts : startsWord tables c = true)
    (hone : ∀ v, guardQuoting.unquoted {} rest = some v → OneStatement v →
      OneStatement (some c :: v)) :
    Scans tables (do
        let found ← scanSqlWords tables none (rest.takeWhile (continuesWord tables)).length rest
        return tables.fold (c :: rest.takeWhile (continuesWord tables)) :: found) 0
      ((guardQuoting.unquoted {} rest).map (some c :: ·)) := by
  have hword := h.outside (rest.takeWhile (continuesWord tables)).length (by
    rw [← List.prefix_iff_eq_take.mp (List.takeWhile_prefix _)]
    exact List.all_eq_true.mp List.all_takeWhile)
  have hwords : ∀ v, guardQuoting.unquoted {} rest = some v →
      shownWords tables 0 (some c :: v) = tables.fold (c :: rest.takeWhile (continuesWord tables)) ::
        shownWords tables (rest.takeWhile (continuesWord tables)).length v := by
    intro v hv
    unfold shownWords
    rw [words, if_pos hstarts, wordRest_shown rfl hv, List.map_cons]
  intro found
  rw [Except.bind_ok]
  constructor
  · rintro ⟨more, hmore, hfound⟩
    obtain ⟨v, hv, hv', rfl⟩ := (hword more).mp hmore
    cases hfound
    exact ⟨some c :: v, by rw [hv]; rfl, hone v hv hv', (hwords v hv).symm⟩
  · rintro ⟨v, hv, hv', rfl⟩
    rw [Option.map_eq_some_iff] at hv
    obtain ⟨v, hv, rfl⟩ := hv
    exact ⟨_, (hword _).mpr ⟨v, hv, (OneStatement.cons.mp hv').1, rfl⟩, by rw [hwords v hv]; rfl⟩

theorem ScansRest.unquoted {rest : List Char} (h : ScansRest tables rest) (c : Char) :
    Scans tables (scanSqlWords tables none 0 (c :: rest)) 0
      (guardQuoting.unquoted {} (c :: rest)) := by
  rw [scanSqlWords]
  by_cases hquote : isQuote c = true
  · rw [if_pos hquote, unquoted_start_quote (show guardQuoting.quotes c = true from hquote)]
    exact Scans.map_hidden (h.inside c 0)
  · rw [if_neg hquote, unquoted_start_cons (by simpa [guardQuoting] using hquote)]
    have hdash : ∀ v, guardQuoting.unquoted {} rest = some v →
        (v.head? = some (some '-') ↔ rest.head? = some '-') := fun v hv => shown_head hv rfl
    have hstar : ∀ v, guardQuoting.unquoted {} rest = some v →
        (v.head? = some (some '*') ↔ rest.head? = some '*') := fun v hv => shown_head hv rfl
    by_cases hsemicolon : c = ';'
    · rw [if_pos hsemicolon]
      apply scans_refused
      intro v hv hone
      rw [Option.map_eq_some_iff] at hv
      obtain ⟨v, -, rfl⟩ := hv
      exact (OneStatement.cons.mp hone).2.1 (by rw [hsemicolon])
    · rw [if_neg hsemicolon]
      by_cases hcomment : (c = '-' ∧ rest.head? = some '-') ∨ (c = '/' ∧ rest.head? = some '*')
      · rw [if_pos hcomment]
        apply scans_refused
        intro v hv hone
        rw [Option.map_eq_some_iff] at hv
        obtain ⟨v, hv, rfl⟩ := hv
        obtain ⟨-, -, hnodash, hnostar⟩ := OneStatement.cons.mp hone
        cases hcomment with
        | inl heq => exact hnodash ⟨by rw [heq.1], (hdash v hv).mpr heq.2⟩
        | inr heq => exact hnostar ⟨by rw [heq.1], (hstar v hv).mpr heq.2⟩
      · rw [if_neg hcomment]
        have hone : ∀ v, guardQuoting.unquoted {} rest = some v → OneStatement v →
            OneStatement (some c :: v) := by
          intro v hv hone
          apply OneStatement.cons.mpr
          refine ⟨hone, ?_, ?_, ?_⟩
          · intro heq
            exact hsemicolon (Option.some.inj heq)
          · intro heq
            exact hcomment (.inl ⟨Option.some.inj heq.1, (hdash v hv).mp heq.2⟩)
          · intro heq
            exact hcomment (.inr ⟨Option.some.inj heq.1, (hstar v hv).mp heq.2⟩)
        by_cases hstarts : startsWord tables c = true
        · rw [if_pos hstarts]
          exact h.start_word hstarts hone
        · rw [if_neg hstarts]
          apply Scans.map_shown h.start hone
          intro v _
          unfold shownWords
          rw [words, if_neg hstarts]

theorem scanSqlWords_scansRest (text : List Char) : ScansRest tables text := by
  induction text with
  | nil =>
    constructor
    · intro q skip
      apply scans_refused
      intro v hv
      cases hv
    · intro skip _ found
      constructor
      · intro hfound
        cases hfound
        exact ⟨[], rfl, OneStatement.nil, rfl⟩
      · rintro ⟨v, hv, -, rfl⟩
        cases hv
        rfl
  | cons c rest ih =>
    constructor
    · exact fun q skip => ih.quoted c q skip
    · intro skip hskip
      cases skip with
      | zero => exact ih.unquoted c
      | succ skip => exact ih.word hskip

/-- The scanner returns the words that are shown, when one statement is. -/
theorem scanSqlWords_scans (text : List Char) :
    Scans tables (scanSqlWords tables none 0 text) 0 (guardQuoting.unquoted {} text) :=
  (scanSqlWords_scansRest text).start

def passes (tables : Unicode) (text : List Char) : Bool :=
  match scanSqlWords tables none 0 text with
  | .ok found => forbiddenQueryWords.all fun word => !found.contains word.toList
  | .error _ => false

theorem passes_iff : passes tables text = true ↔ Harmless tables guardQuoting text := by
  unfold passes
  constructor
  · intro h
    split at h
    · rename_i found hfound
      obtain ⟨v, hv, hone, rfl⟩ := (scanSqlWords_scans text found).mp hfound
      refine ⟨v, hv, hone, fun word hword hmem => ?_⟩
      rw [List.all_eq_true] at h
      have := h word hword
      simp [hmem] at this
    · cases h
  · rintro ⟨v, hv, hone, hforbidden⟩
    rw [(scanSqlWords_scans text _).mpr ⟨v, hv, hone, rfl⟩]
    simp only [List.all_eq_true]
    intro word hword
    simpa using hforbidden word hword

/-! ## A backslash that is doubled -/

/-- `text.replace("\\", "\\\\")`. -/
def doubled (text : List Char) : List Char :=
  text.flatMap fun c => if c = '\\' then ['\\', '\\'] else [c]

/-- What is shown of a text, and of the text with its backslashes doubled. -/
inductive Doubles : List (Option Char) → List (Option Char) → Prop
  | nil : Doubles [] []
  | same {shown shown' : List (Option Char)} (a : Option Char) :
    Doubles shown shown' → Doubles (a :: shown) (a :: shown')
  | hidden {shown shown' : List (Option Char)} :
    Doubles shown shown' → Doubles (none :: shown) (none :: none :: shown')
  | backslash {shown shown' : List (Option Char)} :
    Doubles shown shown' →
      Doubles (some '\\' :: shown) (some '\\' :: some '\\' :: shown')

namespace Doubles

variable {shown' : List (Option Char)}

theorem head? (h : Doubles shown shown') : shown'.head? = shown.head? := by
  cases h <;> rfl

theorem oneStatement (h : Doubles shown shown') : OneStatement shown ↔ OneStatement shown' := by
  induction h with
  | nil => exact Iff.rfl
  | same a hrest ih => rw [OneStatement.cons, OneStatement.cons, ih, hrest.head?]
  | hidden hrest ih => simp [OneStatement.cons, ih]
  | backslash hrest ih => simp [OneStatement.cons, ih]

theorem wordRest_eq (h : Doubles shown shown') :
    wordRest (continuesWord tables) shown' = wordRest (continuesWord tables) shown := by
  have hmark : continuesWord tables '\\' = false := continuesWord_mark tables (by simp)
  induction h with
  | nil => rfl
  | same a hrest ih =>
    cases a with
    | none => rfl
    | some c => rw [wordRest, wordRest, ih]
  | hidden hrest ih => rfl
  | backslash hrest ih => simp [wordRest, hmark]

theorem words_eq (h : Doubles shown shown') {skip : Nat}
    (hskip : skip ≤ (wordRest (continuesWord tables) shown).length) :
    words (startsWord tables) (continuesWord tables) skip shown' =
      words (startsWord tables) (continuesWord tables) skip shown := by
  have hmark : continuesWord tables '\\' = false := continuesWord_mark tables (by simp)
  have hletter : startsWord tables '\\' = false := by
    rw [startsWord, tables.isalpha_ascii _ (by decide)]
    decide
  induction h generalizing skip with
  | nil => rfl
  | @same shown shown' a hrest ih =>
    cases a with
    | none =>
      obtain rfl : skip = 0 := by simpa [wordRest] using hskip
      rw [words, words, ih (Nat.zero_le _)]
    | some c =>
      cases skip with
      | zero =>
        by_cases hstarts : startsWord tables c = true
        · rw [words, words, if_pos hstarts, if_pos hstarts, hrest.wordRest_eq, ih le_rfl]
        · rw [words, words, if_neg hstarts, if_neg hstarts, ih (Nat.zero_le _)]
      | succ skip =>
        rw [words, words]
        apply ih
        by_cases hword : continuesWord tables c = true
        · rw [wordRest, if_pos hword, List.length_cons] at hskip
          omega
        · rw [wordRest, if_neg hword, List.length_nil] at hskip
          omega
  | hidden hrest ih =>
    obtain rfl : skip = 0 := by simpa [wordRest] using hskip
    rw [words, words, words, ih (Nat.zero_le _)]
  | backslash hrest ih =>
    obtain rfl : skip = 0 := by simpa [wordRest, hmark] using hskip
    simp [words, hletter, ih (Nat.zero_le _)]

end Doubles

theorem doubled_head? (text : List Char) : (doubled text).head? = text.head? := by
  cases text with
  | nil => rfl
  | cons c rest =>
    by_cases hc : c = '\\'
    · simp [doubled, hc]
    · simp [doubled, hc]

theorem doubled_backslash (rest : List Char) :
    doubled ('\\' :: rest) = '\\' :: '\\' :: doubled rest := rfl

theorem doubled_other {c : Char} (hc : c ≠ '\\') (rest : List Char) :
    doubled (c :: rest) = c :: doubled rest := by
  simp [doubled, hc]

theorem Doubles.map {shown shown' : Option (List (Option Char))}
    (h : Option.Rel Doubles shown shown')
    {f g : List (Option Char) → List (Option Char)}
    (hstep : ∀ {v v' : List (Option Char)}, Doubles v v' → Doubles (f v) (g v')) :
    Option.Rel Doubles (shown.map f) (shown'.map g) := by
  cases h with
  | some hdoubles => exact .some (hstep hdoubles)
  | none => exact .none

theorem doubles_same {c : Char} {rest rest' : List Char} {s : Reading Char}
    (hnext : guardQuoting.next s c rest'.head? = guardQuoting.plain.next s c rest.head?)
    (h : Option.Rel Doubles (guardQuoting.plain.unquoted (guardQuoting.plain.next s c rest.head?) rest)
      (guardQuoting.unquoted (guardQuoting.plain.next s c rest.head?) rest')) :
    Option.Rel Doubles (guardQuoting.plain.unquoted s (c :: rest))
      (guardQuoting.unquoted s (c :: rest')) := by
  rw [Quoting.unquoted, Quoting.unquoted, hnext]
  exact Doubles.map h fun hdoubles => hdoubles.same _

theorem quotes_ne_backslash {c : Char} (h : isQuote c = true) : c ≠ '\\' := by
  rintro rfl
  revert h
  decide

/-- Read with escapes, the doubled text shows what the text shows when it is read without. -/
theorem unquoted_doubled (text : List Char) (s : Reading Char)
    (hquote : ∀ q, s.quote = some q → isQuote q = true)
    (hskip : s.skip = 0 ∨ (s.skip = 1 ∧ s.quote.isSome = true ∧ s.quote = text.head?)) :
    Option.Rel Doubles (guardQuoting.plain.unquoted s text)
      (guardQuoting.unquoted s (doubled text)) := by
  induction text generalizing s with
  | nil =>
    show Option.Rel Doubles (if s.quote = none then some [] else none)
      (if s.quote = none then some [] else none)
    split
    · exact .some .nil
    · exact .none
  | cons c rest ih =>
    obtain ⟨quote, skip⟩ := s
    obtain rfl | ⟨rfl, -, hhead⟩ := hskip
    · cases quote with
      | none =>
        by_cases hc : isQuote c = true
        · rw [doubled_other (quotes_ne_backslash hc)]
          apply doubles_same rfl
          rw [Quoting.next_open _ (show guardQuoting.plain.quotes c = true from hc)]
          refine ih _ (fun q hq => ?_) (.inl rfl)
          rw [← Option.some.inj hq]
          exact hc
        · have hplain : guardQuoting.quotes c = false := by simpa [guardQuoting] using hc
          have hstart := ih {} (by simp) (.inl rfl)
          by_cases hslash : c = '\\'
          · subst hslash
            rw [doubled_backslash, unquoted_start_cons hplain, unquoted_start_cons hplain,
              unquoted_start_cons (show guardQuoting.plain.quotes '\\' = false from hplain)]
            rw [Option.map_map]
            exact Doubles.map hstart Doubles.backslash
          · rw [doubled_other hslash]
            apply doubles_same rfl
            rw [Quoting.next_outside _ (show guardQuoting.plain.quotes c = false from hplain)]
            exact hstart
      | some q =>
        have hq : isQuote q = true := hquote q rfl
        by_cases hc : c = q
        · subst hc
          rw [doubled_other (quotes_ne_backslash hq)]
          by_cases hahead : rest.head? = some c
          · apply doubles_same
            · rw [doubled_head?, hahead, Quoting.next_doubled, Quoting.next_doubled]
            · rw [hahead, Quoting.next_doubled]
              exact ih _ hquote (.inr ⟨rfl, rfl, hahead.symm⟩)
          · apply doubles_same
            · rw [doubled_head?, Quoting.next_close _ hahead, Quoting.next_close _ hahead]
            · rw [Quoting.next_close _ hahead]
              exact ih {} (by simp) (.inl rfl)
        · have hnext : ∀ ahead, guardQuoting.plain.next ⟨some q, 0⟩ c ahead = ⟨some q, 0⟩ := by
            intro ahead
            rw [Quoting.next_inside _ hc]
            rfl
          by_cases hslash : c = '\\'
          · subst hslash
            have hinside := ih ⟨some q, 0⟩ hquote (.inl rfl)
            rw [doubled_backslash, Quoting.unquoted, Quoting.unquoted, Quoting.unquoted, hnext,
              Quoting.next_inside _ hc, if_pos (show guardQuoting.escape = some '\\' from rfl),
              Quoting.next_skip, Quoting.shown_inside, Quoting.shown_inside, Quoting.shown_inside]
            rw [Option.map_map]
            exact Doubles.map hinside Doubles.hidden
          · rw [doubled_other hslash]
            apply doubles_same
            · have hno : guardQuoting.escape ≠ some c := fun h => hslash (Option.some.inj h).symm
              rw [hnext, Quoting.next_inside _ hc, if_neg hno]
            · rw [hnext]
              exact ih _ hquote (.inl rfl)
    · obtain rfl : quote = some c := hhead
      rw [doubled_other (quotes_ne_backslash (hquote c rfl))]
      apply doubles_same rfl
      rw [Quoting.next_skip]
      exact ih _ hquote (.inl rfl)

theorem harmless_ordinary_iff :
    Harmless tables guardQuoting.plain text ↔ Harmless tables guardQuoting (doubled text) := by
  have hrel := unquoted_doubled text {} (by simp) (.inl rfl)
  unfold Harmless
  revert hrel
  generalize guardQuoting.plain.unquoted {} text = plain
  generalize guardQuoting.unquoted {} (doubled text) = guarded
  intro hrel
  cases hrel with
  | none => simp
  | @some shown shown' hdoubles =>
    have hwords : shownWords tables 0 shown' = shownWords tables 0 shown := by
      unfold shownWords
      rw [hdoubles.words_eq (Nat.zero_le _)]
    simp only [Option.some.injEq, exists_eq_left', hwords, hdoubles.oneStatement]

/-- Without an escape in front of a quote, the engines read the text as the scanner does. -/
theorem unquoted_ordinary (h : guardQuoting.escapesQuote {} text = false) :
    guardQuoting.plain.unquoted {} text = guardQuoting.unquoted {} text := by
  symm
  apply Quoting.unquoted_of_modes (show guardQuoting.quotes = guardQuoting.plain.quotes from rfl) rfl
  exact (guardQuoting.modes_plain_iff text {}).mpr h

/-- A text without an escape in front of a quote passes with its backslashes doubled, too. -/
theorem passes_doubled (hpasses : passes tables text = true)
    (h : guardQuoting.escapesQuote {} text = false) : passes tables (doubled text) = true := by
  rw [passes_iff] at hpasses
  rw [passes_iff, ← harmless_ordinary_iff]
  unfold Harmless
  rw [unquoted_ordinary h]
  exact hpasses

/-! ## Accepted texts -/

section Accepted

variable {sql out : String} {limit : Int} {maxCharacters : Nat}

theorem boundedSelect_ok (h : boundedSelect tables sql limit maxCharacters = .ok out) :
    Harmless tables guardQuoting (normalizedSql sql) ∧
      out = "SELECT * FROM (\n" ++ String.ofList (normalizedSql sql) ++
        s!"\n) AS base_agent_bounded_query LIMIT {limit + 1}" := by
  obtain ⟨-, -, h⟩ := Except.bind_ok.mp h
  obtain ⟨-, -, h⟩ := Except.bind_ok.mp h
  obtain ⟨-, -, h⟩ := Except.bind_ok.mp h
  obtain ⟨found, hfound, h⟩ := Except.bind_ok.mp h
  obtain ⟨-, -, h⟩ := Except.bind_ok.mp h
  obtain ⟨_, hallowed, h⟩ := Except.bind_ok.mp h
  rw [raiseIf_ok, not_not, List.filter_eq_nil_iff] at hallowed
  refine ⟨?_, (Except.ok.inj h).symm⟩
  rw [← passes_iff, passes, hfound, List.all_eq_true]
  intro word hword
  simpa using hallowed word hword

/-- Under the convention of the scanner the engines find what the scanner finds; under the other
one they find what it finds once each backslash is doubled. -/
theorem engines_agree_iff (h : boundedSelect tables sql limit maxCharacters = .ok out) :
    (∀ convention : Convention, Harmless tables convention.quoting (normalizedSql sql)) ↔
      passes tables (doubled (normalizedSql sql)) = true := by
  rw [passes_iff, ← harmless_ordinary_iff]
  constructor
  · intro hall
    exact hall .ordinary
  · intro hordinary convention
    cases convention with
    | ordinary => exact hordinary
    | escaping => exact (boundedSelect_ok h).1

end Accepted

end Shown

/-- The second quote is escaped for the scanner, and closes the string for an engine that reads a
backslash as an ordinary character. -/
def smuggled : String := "select '\\' ; drop table t -- '"

theorem smuggled_accepted :
    (boundedSelect Unicode.ascii smuggled 10 100000).toOption.isSome = true ∧
      passes Unicode.ascii (doubled (normalizedSql smuggled)) = false := by
  decide

-- The engine finds a second statement.
theorem engines_disagree : ∃ out, boundedSelect Unicode.ascii smuggled 10 100000 = .ok out ∧
    ¬ ∀ convention : Convention,
      Harmless Unicode.ascii convention.quoting (normalizedSql smuggled) := by
  obtain ⟨haccepted, hrefused⟩ := smuggled_accepted
  cases hout : boundedSelect Unicode.ascii smuggled 10 100000 with
  | error e =>
    rw [hout] at haccepted
    cases haccepted
  | ok out =>
    refine ⟨out, rfl, fun hall => ?_⟩
    have hordinary := passes_iff.mpr (harmless_ordinary_iff.mp (hall .ordinary))
    rw [hrefused] at hordinary
    cases hordinary

-- No quote follows the backslash.
theorem engines_agree_quoted :
    Harmless Unicode.ascii Convention.ordinary.quoting (normalizedSql "select 'it''s \\n'") ∧
      Harmless Unicode.ascii Convention.escaping.quoting
        (normalizedSql "select 'it''s \\n'") := by
  have hview : (boundedSelect Unicode.ascii "select 'it''s \\n'" 10 100000).toOption.isSome = true ∧
      passes Unicode.ascii (doubled (normalizedSql "select 'it''s \\n'")) = true := by
    decide
  cases hout : boundedSelect Unicode.ascii "select 'it''s \\n'" 10 100000 with
  | error e =>
    rw [hout] at hview
    cases hview.1
  | ok out =>
    have hall := (engines_agree_iff hout).mpr hview.2
    exact ⟨hall .ordinary, hall .escaping⟩

end DataSources
end BaseAgent
