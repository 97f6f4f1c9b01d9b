import Mathlib.Data.List.Basic
import Mathlib.Data.List.Infix

/-!
# Quoted text

A reader of quoted text is inside a literal, which the same quote closes, or outside.  A doubled
quote inside a literal stands for the quote, and an escape, where there is one, keeps the character
behind it from being read.

`unquoted` hides the literals of a text and keeps the rest in its place.  Two readers that differ
only in their escape read a text alike as long as no escape inside a literal comes before the quote
of that literal.
-/

namespace BaseAgent
namespace Text

variable {α : Type}

/-- Which characters open a literal, and which one escapes inside it. -/
structure Quoting (α : Type) where
  quotes : α → Bool
  escape : Option α

/-- The literal that is open, and the characters that are still passed over. -/
structure Reading (α : Type) where
  quote : Option α := none
  skip : Nat := 0

namespace Quoting

variable (Q : Quoting α)

/-- The character, when it stands outside the literals. -/
def shown (s : Reading α) (c : α) : Option α :=
  if s.quote = none ∧ Q.quotes c = false then some c else none

theorem shown_outside {c : α} (h : Q.quotes c = false) : Q.shown {} c = some c := by
  simp [shown, h]

theorem shown_quote {c : α} (h : Q.quotes c = true) (s : Reading α) : Q.shown s c = none := by
  simp [shown, h]

theorem shown_inside (q : α) (n : Nat) (c : α) : Q.shown ⟨some q, n⟩ c = none := by
  simp [shown]

structure Proper (s : Reading α) : Prop where
  quote : ∀ q, s.quote = some q → Q.quotes q = true
  skip : s.quote = none → s.skip = 0

theorem proper_start : Q.Proper {} where
  quote q h := by cases h
  skip _ := rfl

variable [DecidableEq α]

/-- The state after a character, from the one in front of it and the character that follows. -/
def next (s : Reading α) (c : α) (ahead : Option α) : Reading α :=
  match s.skip, s.quote with
  | n + 1, quote => ⟨quote, n⟩
  | 0, none => ⟨if Q.quotes c then some c else none, 0⟩
  | 0, some q =>
    if c = q then
      if ahead = some q then ⟨some q, 1⟩ else ⟨none, 0⟩
    else ⟨some q, if Q.escape = some c then 1 else 0⟩

/-- The text with its literals hidden, unless one of them is never closed. -/
def unquoted (s : Reading α) : List α → Option (List (Option α))
  | [] => if s.quote = none then some [] else none
  | c :: rest => (unquoted (Q.next s c rest.head?) rest).map (Q.shown s c :: ·)

/-- An escape inside a literal comes before the quote of that literal. -/
def escapesQuote (s : Reading α) : List α → Bool
  | [] => false
  | c :: rest =>
    (s.skip == 0 && s.quote.isSome && s.quote != some c && Q.escape == some c &&
      rest.head? == s.quote) || escapesQuote (Q.next s c rest.head?) rest

def plain : Quoting α := { Q with escape := none }

def modes (s : Reading α) : List α → List (Option α)
  | [] => []
  | c :: rest => (Q.next s c rest.head?).quote :: modes (Q.next s c rest.head?) rest

/-! ## One step -/

theorem next_skip (q : Option α) (n : Nat) (c : α) (ahead : Option α) :
    Q.next ⟨q, n + 1⟩ c ahead = ⟨q, n⟩ := rfl

theorem next_outside {c : α} (h : Q.quotes c = false) (ahead : Option α) :
    Q.next {} c ahead = {} := by
  simp [next, h]

theorem next_open {c : α} (h : Q.quotes c = true) (ahead : Option α) :
    Q.next {} c ahead = ⟨some c, 0⟩ := by
  simp [next, h]

theorem next_doubled (q : α) : Q.next ⟨some q, 0⟩ q (some q) = ⟨some q, 1⟩ := by
  simp [next]

theorem next_close {q : α} {ahead : Option α} (h : ahead ≠ some q) :
    Q.next ⟨some q, 0⟩ q ahead = {} := by
  simp [next, h]

theorem next_inside {q c : α} (h : c ≠ q) (ahead : Option α) :
    Q.next ⟨some q, 0⟩ c ahead = ⟨some q, if Q.escape = some c then 1 else 0⟩ := by
  simp [next, h]

/-! ## Two readings of a text -/

theorem unquoted_of_modes {Q Q' : Quoting α} (hquotes : Q.quotes = Q'.quotes) {text : List α}
    {s s' : Reading α} (hopen : s.quote = s'.quote) (hmodes : Q.modes s text = Q'.modes s' text) :
    Q.unquoted s text = Q'.unquoted s' text := by
  induction text generalizing s s' with
  | nil => rw [unquoted, unquoted, hopen]
  | cons c rest ih =>
    simp only [modes, List.cons.injEq] at hmodes
    have hshown : Q.shown s c = Q'.shown s' c := by
      unfold shown
      rw [hopen, hquotes]
    rw [unquoted, unquoted, hshown, ih hmodes.1 hmodes.2]

/-- A quote behind an escape drives the two readings apart: of the quotes that follow each other
there, the one reading has one more to pair than the other. -/
theorem modes_drift (q : α) : ∀ rest : List α,
    Q.modes ⟨some q, 1⟩ (q :: rest) ≠ Q.plain.modes ⟨some q, 0⟩ (q :: rest)
  | [] => by simp [modes, next]
  | d :: rest => by
    intro hmodes
    simp only [modes, next_skip, List.cons.injEq, List.head?_cons] at hmodes
    by_cases hd : d = q
    · subst hd
      rw [next_doubled, next_skip] at hmodes
      by_cases hhead : rest.head? = some d
      · obtain ⟨more, rfl⟩ : ∃ more, rest = d :: more := by
          cases rest with
          | nil => cases hhead
          | cons e more => exact ⟨more, by rw [Option.some.inj hhead]⟩
        rw [List.head?_cons, next_doubled] at hmodes
        exact modes_drift d more hmodes.2.2
      · rw [next_close _ hhead] at hmodes
        cases hmodes.2.1
    · have hne : some d ≠ some q := fun h => hd (Option.some.inj h)
      rw [next_close _ hne] at hmodes
      cases hmodes.1

/-- The reading with the escape and the one without agree as long as no escape comes before the
quote of its literal, and only then. -/
theorem modes_plain_iff : ∀ (text : List α) (s : Reading α),
    Q.modes s text = Q.plain.modes s text ↔ Q.escapesQuote s text = false
  | [], s => by simp [modes, escapesQuote]
  | c :: rest, s => by
    by_cases hescape : s.skip = 0 ∧ s.quote.isSome = true ∧ s.quote ≠ some c ∧ Q.escape = some c
    · obtain ⟨hskip, hopen, hne, hc⟩ := hescape
      obtain ⟨q, hq⟩ := Option.isSome_iff_exists.mp hopen
      obtain rfl : s = ⟨some q, 0⟩ := by
        cases s
        simp only at hskip hq
        rw [hskip, hq]
      have hcq : c ≠ q := fun h => hne (by rw [h])
      have hfirst : Q.next ⟨some q, 0⟩ c rest.head? = ⟨some q, 1⟩ := by
        rw [next_inside _ hcq, if_pos hc]
      have hplain : Q.plain.next ⟨some q, 0⟩ c rest.head? = ⟨some q, 0⟩ := by
        rw [next_inside _ hcq]
        rfl
      rw [modes, modes, escapesQuote, hfirst, hplain]
      cases rest with
      | nil => simp [modes, escapesQuote]
      | cons d more =>
        by_cases hd : d = q
        · subst hd
          simp [modes_drift, hc, Ne.symm hcq]
        · have hafter : Q.plain.next ⟨some q, 0⟩ d more.head? = ⟨some q, 0⟩ := by
            rw [next_inside _ hd]
            rfl
          have ih := modes_plain_iff more ⟨some q, 0⟩
          simp [modes, escapesQuote, next_skip, hafter, ih, hd]
    · have hsame : Q.plain.next s c rest.head? = Q.next s c rest.head? := by
        obtain ⟨quote, skip⟩ := s
        cases skip with
        | succ n => rfl
        | zero =>
          cases quote with
          | none => rfl
          | some q =>
            by_cases hc : c = q
            · subst hc
              simp [next]
            · have hesc : Q.escape ≠ some c := fun h =>
                hescape ⟨rfl, rfl, fun heq => hc (Option.some.inj heq).symm, h⟩
              rw [next_inside _ hc, next_inside _ hc, if_neg hesc]
              rfl
      have hhere : (s.skip == 0 && s.quote.isSome && s.quote != some c && Q.escape == some c &&
          rest.head? == s.quote) = false := by
        rw [Bool.and_eq_false_iff]
        refine .inl ?_
        by_contra h
        exact hescape (by simpa [and_assoc] using h)
      rw [modes, modes, escapesQuote, hsame, hhere, Bool.false_or]
      simpa using modes_plain_iff rest (Q.next s c rest.head?)

/-! ## Texts after each other -/

theorem Proper.next {s : Reading α} (h : Q.Proper s) (c : α) (ahead : Option α) :
    Q.Proper (Q.next s c ahead) := by
  obtain ⟨quote, skip⟩ := s
  cases skip with
  | succ n =>
    refine ⟨h.quote, fun hnone => ?_⟩
    cases h.skip hnone
  | zero =>
    cases quote with
    | none =>
      by_cases hc : Q.quotes c = true
      · rw [next_open _ hc]
        exact ⟨fun q hq => by rw [← Option.some.inj hq]; exact hc, fun hnone => by cases hnone⟩
      · rw [next_outside _ (by simpa using hc)]
        exact Q.proper_start
    | some q =>
      have hq := h.quote q rfl
      by_cases hc : c = q
      · subst hc
        by_cases hahead : ahead = some c
        · rw [hahead, next_doubled]
          exact ⟨fun q' hq' => by rw [← Option.some.inj hq']; exact hq, fun hnone => by cases hnone⟩
        · rw [next_close _ hahead]
          exact Q.proper_start
      · rw [next_inside _ hc]
        exact ⟨fun q' hq' => by rw [← Option.some.inj hq']; exact hq, fun hnone => by cases hnone⟩

/-- A text whose literals are closed can be read before one that does not begin with a quote. -/
theorem unquoted_append {s : Reading α} (hs : Q.Proper s) {text more : List α}
    {v : List (Option α)} (h : Q.unquoted s text = some v)
    (hmore : ∀ c, more.head? = some c → Q.quotes c = false) :
    Q.unquoted s (text ++ more) = (Q.unquoted {} more).map (v ++ ·) := by
  induction text generalizing s v with
  | nil =>
    rw [unquoted] at h
    split at h
    · rename_i hclosed
      obtain rfl : s = {} := by
        have hskip := hs.skip hclosed
        cases s
        simp only at hclosed hskip
        rw [hclosed, hskip]
      cases h
      simp
    · cases h
  | cons c rest ih =>
    rw [unquoted, Option.map_eq_some_iff] at h
    obtain ⟨v', hv', rfl⟩ := h
    have hahead : Q.next s c (rest ++ more).head? = Q.next s c rest.head? := by
      cases rest with
      | cons d rest => rfl
      | nil =>
        have hne : ∀ q, s.quote = some q → more.head? ≠ some q := by
          intro q hq hhead
          have := hmore q hhead
          rw [hs.quote q hq] at this
          cases this
        obtain ⟨quote, skip⟩ := s
        cases skip with
        | succ n => rfl
        | zero =>
          cases quote with
          | none => rfl
          | some q =>
            have := hne q rfl
            by_cases hc : c = q
            · subst hc
              rw [List.nil_append, next_close _ this, next_close _ (by simp)]
            · rw [next_inside _ hc, next_inside _ hc]
    rw [List.cons_append, unquoted, hahead, ih (hs.next _ _ _) hv', Option.map_map]
    rfl

/-- A text without quotes is shown as it is, whatever comes behind it. -/
theorem unquoted_append_of_no_quote {text : List α} (h : ∀ c ∈ text, Q.quotes c = false)
    (more : List α) :
    Q.unquoted {} (text ++ more) = (Q.unquoted {} more).map (text.map some ++ ·) := by
  induction text with
  | nil => simp
  | cons c rest ih =>
    rw [List.forall_mem_cons] at h
    rw [List.cons_append, unquoted, next_outside _ h.1, ih h.2, shown_outside _ h.1, Option.map_map]
    rfl

theorem unquoted_of_no_quote {text : List α} (h : ∀ c ∈ text, Q.quotes c = false) :
    Q.unquoted {} text = some (text.map some) := by
  have happend := Q.unquoted_append_of_no_quote h []
  rw [List.append_nil] at happend
  simpa [unquoted] using happend

end Quoting

/-! ## Words -/

section Words

variable (start part : α → Bool)

def wordRest : List (Option α) → List α
  | some c :: rest => if part c then c :: wordRest rest else []
  | _ => []

/-- The words outside the literals, past the characters that belong to one already. -/
def words (skip : Nat) : List (Option α) → List (List α)
  | [] => []
  | a :: rest =>
    match skip, a with
    | n + 1, _ => words n rest
    | 0, none => words 0 rest
    | 0, some c =>
      if start c then (c :: wordRest part rest) :: words (wordRest part rest).length rest
      else words 0 rest

end Words

end Text
end BaseAgent
