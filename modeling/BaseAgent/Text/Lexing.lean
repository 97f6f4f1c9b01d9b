import BaseAgent.Text.Json

/-!
# How texts are cut into tokens

Two texts that differ in the line ends between their tokens have the same tokens (`lex_relined`).
A text that is cut inside a string has none of that string any more (`lex_cut`).
-/

namespace BaseAgent
namespace Text

/-! ## The parts of a text -/

section Strings

variable {mode : Mode} {text body rest : List Char} {found : List Nat × Nat} {c : Char}

theorem stringFrom_cons :
    stringFrom mode (c :: rest) = match move mode c with
      | none => none
      | some .close => some ([], 1)
      | some (.go next points) =>
        (stringFrom next rest).map fun found => (points ++ found.1, found.2 + 1) := rfl

theorem stringFrom_append (h : stringFrom mode text = some found) (more : List Char) :
    stringFrom mode (text ++ more) = some found := by
  induction text generalizing mode found with
  | nil => cases h
  | cons c rest ih =>
    rw [List.cons_append, stringFrom_cons]
    rw [stringFrom_cons] at h
    cases hmove : move mode c with
    | none =>
      rw [hmove] at h
      cases h
    | some m =>
      rw [hmove] at h
      cases m with
      | close => exact h
      | go next points =>
        obtain ⟨inner, hinner, hfound⟩ := Option.map_eq_some_iff.mp h
        show (stringFrom next (rest ++ more)).map _ = some found
        rw [ih hinner]
        exact congrArg some hfound

theorem stringFrom_length (h : stringFrom mode text = some found) :
    1 ≤ found.2 ∧ found.2 ≤ text.length := by
  induction text generalizing mode found with
  | nil => cases h
  | cons c rest ih =>
    rw [stringFrom_cons] at h
    cases hmove : move mode c with
    | none =>
      rw [hmove] at h
      cases h
    | some m =>
      rw [hmove] at h
      cases m with
      | close =>
        cases h
        simp
      | go next points =>
        obtain ⟨inner, hinner, rfl⟩ := Option.map_eq_some_iff.mp h
        have hlength := ih hinner
        simp only [List.length_cons]
        omega

theorem stringFrom_quote (h : stringFrom mode text = some found) : '"' ∈ text := by
  induction text generalizing mode found with
  | nil => cases h
  | cons c rest ih =>
    rw [stringFrom_cons] at h
    cases hmove : move mode c with
    | none =>
      rw [hmove] at h
      cases h
    | some m =>
      rw [hmove] at h
      cases m with
      | close =>
        have hquote : c = '"' := by
          cases mode with
          | plain =>
            by_contra hne
            simp only [move, hne, if_false] at hmove
            split at hmove
            · cases hmove
            · split at hmove <;> cases hmove
          | escape =>
            simp only [move] at hmove
            split at hmove
            · cases hmove
            · obtain ⟨point, -, himpossible⟩ := Option.map_eq_some_iff.mp hmove
              cases himpossible
          | hex digits value =>
            obtain ⟨digit, -, hgo⟩ := Option.map_eq_some_iff.mp hmove
            split at hgo <;> cases hgo
        rw [hquote]
        exact List.mem_cons_self
      | go next points =>
        obtain ⟨inner, hinner, -⟩ := Option.map_eq_some_iff.mp h
        exact List.mem_cons_of_mem c (ih hinner)

def Stops (text : List Char) : Prop := text = [] ∨ ∃ rest, text = '\n' :: rest

theorem stringFrom_stops (h : Stops text) : stringFrom mode text = none := by
  rcases h with rfl | ⟨rest, rfl⟩
  · rfl
  · rw [stringFrom_cons, move_control (.inl rfl)]

/-- A string is closed in front of a character of strings only, or it goes on behind it. -/
theorem stringFrom_cut (hc : isForeign c = true)
    (h : stringFrom mode (body ++ c :: rest) = some found) :
    stringFrom mode body = some found ∨
      (32 ≤ c.toNat ∧ '"' ∈ rest ∧ ∀ more, Stops more → stringFrom mode (body ++ more) = none) := by
  induction body generalizing mode found with
  | nil =>
    right
    rw [List.nil_append, stringFrom_cons] at h
    cases hmove : move mode c with
    | none =>
      rw [hmove] at h
      cases h
    | some m =>
      obtain ⟨rfl, hvisible⟩ := move_foreign hc hmove
      rw [hmove] at h
      obtain ⟨inner, hinner, -⟩ := Option.map_eq_some_iff.mp h
      exact ⟨hvisible, stringFrom_quote hinner, fun more hmore => stringFrom_stops hmore⟩
  | cons d body ih =>
    rw [List.cons_append, stringFrom_cons] at h
    rw [stringFrom_cons]
    cases hmove : move mode d with
    | none =>
      rw [hmove] at h
      cases h
    | some m =>
      rw [hmove] at h
      cases m with
      | close => exact .inl h
      | go next points =>
        obtain ⟨inner, hinner, hfound⟩ := Option.map_eq_some_iff.mp h
        cases ih hinner with
        | inl hbefore =>
          left
          show (stringFrom next body).map _ = some found
          rw [hbefore]
          exact congrArg some hfound
        | inr hbehind =>
          refine .inr ⟨hbehind.1, hbehind.2.1, fun more hmore => ?_⟩
          rw [List.cons_append, stringFrom_cons, hmove]
          show (stringFrom next (body ++ more)).map _ = none
          rw [hbehind.2.2 more hmore]
          rfl

end Strings

section Tokens

variable {text rest : List Char} {token : Token} {n : Nat} {c : Char}

theorem word_pos (word : Word) : 1 ≤ word.text.length := by
  cases word <;> decide

theorem atomAt_length {run : List Char} (h : atomAt run = some (token, n)) :
    1 ≤ n ∧ n ≤ run.length := by
  unfold atomAt at h
  split at h
  · rename_i word hword
    obtain ⟨rfl, rfl⟩ := Prod.mk.inj (Option.some.inj h)
    have hfront : word.text.isPrefixOf run = true :=
      List.find?_some (p := fun word : Word => word.text.isPrefixOf run) hword
    exact ⟨word_pos word, (List.isPrefixOf_iff_prefix.mp hfront).length_le⟩
  · simp only at h
    split at h
    · cases h
    · rename_i hsome
      cases h
      constructor
      · rw [List.isEmpty_iff] at hsome
        exact List.length_pos_iff.mpr hsome
      · exact List.length_take_le' _ _

theorem tokenAt_length (h : tokenAt text = some (token, n)) : 1 ≤ n ∧ n ≤ text.length := by
  cases text with
  | nil => cases h
  | cons c rest =>
    rw [tokenAt] at h
    split at h
    · obtain ⟨found, hfound, hpair⟩ := Option.map_eq_some_iff.mp h
      cases hpair
      have hlength := stringFrom_length hfound
      simp only [List.length_cons]
      omega
    · split at h
      · cases h
        simp
      · have hlength := atomAt_length h
        have hrun : ((c :: rest).takeWhile isSolid).length ≤ (c :: rest).length :=
          (List.takeWhile_prefix _).length_le
        omega

theorem lexFrom_eq (skip : Nat) (text : List Char) : lexFrom skip text = lex (text.drop skip) := by
  induction text generalizing skip with
  | nil => cases skip <;> rfl
  | cons c rest ih =>
    cases skip with
    | zero => rfl
    | succ skip => exact ih skip

theorem lex_whitespace (h : isWhitespace c = true) (rest : List Char) :
    lex (c :: rest) = lex rest := by
  show (if isWhitespace c then lexFrom 0 rest else _) = _
  rw [if_pos h]
  rfl

theorem lex_token (hc : isWhitespace c = false) (h : tokenAt (c :: rest) = some (token, n)) :
    lex (c :: rest) = token :: lex ((c :: rest).drop n) := by
  have hpos := (tokenAt_length h).1
  obtain ⟨m, rfl⟩ : ∃ m, n = m + 1 := ⟨n - 1, by omega⟩
  rw [lex, lexFrom, hc, if_neg Bool.false_ne_true, h]
  show token :: lexFrom (m + 1 - 1) rest = _
  rw [lexFrom_eq]
  rfl

theorem lex_bad (hc : isWhitespace c = false) (h : tokenAt (c :: rest) = none) :
    lex (c :: rest) = [.bad] := by
  rw [lex, lexFrom, hc, if_neg Bool.false_ne_true, h]

theorem lex_leading {leading : List Char} (h : ∀ c ∈ leading, isWhitespace c = true)
    (text : List Char) : lex (leading ++ text) = lex text := by
  induction leading with
  | nil => rfl
  | cons c rest ih =>
    rw [List.forall_mem_cons] at h
    rw [List.cons_append, lex_whitespace h.1, ih h.2]

end Tokens

/-! ## Cutting a text -/

section Cut

variable {c d : Char} {body rest : List Char} {token : Token} {n : Nat}

theorem stops_not_solid {text : List Char} (h : Stops text) : text.takeWhile isSolid = [] := by
  rcases h with rfl | ⟨rest, rfl⟩
  · rfl
  · rfl

/-- A token ends in front of a character of strings only, or it is a string around it. -/
theorem tokenAt_cut (hc : isForeign c = true)
    (h : tokenAt (d :: (body ++ c :: rest)) = some (token, n)) :
    (n ≤ (d :: body).length ∧
        ∀ more, Stops more → tokenAt (d :: (body ++ more)) = some (token, n)) ∨
      (32 ≤ c.toNat ∧ '"' ∈ rest ∧ ∀ more, Stops more → tokenAt (d :: (body ++ more)) = none) := by
  simp only [tokenAt] at h ⊢
  split at h
  · rename_i hquote
    obtain ⟨found, hfound, hpair⟩ := Option.map_eq_some_iff.mp h
    cases stringFrom_cut hc hfound with
    | inl hbefore =>
      have hlength := stringFrom_length hbefore
      refine .inl ⟨?_, fun more _ => ?_⟩
      · cases hpair
        simp only [List.length_cons]
        omega
      · rw [if_pos hquote, stringFrom_append hbefore]
        exact congrArg some hpair
    | inr hbehind =>
      refine .inr ⟨hbehind.1, hbehind.2.1, fun more hmore => ?_⟩
      rw [if_pos hquote, hbehind.2.2 more hmore]
      rfl
  · rename_i hquote
    left
    split at h
    · rename_i hmark
      cases h
      refine ⟨by simp, fun more _ => ?_⟩
      rw [if_neg hquote, if_pos hmark]
    · rename_i hmark
      have hrun : ∀ more : List Char, more.takeWhile isSolid = [] →
          (d :: (body ++ more)).takeWhile isSolid = (d :: body).takeWhile isSolid := by
        intro more hmore
        rw [← List.cons_append, List.takeWhile_append, hmore, List.append_nil]
        split
        · rename_i hall
          exact ((List.takeWhile_prefix isSolid).eq_of_length hall).symm
        · rfl
      rw [hrun (c :: rest) (by simp [foreign_not_solid hc])] at h
      refine ⟨?_, fun more hmore => ?_⟩
      · exact (atomAt_length h).2.trans (List.takeWhile_prefix _).length_le
      · rw [if_neg hquote, if_neg hmark, hrun more (stops_not_solid hmore)]
        exact h

/-- Where a character of strings only stands in a document, a string is open. -/
theorem lex_cut (hc : isForeign c = true) (h : Token.bad ∉ lex (body ++ c :: rest)) :
    32 ≤ c.toNat ∧ '"' ∈ rest ∧ ∀ more, Stops more → Token.bad ∈ lex (body ++ more) := by
  induction hlength : body.length using Nat.strong_induction_on generalizing body with
  | _ length ih =>
    cases body with
    | nil =>
      rw [List.nil_append, lex_bad (foreign_not_whitespace hc) (tokenAt_foreign hc rest)] at h
      exact absurd List.mem_cons_self h
    | cons d body =>
      simp only [List.cons_append] at h ⊢
      by_cases hd : isWhitespace d = true
      · rw [lex_whitespace hd] at h
        have hrest := ih body.length (by rw [← hlength]; simp) h rfl
        refine ⟨hrest.1, hrest.2.1, fun more hmore => ?_⟩
        rw [lex_whitespace hd]
        exact hrest.2.2 more hmore
      · rw [Bool.not_eq_true] at hd
        cases htoken : tokenAt (d :: (body ++ c :: rest)) with
        | none =>
          rw [lex_bad hd htoken] at h
          exact absurd List.mem_cons_self h
        | some found =>
          obtain ⟨token, n⟩ := found
          have hpos := (tokenAt_length htoken).1
          cases tokenAt_cut hc htoken with
          | inl hbefore =>
            rw [lex_token hd htoken, ← List.cons_append,
              List.drop_append_of_le_length hbefore.1] at h
            have hshort : ((d :: body).drop n).length < length := by
              rw [List.length_drop, ← hlength]
              simp only [List.length_cons] at hbefore ⊢
              omega
            have hrest := ih _ hshort (fun hmem => h (List.mem_cons_of_mem token hmem)) rfl
            refine ⟨hrest.1, hrest.2.1, fun more hmore => ?_⟩
            rw [lex_token hd (hbefore.2 more hmore), ← List.cons_append,
              List.drop_append_of_le_length hbefore.1]
            exact List.mem_cons_of_mem token (hrest.2.2 more hmore)
          | inr hbehind =>
            refine ⟨hbehind.1, hbehind.2.1, fun more hmore => ?_⟩
            rw [lex_bad hd (hbehind.2.2 more hmore)]
            exact List.mem_cons_self

end Cut

/-! ## Other line ends -/

/-- The second text has line feeds for line ends of the first one, and less white space at its
end. -/
inductive Relined : List Char → List Char → Prop
  | trail {a : List Char} : (∀ c ∈ a, isWhitespace c = true) → Relined a []
  | keep (c : Char) {a b : List Char} : Relined a b → Relined (c :: a) (c :: b)
  | feed {a b : List Char} : Relined a b → Relined ('\r' :: a) ('\n' :: b)
  | crlf {a b : List Char} : Relined a b → Relined ('\r' :: '\n' :: a) ('\n' :: b)

namespace Relined

variable {a b : List Char}

theorem refl (a : List Char) : Relined a a := by
  induction a with
  | nil => exact .trail (by simp)
  | cons c rest ih => exact .keep c ih

theorem trailing {space : List Char} (h : ∀ c ∈ space, isWhitespace c = true) (a : List Char) :
    Relined (a ++ space) a := by
  induction a with
  | nil => exact .trail h
  | cons c rest ih => exact .keep c ih

theorem unclosed {mode : Mode} (ha : Text.stringFrom mode a = none)
    (hb : Text.stringFrom mode b = none) :
    Text.stringFrom mode a = Text.stringFrom mode b ∧
      ∀ found, Text.stringFrom mode a = some found → Relined (a.drop found.2) (b.drop found.2) := by
  refine ⟨ha.trans hb.symm, fun found hfound => ?_⟩
  rw [ha] at hfound
  cases hfound

theorem stringFrom_lineEnd {c : Char} (h : c = '\n' ∨ c = '\r') (mode : Mode) (rest : List Char) :
    Text.stringFrom mode (c :: rest) = none := by
  rw [stringFrom_cons, move_control (h.imp id .inl)]

theorem stringFrom (h : Relined a b) (mode : Mode) :
    Text.stringFrom mode a = Text.stringFrom mode b ∧
      ∀ found, Text.stringFrom mode a = some found → Relined (a.drop found.2) (b.drop found.2) := by
  induction h generalizing mode with
  | @trail a hspace =>
    refine unclosed ?_ rfl
    cases hfound : Text.stringFrom mode a with
    | none => rfl
    | some found => exact absurd (hspace _ (stringFrom_quote hfound)) (by decide)
  | keep c h ih =>
    rw [stringFrom_cons, stringFrom_cons]
    cases move mode c with
    | none => exact ⟨rfl, fun found hfound => nomatch hfound⟩
    | some m =>
      cases m with
      | close =>
        refine ⟨rfl, fun found hfound => ?_⟩
        cases hfound
        exact h
      | go next points =>
        refine ⟨congrArg (Option.map _) (ih next).1, fun found hfound => ?_⟩
        obtain ⟨inner, hinner, rfl⟩ := Option.map_eq_some_iff.mp hfound
        exact (ih next).2 inner hinner
  | feed h ih =>
    exact unclosed (stringFrom_lineEnd (.inr rfl) mode _) (stringFrom_lineEnd (.inl rfl) mode _)
  | crlf h ih =>
    exact unclosed (stringFrom_lineEnd (.inr rfl) mode _) (stringFrom_lineEnd (.inl rfl) mode _)

theorem takeWhile (h : Relined a b) :
    a.takeWhile isSolid = b.takeWhile isSolid ∧
      ∀ n ≤ (a.takeWhile isSolid).length, Relined (a.drop n) (b.drop n) := by
  have hstopped : ∀ {a b : List Char}, Relined a b → a.takeWhile isSolid = [] →
      ∀ n ≤ (a.takeWhile isSolid).length, Relined (a.drop n) (b.drop n) := by
    intro a b h ha n hn
    rw [ha] at hn
    cases Nat.le_zero.mp hn
    exact h
  induction h with
  | @trail a hspace =>
    have hnone : a.takeWhile isSolid = [] := by
      cases a with
      | nil => rfl
      | cons c rest =>
        have hc := hspace c List.mem_cons_self
        simp only [isWhitespace, Bool.or_eq_true, beq_iff_eq] at hc
        rcases hc with ((rfl | rfl) | rfl) | rfl <;> rfl
    exact ⟨hnone, hstopped (.trail hspace) hnone⟩
  | keep c h ih =>
    by_cases hc : isSolid c = true
    · rw [List.takeWhile_cons_of_pos hc, List.takeWhile_cons_of_pos hc, ih.1]
      refine ⟨rfl, fun n hn => ?_⟩
      cases n with
      | zero => exact .keep c h
      | succ n =>
        rw [← ih.1] at hn
        exact ih.2 n (Nat.le_of_succ_le_succ hn)
    · rw [List.takeWhile_cons_of_neg hc, List.takeWhile_cons_of_neg hc]
      refine ⟨rfl, fun n hn => ?_⟩
      cases Nat.le_zero.mp hn
      exact .keep c h
  | feed h ih => exact ⟨rfl, hstopped (.feed h) rfl⟩
  | crlf h ih => exact ⟨rfl, hstopped (.crlf h) rfl⟩

theorem tokenAt {c : Char} (h : Relined a b) :
    Text.tokenAt (c :: a) = Text.tokenAt (c :: b) ∧
      ∀ token n, Text.tokenAt (c :: a) = some (token, n) →
        Relined ((c :: a).drop n) ((c :: b).drop n) := by
  simp only [Text.tokenAt]
  by_cases hquote : c = '"'
  · simp only [hquote, if_true]
    obtain ⟨hsame, hrest⟩ := h.stringFrom .plain
    refine ⟨congrArg (Option.map _) hsame, fun token n hfound => ?_⟩
    obtain ⟨found, hstring, hpair⟩ := Option.map_eq_some_iff.mp hfound
    cases hpair
    exact hrest found hstring
  simp only [hquote, if_false]
  by_cases hmark : isMark c = true
  · simp only [hmark, if_true]
    refine ⟨trivial, fun token n hfound => ?_⟩
    cases hfound
    exact h
  simp only [hmark, if_false, Bool.false_eq_true]
  obtain ⟨hsame, hrest⟩ := (Relined.keep c h).takeWhile
  refine ⟨by rw [hsame], fun token n hfound => ?_⟩
  exact hrest n (atomAt_length hfound).2

end Relined

theorem lex_relined {a b : List Char} (h : Relined a b) : lex a = lex b := by
  induction hlength : a.length using Nat.strong_induction_on generalizing a b with
  | _ length ih =>
    cases h with
    | trail hspace =>
      have hnil := lex_leading hspace []
      rw [List.append_nil] at hnil
      exact hnil
    | @keep c a b h =>
      by_cases hc : isWhitespace c = true
      · rw [lex_whitespace hc, lex_whitespace hc]
        exact ih a.length (by rw [← hlength]; simp) h rfl
      · rw [Bool.not_eq_true] at hc
        obtain ⟨hsame, hrest⟩ := h.tokenAt (c := c)
        cases htoken : tokenAt (c :: a) with
        | none =>
          rw [htoken] at hsame
          rw [lex_bad hc htoken, lex_bad hc hsame.symm]
        | some found =>
          obtain ⟨token, n⟩ := found
          rw [htoken] at hsame
          rw [lex_token hc htoken, lex_token hc hsame.symm]
          have hshort : ((c :: a).drop n).length < length := by
            have hpos := (tokenAt_length htoken).1
            rw [List.length_drop, ← hlength]
            simp only [List.length_cons]
            omega
          rw [ih _ hshort (hrest token n htoken) rfl]
    | @feed a b h =>
      rw [lex_whitespace rfl, lex_whitespace rfl]
      exact ih a.length (by rw [← hlength]; simp) h rfl
    | @crlf a b h =>
      rw [lex_whitespace rfl, lex_whitespace rfl, lex_whitespace rfl]
      refine ih a.length ?_ h rfl
      rw [← hlength]
      simp only [List.length_cons]
      omega

/-! ## Documents -/

namespace Json

variable {N : Type} {number : List Char → Option N}

theorem step_bad (place : Place N) : step number place .bad = .error .decode := by
  cases place with
  | value stack => rfl
  | first stack => rfl
  | firstKey stack => rfl
  | key stack fields => rfl
  | colon stack fields key => rfl
  | after stack value =>
    cases stack with
    | nil => rfl
    | cons frame stack => cases frame <;> rfl

theorem readFrom_bad {tokens : List Token} (h : Token.bad ∈ tokens) (place : Place N) :
    ∃ fault, readFrom number place tokens = .error fault := by
  induction tokens generalizing place with
  | nil => cases h
  | cons token rest ih =>
    cases hstep : step number place token with
    | error fault =>
      refine ⟨fault, ?_⟩
      rw [readFrom, hstep]
      rfl
    | ok next =>
      cases List.mem_cons.mp h with
      | inl hbad =>
        rw [← hbad, step_bad] at hstep
        cases hstep
      | inr hmem =>
        obtain ⟨fault, hfault⟩ := ih hmem next
        refine ⟨fault, ?_⟩
        rw [readFrom, hstep]
        exact hfault

theorem loads_bad {text : List Char} (h : Token.bad ∈ lex text) :
    ∃ fault, loads number text = .error fault := readFrom_bad h _

theorem not_bad_of_loads {text : List Char} {value : Json N}
    (h : loads number text = .ok value) : Token.bad ∉ lex text := by
  intro hbad
  obtain ⟨fault, hfault⟩ := (loads_bad hbad : ∃ fault, loads number text = .error fault)
  rw [h] at hfault
  cases hfault

theorem loads_congr {a b : List Char} (h : lex a = lex b) :
    loads number a = loads number b := by
  unfold loads
  rw [h]

end Json

end Text
end BaseAgent
