import BaseAgent.DataSources.SqlGuard
import Mathlib.Data.Bool.AllAny

/-!
# The query around an accepted text

The scanner does not look at parentheses.  In the query that is made of an accepted text, the first
parenthesis is closed by the one that the query puts behind the text when the parentheses of the text
nest, and only then.
-/

namespace BaseAgent
namespace DataSources

open Text

def bracket : Option Char → Option DyckStep
  | some '(' => some .U
  | some ')' => some .D
  | _ => none

/-- Outside the quotes of the text, the depth is never negative and ends at zero. -/
def DepthKept (text : List Char) : Prop :=
  ∃ shown, guardQuoting.unquoted {} text = some shown ∧ Balanced (shown.filterMap bracket)

def wrapperEnd (limit : Int) : String := s!") AS base_agent_bounded_query LIMIT {limit + 1}"

/-- The parenthesis that the query opens is closed where its end begins. -/
def WrapperCloses (limit : Int) (out : String) : Prop :=
  ∃ around place, guardQuoting.unquoted {} out.toList = some around ∧
    closing bracket 1 (around.drop "SELECT * FROM (".length) = some place ∧
    out.toList.drop ("SELECT * FROM (".length + place) = (wrapperEnd limit).toList

/-- The parentheses that a text shows form groups inside each other. -/
def ParenthesesNest (text : List Char) : Prop :=
  ∃ shown, guardQuoting.unquoted {} text = some shown ∧ Nested (shown.filterMap bracket)

theorem unquoted_length {Q : Quoting Char} {text : List Char} {s : Reading Char}
    {shown : List (Option Char)} (h : Q.unquoted s text = some shown) :
    shown.length = text.length := by
  induction text generalizing s shown with
  | nil =>
    rw [Quoting.unquoted] at h
    split at h
    · cases h
      rfl
    · cases h
  | cons c rest ih =>
    rw [Quoting.unquoted, Option.map_eq_some_iff] at h
    obtain ⟨v, hv, rfl⟩ := h
    rw [List.length_cons, List.length_cons, ih hv]

theorem isQuote_of_digit {c : Char} (h : c.isDigit = true) : isQuote c = false := by
  by_contra hquote
  simp only [isQuote, Bool.or_eq_true, beq_iff_eq, Bool.not_eq_false] at hquote
  obtain (rfl | rfl) | hc := hquote
  · revert h
    decide
  · revert h
    decide
  · rw [← Char.ofNat_toNat c, hc] at h
    revert h
    decide

theorem isQuote_of_mem_toString {n : Int} {c : Char} (h : c ∈ (toString n).toList) :
    isQuote c = false := by
  have hdigits : ∀ m : Nat, ∀ d ∈ (Nat.repr m).toList, isQuote d = false := by
    intro m d hd
    rw [Nat.repr, String.toList_ofList] at hd
    exact isQuote_of_digit (Nat.isDigit_of_mem_toDigits (by decide) (by decide) hd)
  cases n with
  | ofNat m => exact hdigits m c h
  | negSucc m =>
    have hminus : (toString (Int.negSucc m)).toList = '-' :: (Nat.repr (m + 1)).toList := by
      show ("-" ++ Nat.repr (m + 1)).toList = _
      rw [String.toList_append]
      rfl
    rw [hminus, List.mem_cons] at h
    rcases h with rfl | hd
    · decide
    · exact hdigits _ c hd

theorem unquoted_around {text : List Char} {shown : List (Option Char)} (limit : Int)
    (h : guardQuoting.unquoted {} text = some shown) :
    ∃ more, guardQuoting.unquoted {} ("SELECT * FROM (\n" ++ String.ofList text ++
        s!"\n) AS base_agent_bounded_query LIMIT {limit + 1}").toList =
      some ("SELECT * FROM (".toList.map some ++
        ((some '\n' :: shown ++ [some '\n']) ++ some ')' :: more)) := by
  have hback : guardQuoting.unquoted {} ("\n) AS base_agent_bounded_query LIMIT ".toList ++
        (toString (limit + 1)).toList) =
      some (("\n) AS base_agent_bounded_query LIMIT ".toList ++
        (toString (limit + 1)).toList).map some) := by
    apply Quoting.unquoted_of_no_quote
    have hletters : ∀ c ∈ "\n) AS base_agent_bounded_query LIMIT ".toList,
        guardQuoting.quotes c = false := List.all_iff_forall_prop.mp (by decide)
    intro c hc
    rw [List.mem_append] at hc
    cases hc with
    | inl hletter => exact hletters c hletter
    | inr hdigit => exact isQuote_of_mem_toString hdigit
  have hhead : ∀ c, ("\n) AS base_agent_bounded_query LIMIT ".toList ++
      (toString (limit + 1)).toList).head? = some c → guardQuoting.quotes c = false := by
    intro c hc
    cases hc
    decide
  have htext := guardQuoting.unquoted_append guardQuoting.proper_start h hhead
  have hall := guardQuoting.unquoted_append_of_no_quote
    (show ∀ c ∈ "SELECT * FROM (\n".toList, guardQuoting.quotes c = false from
      List.all_iff_forall_prop.mp (by decide))
  have hlist : ("SELECT * FROM (\n" ++ String.ofList text ++
      (toString "\n) AS base_agent_bounded_query LIMIT " ++ toString (limit + 1))).toList =
      "SELECT * FROM (\n".toList ++ (text ++ ("\n) AS base_agent_bounded_query LIMIT ".toList ++
        (toString (limit + 1)).toList)) := by
    rw [String.toList_append, String.toList_append, String.toList_ofList (l := text),
      String.toList_append, List.append_assoc]
    rfl
  rw [hlist, hall, htext, hback]
  exact ⟨(" AS base_agent_bounded_query LIMIT ".toList ++ (toString (limit + 1)).toList).map some,
    by simp⟩

theorem wrapperEnd_length (limit : Int) : 0 < (wrapperEnd limit).toList.length := by
  have hend : wrapperEnd limit = ")" ++ (" AS base_agent_bounded_query LIMIT " ++
      toString (limit + 1)) := rfl
  rw [hend, String.toList_append, List.length_append]
  exact Nat.add_pos_left (by decide) _

/-- The closing parenthesis stands behind the whole text when the depth is kept, and only then. -/
theorem wrapperCloses_iff {tables : Unicode} {sql out : String} {limit : Int} {maxCharacters : Nat}
    (h : boundedSelect tables sql limit maxCharacters = .ok out) :
    WrapperCloses limit out ↔ DepthKept (normalizedSql sql) := by
  obtain ⟨⟨shown, hshown, -⟩, rfl⟩ := boundedSelect_ok h
  obtain ⟨more, haround⟩ := unquoted_around limit hshown
  have hout : ("SELECT * FROM (\n" ++ String.ofList (normalizedSql sql) ++
      s!"\n) AS base_agent_bounded_query LIMIT {limit + 1}").toList =
      ("SELECT * FROM (".toList ++ ('\n' :: normalizedSql sql ++ ['\n'])) ++
        (wrapperEnd limit).toList := by
    have hend : s!"\n) AS base_agent_bounded_query LIMIT {limit + 1}" = "\n" ++ wrapperEnd limit := rfl
    rw [hend, String.toList_append, String.toList_append, String.toList_append,
      String.toList_ofList (l := normalizedSql sql)]
    simp
  have hdrop : ("SELECT * FROM (".toList.map some ++
      ((some '\n' :: shown ++ [some '\n']) ++ some ')' :: more)).drop "SELECT * FROM (".length =
        (some '\n' :: shown ++ [some '\n']) ++ some ')' :: more :=
    List.drop_left' (by rw [List.length_map, String.length_toList])
  have hcloses : closing bracket 1 ((some '\n' :: shown ++ [some '\n']) ++ some ')' :: more) =
      some ((normalizedSql sql).length + 2) ↔ Balanced (shown.filterMap bracket) := by
    have hlength := unquoted_length hshown
    have hplace := closing_eq_length bracket (a := some ')') rfl
      (some '\n' :: shown ++ [some '\n']) more
    simpa [hlength, bracket] using hplace
  have hfront : ("SELECT * FROM (".toList ++ ('\n' :: normalizedSql sql ++ ['\n'])).length =
      "SELECT * FROM (".length + ((normalizedSql sql).length + 2) := by
    rw [List.length_append, String.length_toList]
    simp
  constructor
  · intro hwrapper
    obtain ⟨around, place, haround', hplace, hend⟩ := hwrapper
    obtain rfl := Option.some.inj (haround.symm.trans haround')
    rw [hdrop] at hplace
    -- the end of the query is behind the text alone
    have hlong : 0 < (wrapperEnd limit).toList.length := wrapperEnd_length limit
    have hsame : place = (normalizedSql sql).length + 2 := by
      have hlength := congrArg List.length hend
      rw [hout, List.length_drop, List.length_append, hfront] at hlength
      omega
    rw [hsame] at hplace
    exact ⟨shown, hshown, hcloses.mp hplace⟩
  · intro hkept
    obtain ⟨shown', hshown', hbalanced⟩ := hkept
    obtain rfl := Option.some.inj (hshown.symm.trans hshown')
    refine ⟨_, (normalizedSql sql).length + 2, haround, ?_, ?_⟩
    · rw [hdrop]
      exact hcloses.mpr hbalanced
    · rw [hout, ← hfront]
      exact List.drop_left

theorem depthKept_iff {text : List Char} : DepthKept text ↔ ParenthesesNest text := by
  unfold DepthKept ParenthesesNest
  simp only [balanced_iff_nested]

/-- An accepted text stays inside its query when its parentheses nest, and only then: the wrapper's
own parenthesis closes the one that the wrapper opens, and the depth of the text is kept. -/
theorem staysInside_iff {tables : Unicode} {sql out : String} {limit : Int} {maxCharacters : Nat}
    (h : boundedSelect tables sql limit maxCharacters = .ok out) :
    (WrapperCloses limit out ↔ ParenthesesNest (normalizedSql sql)) ∧
      (DepthKept (normalizedSql sql) ↔ WrapperCloses limit out) :=
  ⟨(wrapperCloses_iff h).trans depthKept_iff, (wrapperCloses_iff h).symm⟩

theorem brackets_of_view {text : List Char} {steps : List DyckStep}
    (h : (guardQuoting.unquoted {} text).map (·.filterMap bracket) = some steps) :
    ∃ shown, guardQuoting.unquoted {} text = some shown ∧ shown.filterMap bracket = steps := by
  rwa [Option.map_eq_some_iff] at h

-- The first parenthesis of the text closes the one that the query opens.
theorem wrapper_closed_early :
    ∃ out, boundedSelect Unicode.ascii "select 1) union all (select 2" 10 100000 = .ok out ∧
      ¬ WrapperCloses 10 out ∧ ¬ DepthKept (normalizedSql "select 1) union all (select 2") := by
  have hview : (boundedSelect Unicode.ascii "select 1) union all (select 2" 10
        100000).toOption.isSome = true ∧
      (guardQuoting.unquoted {} (normalizedSql "select 1) union all (select 2")).map
        (·.filterMap bracket) = some [.D, .U] := by
    decide
  obtain ⟨haccepted, hbrackets⟩ := hview
  obtain ⟨shown, hshown, hsteps⟩ := brackets_of_view hbrackets
  have hdeep : ¬ DepthKept (normalizedSql "select 1) union all (select 2") := by
    intro hkept
    obtain ⟨shown', hshown', hbalanced⟩ := hkept
    obtain rfl := Option.some.inj (hshown.symm.trans hshown')
    rw [hsteps] at hbalanced
    have hdepth := hbalanced.1 1
    simp at hdepth
  cases hout : boundedSelect Unicode.ascii "select 1) union all (select 2" 10 100000 with
  | error e =>
    rw [hout] at haccepted
    cases haccepted
  | ok out => exact ⟨out, rfl, fun hcloses => hdeep ((wrapperCloses_iff hout).mp hcloses), hdeep⟩

theorem grouped_query_stays_inside :
    ∃ out, boundedSelect Unicode.ascii "select (1) from t" 10 100000 = .ok out ∧
      WrapperCloses 10 out ∧ DepthKept (normalizedSql "select (1) from t") := by
  have hview : (boundedSelect Unicode.ascii "select (1) from t" 10
        100000).toOption.isSome = true ∧
      (guardQuoting.unquoted {} (normalizedSql "select (1) from t")).map
        (·.filterMap bracket) = some [.U, .D] := by
    decide
  obtain ⟨haccepted, hbrackets⟩ := hview
  obtain ⟨shown, hshown, hsteps⟩ := brackets_of_view hbrackets
  have hnest : ParenthesesNest (normalizedSql "select (1) from t") := by
    refine ⟨shown, hshown, ?_⟩
    rw [hsteps]
    exact .group .nil .nil
  cases hout : boundedSelect Unicode.ascii "select (1) from t" 10 100000 with
  | error e =>
    rw [hout] at haccepted
    cases haccepted
  | ok out =>
    obtain ⟨hcloses, hdepth⟩ := staysInside_iff hout
    exact ⟨out, rfl, hcloses.mpr hnest, hdepth.mpr (hcloses.mpr hnest)⟩

end DataSources
end BaseAgent
