import Mathlib.Data.List.Infix

/-!
# The longest prefix that fits

A loop that takes the items one by one, as long as the list fits, ends with the longest prefix that
does, where a prefix of a list that fits does so as well.
-/

namespace BaseAgent

section Prefixes

variable {α : Type} {fits : List α → Prop}

structure LongestPrefix (fits : List α → Prop) (items taken : List α) : Prop where
  start : taken <+: items
  passes : fits taken
  longest : ∀ other, other <+: items → fits other → other <+: taken

/-- A prefix of a list that fits does so as well. -/
def PrefixClosed (fits : List α → Prop) : Prop :=
  ∀ first second, first <+: second → fits second → fits first

theorem PrefixClosed.refuses {items : List α} (hclosed : PrefixClosed fits) (h : ¬ fits []) :
    ¬ fits items :=
  fun hfits => h (hclosed [] items List.nil_prefix hfits)

variable [DecidablePred fits]

variable (fits) in
def greedy (taken : List α) : List α → List α
  | [] => taken
  | item :: rest => if fits (taken ++ [item]) then greedy (taken ++ [item]) rest else taken

theorem greedy_congr {other : List α → Prop} [DecidablePred other]
    (h : ∀ items, fits items ↔ other items) (taken rest : List α) :
    greedy fits taken rest = greedy other taken rest := by
  induction rest generalizing taken with
  | nil => rfl
  | cons item rest ih =>
    rw [greedy, greedy, ih]
    simp only [h]

theorem greedy_longest_from (hclosed : PrefixClosed fits) {taken : List α} (h : fits taken)
    (rest : List α) : LongestPrefix fits (taken ++ rest) (greedy fits taken rest) := by
  induction rest generalizing taken with
  | nil =>
    rw [List.append_nil]
    exact ⟨List.prefix_rfl, h, fun other hother _ => hother⟩
  | cons item rest ih =>
    rw [greedy]
    by_cases hnext : fits (taken ++ [item])
    · rw [if_pos hnext]
      have hrest := ih hnext
      rwa [List.append_assoc, List.singleton_append] at hrest
    · rw [if_neg hnext]
      refine ⟨List.prefix_append _ _, h, fun other hother hfits => ?_⟩
      have hitem : taken ++ [item] <+: taken ++ item :: rest := ⟨rest, by simp⟩
      cases List.prefix_or_prefix_of_prefix hother hitem with
      | inl hle =>
        cases List.prefix_concat_iff.mp hle with
        | inl heq =>
          rw [heq] at hfits
          exact absurd hfits hnext
        | inr hshorter => exact hshorter
      | inr hge => exact absurd (hclosed _ _ hge hfits) hnext

theorem greedy_longest (hclosed : PrefixClosed fits) (h : fits []) (items : List α) :
    LongestPrefix fits items (greedy fits [] items) :=
  greedy_longest_from hclosed h items

end Prefixes

end BaseAgent
