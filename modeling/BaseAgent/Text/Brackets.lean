import Mathlib.Combinatorics.Enumerative.DyckWord

/-!
# Brackets

A sequence of opening and closing brackets is balanced when no prefix closes more than it opens
and the whole closes what it opens.  The balanced sequences are those that a grammar of nested
groups derives, and those around which a pair of brackets closes where it is put.
-/

namespace BaseAgent
namespace Text

open DyckStep

/-- How many brackets are open after a sequence. -/
def depth (steps : List DyckStep) : Int := (steps.count U : Int) - steps.count D

@[simp] theorem depth_nil : depth [] = 0 := rfl

@[simp] theorem depth_open (rest : List DyckStep) : depth (U :: rest) = depth rest + 1 := by
  simp only [depth, List.count_cons_self, List.count_cons_of_ne (show U ≠ D by decide)]
  omega

@[simp] theorem depth_close (rest : List DyckStep) : depth (D :: rest) = depth rest - 1 := by
  simp only [depth, List.count_cons_self, List.count_cons_of_ne (show D ≠ U by decide)]
  omega

/-- The depth is never negative, and zero in the end. -/
def Balanced (steps : List DyckStep) : Prop :=
  (∀ i, 0 ≤ depth (steps.take i)) ∧ depth steps = 0

/-- Groups after each other, each with groups inside. -/
inductive Nested : List DyckStep → Prop
  | nil : Nested []
  | group {inside behind : List DyckStep} :
    Nested inside → Nested behind → Nested (U :: inside ++ D :: behind)

/-! ## The grammar -/

theorem balanced_iff_dyckWord {steps : List DyckStep} :
    Balanced steps ↔ ∃ p : DyckWord, p.toList = steps := by
  constructor
  · intro h
    obtain ⟨hlow, htotal⟩ := h
    refine ⟨⟨steps, ?_, fun i => ?_⟩, rfl⟩
    · unfold depth at htotal
      omega
    · have := hlow i
      unfold depth at this
      omega
  · rintro ⟨p, rfl⟩
    refine ⟨fun i => ?_, ?_⟩
    · have := p.count_D_le_count_U i
      unfold depth
      omega
    · have := p.count_U_eq_count_D
      unfold depth
      omega

theorem Nested.dyckWord {steps : List DyckStep} (h : Nested steps) :
    ∃ p : DyckWord, p.toList = steps := by
  induction h with
  | nil => exact ⟨0, rfl⟩
  | group _ _ hinside hbehind =>
    obtain ⟨p, rfl⟩ := hinside
    obtain ⟨q, rfl⟩ := hbehind
    refine ⟨p.nest + q, ?_⟩
    show [U] ++ p.toList ++ [D] ++ q.toList = _
    simp

theorem nested_of_dyckWord (p : DyckWord) : Nested p.toList := by
  induction hn : p.semilength using Nat.strong_induction_on generalizing p with
  | _ n ih =>
    by_cases hp : p = 0
    · rw [hp]
      exact .nil
    · have hinside := ih _ (hn ▸ DyckWord.semilength_insidePart_lt hp) p.insidePart rfl
      have hbehind := ih _ (hn ▸ DyckWord.semilength_outsidePart_lt hp) p.outsidePart rfl
      have hsplit := congrArg DyckWord.toList (DyckWord.nest_insidePart_add_outsidePart hp)
      rw [← hsplit]
      show Nested ([U] ++ p.insidePart.toList ++ [D] ++ p.outsidePart.toList)
      simpa using Nested.group hinside hbehind

theorem balanced_iff_nested {steps : List DyckStep} : Balanced steps ↔ Nested steps := by
  rw [balanced_iff_dyckWord]
  constructor
  · rintro ⟨p, rfl⟩
    exact nested_of_dyckWord p
  · exact Nested.dyckWord

/-! ## The bracket that closes an open one -/

/-- The depth after a sequence, unless it closes more than is open. -/
def level (n : Nat) : List DyckStep → Option Nat
  | [] => some n
  | U :: rest => level (n + 1) rest
  | D :: rest =>
    match n with
    | 0 => none
    | n + 1 => level n rest

theorem forall_take_cons {step : DyckStep} {rest : List DyckStep} {n : Int} :
    (∀ i, 0 ≤ n + depth ((step :: rest).take i)) ↔
      0 ≤ n ∧ ∀ i, 0 ≤ n + depth (step :: rest.take i) := by
  constructor
  · intro h
    exact ⟨by simpa using h 0, fun i => by simpa using h (i + 1)⟩
  · rintro ⟨hzero, hsucc⟩ i
    cases i with
    | zero => simpa using hzero
    | succ i => simpa using hsucc i

theorem level_eq_some {n m : Nat} {steps : List DyckStep} :
    level n steps = some m ↔
      (∀ i, 0 ≤ (n : Int) + depth (steps.take i)) ∧ (m : Int) = n + depth steps := by
  induction steps generalizing n with
  | nil =>
    simp only [level, List.take_nil, depth_nil, Option.some.injEq]
    constructor
    · intro h
      exact ⟨fun _ => by omega, by omega⟩
    · rintro ⟨-, htotal⟩
      omega
  | cons step rest ih =>
    rw [forall_take_cons]
    cases step with
    | U =>
      rw [level, ih]
      simp only [depth_open]
      constructor
      · rintro ⟨hlow, htotal⟩
        exact ⟨⟨by omega, fun i => by have := hlow i; omega⟩, by omega⟩
      · rintro ⟨⟨-, hlow⟩, htotal⟩
        exact ⟨fun i => by have := hlow i; omega, by omega⟩
    | D =>
      cases n with
      | zero =>
        simp only [level, depth_close]
        constructor
        · intro h
          cases h
        · rintro ⟨⟨-, hlow⟩, -⟩
          have := hlow 0
          simp at this
      | succ n =>
        rw [level, ih]
        simp only [depth_close]
        constructor
        · rintro ⟨hlow, htotal⟩
          exact ⟨⟨by omega, fun i => by have := hlow i; omega⟩, by omega⟩
        · rintro ⟨⟨-, hlow⟩, htotal⟩
          exact ⟨fun i => by have := hlow i; omega, by omega⟩

variable {α : Type} (bracket : α → Option DyckStep)

/-- How many characters stand in front of the one that closes the outermost of the open
brackets. -/
def closing (opened : Nat) : List α → Option Nat
  | [] => none
  | a :: rest =>
    match bracket a with
    | none => (closing opened rest).map (· + 1)
    | some U => (closing (opened + 1) rest).map (· + 1)
    | some D => if opened ≤ 1 then some 0 else (closing (opened - 1) rest).map (· + 1)

theorem closing_eq_level {a : α} (ha : bracket a = some D) (text more : List α) (n : Nat) :
    closing bracket (n + 1) (text ++ a :: more) = some text.length ↔
      level n (text.filterMap bracket) = some 0 := by
  induction text generalizing n with
  | nil =>
    rw [List.nil_append, closing, ha, List.filterMap_nil, level]
    cases n with
    | zero => simp
    | succ n =>
      simp only [List.length_nil, Option.some.injEq, Nat.add_eq_zero_iff, one_ne_zero, and_false]
      split <;> simp_all
  | cons b rest ih =>
    rw [List.cons_append, closing, List.length_cons]
    cases hb : bracket b with
    | none =>
      rw [List.filterMap_cons_none hb, ← ih]
      simp
    | some step =>
      rw [List.filterMap_cons_some hb]
      cases step with
      | U =>
        rw [level, ← ih]
        simp
      | D =>
        cases n with
        | zero => simp [level]
        | succ n =>
          rw [level, ← ih]
          simp

/-- A pair of brackets around a text closes where it is put when the text is balanced, and only
then. -/
theorem closing_eq_length {a : α} (ha : bracket a = some D) (text more : List α) :
    closing bracket 1 (text ++ a :: more) = some text.length ↔
      Balanced (text.filterMap bracket) := by
  rw [closing_eq_level bracket ha, level_eq_some]
  simp [Balanced, eq_comm]

end Text
end BaseAgent
