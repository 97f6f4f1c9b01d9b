import Mathlib.Data.String.Basic
import BaseAgent.Models.Python

/-!
# The order of UUIDs

`str(uuid)` orders UUIDs as a database does, which compares their 128 bits: the text has the same
number of digits for each of them and its hyphens in the same places.
-/

namespace BaseAgent

/-- The last `k` hexadecimal digits. -/
def hexDigits (u : Nat) : Nat → List Char
  | 0 => []
  | k + 1 => hexDigits (u / 16) k ++ [Nat.digitChar (u % 16)]

@[simp] theorem length_hexDigits (u k : Nat) : (hexDigits u k).length = k := by
  induction k generalizing u with
  | zero => rfl
  | succ k ih => rw [hexDigits, List.length_append, ih, List.length_singleton]

theorem hexDigits_zero (k : Nat) : hexDigits 0 k = List.replicate k '0' := by
  induction k with
  | zero => rfl
  | succ k ih =>
    rw [hexDigits, List.replicate_succ', Nat.zero_div, ih]
    rfl

theorem padded_toDigits {u k : Nat} (h : u < 16 ^ (k + 1)) :
    List.replicate (k + 1 - (Nat.toDigits 16 u).length) '0' ++ Nat.toDigits 16 u =
      hexDigits u (k + 1) := by
  induction k generalizing u with
  | zero =>
    rw [Nat.toDigits_of_lt_base (by simpa using h), hexDigits, Nat.mod_eq_of_lt (by simpa using h)]
    rfl
  | succ k ih =>
    by_cases hsmall : u < 16
    · rw [Nat.toDigits_of_lt_base hsmall, hexDigits, Nat.div_eq_of_lt hsmall,
        Nat.mod_eq_of_lt hsmall, hexDigits_zero]
      rfl
    · have hdiv : u / 16 < 16 ^ (k + 1) := by
        rw [Nat.div_lt_iff_lt_mul (by omega), ← Nat.pow_succ]
        exact h
      rw [Nat.toDigits_of_base_le (by omega) (by omega), hexDigits, ← ih hdiv,
        List.length_append, List.length_singleton, List.append_assoc, Nat.add_sub_add_right]

section Order

variable {α : Type} [LT α]

theorem insert_lt_insert [Std.Irrefl (α := α) (· < ·)] {p q r s : List α} {c : α} (h : p.length = q.length) :
    p ++ c :: r < q ++ c :: s ↔ p ++ r < q ++ s := by
  induction p generalizing q with
  | nil =>
    cases q with
    | nil =>
      simp only [List.nil_append, List.cons_lt_cons_iff, true_and, or_iff_right_iff_imp]
      exact fun hlt => absurd hlt (Std.Irrefl.irrefl c)
    | cons b q => simp at h
  | cons a p ih =>
    cases q with
    | nil => simp at h
    | cons b q =>
      simp only [List.cons_append, List.cons_lt_cons_iff]
      rw [ih (by simpa using h)]

/-- Lists of one length are ordered by their beginnings first. -/
theorem snoc_lt_snoc {p q : List α} {x y : α} (h : p.length = q.length) :
    p ++ [x] < q ++ [y] ↔ p < q ∨ p = q ∧ x < y := by
  induction p generalizing q with
  | nil =>
    cases q with
    | nil => simp [List.cons_lt_cons_iff]
    | cons b q => simp at h
  | cons a p ih =>
    cases q with
    | nil => simp at h
    | cons b q =>
      simp only [List.cons_append, List.cons_lt_cons_iff, List.cons.injEq]
      rw [ih (by simpa using h)]
      tauto

end Order

theorem digitChar_lt {a b : Nat} (ha : a < 16) (hb : b < 16) :
    Nat.digitChar a < Nat.digitChar b ↔ a < b := by
  have hall : ∀ a b : Fin 16, Nat.digitChar a < Nat.digitChar b ↔ a < b := by decide
  exact hall ⟨a, ha⟩ ⟨b, hb⟩

theorem hexDigits_inj {a b k : Nat} (ha : a < 16 ^ k) (hb : b < 16 ^ k) :
    hexDigits a k = hexDigits b k ↔ a = b := by
  induction k generalizing a b with
  | zero =>
    rw [Nat.pow_zero] at ha hb
    have hsame : a = b := by omega
    simp [hsame]
  | succ k ih =>
    have hdiv : ∀ u, u < 16 ^ (k + 1) → u / 16 < 16 ^ k := by
      intro u hu
      rw [Nat.div_lt_iff_lt_mul (by omega), ← Nat.pow_succ]
      exact hu
    constructor
    · intro h
      have hparts := List.append_inj' h rfl
      have hhigh := (ih (hdiv a ha) (hdiv b hb)).mp hparts.1
      have hlow : ¬ a % 16 < b % 16 ∧ ¬ b % 16 < a % 16 := by
        have hchar : Nat.digitChar (a % 16) = Nat.digitChar (b % 16) :=
          List.singleton_inj.mp hparts.2
        rw [← digitChar_lt (by omega) (by omega), ← digitChar_lt (by omega) (by omega), hchar]
        exact ⟨lt_irrefl _, lt_irrefl _⟩
      omega
    · exact fun h => by rw [h]

theorem hexDigits_lt {a b k : Nat} (ha : a < 16 ^ k) (hb : b < 16 ^ k) :
    hexDigits a k < hexDigits b k ↔ a < b := by
  induction k generalizing a b with
  | zero =>
    rw [Nat.pow_zero] at ha hb
    have hsame : ¬ a < b := by omega
    simp [hexDigits, hsame]
  | succ k ih =>
    have hdiv : ∀ u, u < 16 ^ (k + 1) → u / 16 < 16 ^ k := by
      intro u hu
      rw [Nat.div_lt_iff_lt_mul (by omega), ← Nat.pow_succ]
      exact hu
    rw [hexDigits, hexDigits, snoc_lt_snoc (by simp), ih (hdiv a ha) (hdiv b hb),
      hexDigits_inj (hdiv a ha) (hdiv b hb), digitChar_lt (by omega) (by omega)]
    omega

theorem groups_eq {p : List Char} (h : p.length = 32) :
    (p.drop 0).take 8 ++ ((p.drop 8).take 4 ++ ((p.drop 12).take 4 ++
      ((p.drop 16).take 4 ++ (p.drop 20).take 12))) = p := by
  have hstep : ∀ start size, (p.drop start).take size ++ p.drop (start + size) = p.drop start := by
    intro start size
    rw [← List.drop_drop, List.take_append_drop]
  rw [List.take_of_length_le (show (p.drop 20).length ≤ 12 by rw [List.length_drop]; omega),
    hstep 16 4, hstep 12 4, hstep 8 4, hstep 0 8, List.drop_zero]

theorem uuidText_lt_digits {a b : UUID} (ha : a < 2 ^ 128) (hb : b < 2 ^ 128) :
    uuidText a < uuidText b ↔ hexDigits a 32 < hexDigits b 32 := by
  have hpadded : ∀ u : UUID, u < 2 ^ 128 →
      List.replicate (32 - (Nat.toDigits 16 u).length) '0' ++ Nat.toDigits 16 u =
        hexDigits u 32 := fun u hu => padded_toDigits (k := 31) (by omega)
  rw [String.lt_iff_toList_lt]
  simp only [uuidText, String.toList_ofList, hpadded a ha, hpadded b hb]
  simp only [List.append_assoc, List.cons_append]
  rw [insert_lt_insert (by simp), ← List.append_assoc, ← List.append_assoc,
    insert_lt_insert (by simp), ← List.append_assoc, ← List.append_assoc,
    insert_lt_insert (by simp), ← List.append_assoc, ← List.append_assoc,
    insert_lt_insert (by simp)]
  simp only [List.append_assoc]
  rw [groups_eq (by simp), groups_eq (by simp)]

theorem uuidText_lt {a b : UUID} (ha : a < 2 ^ 128) (hb : b < 2 ^ 128) :
    uuidText a < uuidText b ↔ a < b := by
  rw [uuidText_lt_digits ha hb]
  exact hexDigits_lt (by omega) (by omega)

end BaseAgent
