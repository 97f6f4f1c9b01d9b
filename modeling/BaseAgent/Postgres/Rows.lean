import Mathlib.Data.List.Induction
import Mathlib.Data.List.Nodup
import Mathlib.Data.List.Sort

/-!
# Numbered rows

A table is the list of its rows.  Rows that are selected come in the order of a key.  Where a column
is unique, the table is a map from its values to rows.

The rows of one owner can be numbered from one: a new row gets the maximum of the numbers plus one,
and the rows are read in the order of their numbers.  As long as the rows are only added, this is
the order in which they were added.
-/

namespace BaseAgent
namespace Postgres

variable {α β : Type} [LinearOrder β]

/-! ## Order -/

/-- `order_by(key)`. -/
def orderBy (key : α → β) (rows : List α) : List α := rows.insertionSort fun a b => key a ≤ key b

/-- The smaller of two rows, the first one where they are equal. -/
def smaller (key : α → β) (first second : α) : α :=
  if key second < key first then second else first

/-- `min(rows, key=key)`, the first of the least ones. -/
def leastBy (key : α → β) : List α → Option α
  | [] => none
  | row :: rest => some (rest.foldl (smaller key) row)

section Order

variable {key : α → β}

theorem smaller_assoc (a b c : α) :
    smaller key (smaller key a b) c = smaller key a (smaller key b c) := by
  unfold smaller
  by_cases h : key b < key a
  · by_cases h' : key c < key b
    · simp [h, h', h'.trans h]
    · simp [h, h']
  · by_cases h' : key c < key b
    · simp [h, h']
    · have hnot : ¬ key c < key a := not_lt.mpr ((not_lt.mp h).trans (not_lt.mp h'))
      simp [h, h', hnot]

theorem foldl_smaller (rest : List α) (a b : α) :
    rest.foldl (smaller key) (smaller key a b) = smaller key a (rest.foldl (smaller key) b) := by
  induction rest generalizing b with
  | nil => rfl
  | cons next rest ih => rw [List.foldl_cons, smaller_assoc, ih, List.foldl_cons]

theorem head_orderBy (rows : List α) : (orderBy key rows).head? = leastBy key rows := by
  induction rows with
  | nil => rfl
  | cons row rows ih =>
    cases rows with
    | nil => rfl
    | cons next rest =>
      obtain ⟨least, hleast⟩ : ∃ least, leastBy key (next :: rest) = some least := ⟨_, rfl⟩
      rw [hleast] at ih
      obtain ⟨tail, htail⟩ := List.head?_eq_some_iff.mp ih
      have hrow : leastBy key (row :: next :: rest) = some (smaller key row least) := by
        simp only [leastBy, Option.some.injEq] at hleast ⊢
        rw [List.foldl_cons, foldl_smaller, hleast]
      have hcons : orderBy key (row :: next :: rest) =
          List.orderedInsert (fun a b => key a ≤ key b) row (orderBy key (next :: rest)) := rfl
      rw [hrow, hcons, htail]
      unfold smaller
      by_cases h : key least < key row
      · rw [if_pos h, List.orderedInsert_cons, if_neg (not_le.mpr h)]
        rfl
      · rw [if_neg h, List.orderedInsert_cons, if_pos (not_lt.mp h)]
        rfl

theorem map_orderBy {γ β' : Type} [LinearOrder β'] {key' : γ → β'} {f : α → γ} {rows : List α}
    (h : ∀ a ∈ rows, ∀ b ∈ rows, key a ≤ key b ↔ key' (f a) ≤ key' (f b)) :
    (orderBy key rows).map f = orderBy key' (rows.map f) :=
  List.map_insertionSort _ _ _ _ h

end Order

/-! ## Keys -/

section Keys

variable {κ γ : Type} [DecidableEq κ]

def rowOf (key : α → κ) (rows : List α) (k : κ) : Option α := rows.find? fun row => key row = k

/-- Replace the rows under the key of `row`. -/
def setRow (key : α → κ) (rows : List α) (row : α) : List α :=
  rows.map fun old => if key old = key row then row else old

variable {key : α → κ} {rows : List α} {row : α} {k : κ}

theorem rowOf_some (h : rowOf key rows k = some row) : row ∈ rows ∧ key row = k :=
  ⟨List.mem_of_find?_eq_some h, by simpa using List.find?_some h⟩

theorem rowOf_none : rowOf key rows k = none ↔ k ∉ rows.map key := by
  simp [rowOf, List.find?_eq_none]

theorem rowOf_isSome : (rowOf key rows k).isSome = true ↔ k ∈ rows.map key := by
  rw [← not_iff_not, ← rowOf_none, Bool.not_eq_true, Option.isSome_eq_false_iff, Option.isNone_iff_eq_none]

theorem rowOf_append (h : key row ∉ rows.map key) (k : κ) :
    rowOf key (rows ++ [row]) k = if k = key row then some row else rowOf key rows k := by
  have happend : rowOf key (rows ++ [row]) k = (rowOf key rows k).or (rowOf key [row] k) :=
    List.find?_append
  rw [happend]
  by_cases hk : k = key row
  · subst hk
    rw [rowOf_none.mpr h, if_pos rfl]
    simp [rowOf]
  · have hne : rowOf key [row] k = none := by
      rw [rowOf_none, List.map_singleton, List.mem_singleton]
      exact hk
    rw [hne, Option.or_none, if_neg hk]

theorem rowOf_setRow (h : key row ∈ rows.map key) (k : κ) :
    rowOf key (setRow key rows row) k = if k = key row then some row else rowOf key rows k := by
  have hkept : ∀ old, key (if key old = key row then row else old) = key old := by
    intro old
    split
    · rename_i heq
      exact heq.symm
    · rfl
  have hfind : rowOf key (setRow key rows row) k =
      (rowOf key rows k).map fun old => if key old = key row then row else old := by
    unfold rowOf setRow
    rw [List.find?_map]
    congr 2
    funext old
    show decide (key (if key old = key row then row else old) = k) = _
    rw [hkept]
  rw [hfind]
  by_cases hk : k = key row
  · subst hk
    obtain ⟨old, hold⟩ := Option.isSome_iff_exists.mp (rowOf_isSome.mpr h)
    rw [hold, Option.map_some, if_pos (rowOf_some hold).2, if_pos rfl]
  · rw [if_neg hk]
    cases hold : rowOf key rows k with
    | none => rfl
    | some old =>
      have hne : key old ≠ key row := fun heq => hk ((rowOf_some hold).2.symm.trans heq)
      rw [Option.map_some, if_neg hne]

theorem map_key_setRow : (setRow key rows row).map key = rows.map key := by
  unfold setRow
  rw [List.map_map]
  apply List.map_congr_left
  intro old _
  show key (if key old = key row then row else old) = key old
  split
  · rename_i heq
    exact heq.symm
  · rfl

theorem nodup_setRow {value : α → γ} (hkeys : (rows.map key).Nodup)
    (hvalues : (rows.map value).Nodup)
    (hnew : ∀ old ∈ rows, key old ≠ key row → value old ≠ value row) :
    ((setRow key rows row).map value).Nodup := by
  unfold setRow
  rw [List.map_map]
  apply List.Nodup.map_on _ hvalues.of_map
  intro a ha b hb
  show value (if key a = key row then row else a) = value (if key b = key row then row else b) → _
  by_cases hka : key a = key row
  · by_cases hkb : key b = key row
    · intro _
      exact List.inj_on_of_nodup_map hkeys ha hb (hka.trans hkb.symm)
    · rw [if_pos hka, if_neg hkb]
      intro heq
      exact absurd heq.symm (hnew b hb hkb)
  · by_cases hkb : key b = key row
    · rw [if_neg hka, if_pos hkb]
      intro heq
      exact absurd heq (hnew a ha hka)
    · rw [if_neg hka, if_neg hkb]
      exact List.inj_on_of_nodup_map hvalues ha hb

theorem filter_key_eq (hkeys : (rows.map key).Nodup) (h : rowOf key rows k = some row) :
    rows.filter (fun old => key old = k) = [row] := by
  induction rows with
  | nil => cases h
  | cons old rest ih =>
    rw [List.map_cons, List.nodup_cons] at hkeys
    by_cases hk : key old = k
    · have hrow : old = row := by simpa [rowOf, hk] using h
      have hrest : rest.filter (fun other => key other = k) = [] := by
        rw [List.filter_eq_nil_iff]
        intro other hother
        have hne : key other ≠ k := fun heq =>
          hkeys.1 (List.mem_map.mpr ⟨other, hother, heq.trans hk.symm⟩)
        simpa using hne
      rw [List.filter_cons_of_pos (by simpa using hk), hrest, hrow]
    · have hfind : rowOf key rest k = some row := by simpa [rowOf, hk] using h
      rw [List.filter_cons_of_neg (by simpa using hk), ih hkeys.2 hfind]

/-- Rows that are numbered apart under each key have a key of two columns. -/
theorem nodup_pairs {number : α → Nat}
    (h : ∀ k, ((rows.filter fun row => key row = k).map number).Nodup) :
    (rows.map fun row => (key row, number row)).Nodup := by
  induction rows with
  | nil => exact List.nodup_nil
  | cons row rest ih =>
    rw [List.map_cons, List.nodup_cons]
    constructor
    · intro hmem
      obtain ⟨other, hother, heq⟩ := List.mem_map.mp hmem
      obtain ⟨hkey, hnumber⟩ := Prod.mk.inj heq
      have hrow := h (key row)
      rw [List.filter_cons_of_pos (by simp), List.map_cons, List.nodup_cons] at hrow
      exact hrow.1 (List.mem_map.mpr ⟨other, List.mem_filter.mpr ⟨hother, by simpa using hkey⟩,
        hnumber⟩)
    · apply ih
      intro k
      exact (h k).sublist (((List.sublist_cons_self row rest).filter _).map _)

end Keys
/-! ## Numbers -/

variable (number : α → Nat)

/-- `select(func.max(number))`, with zero for no rows. -/
def maximum (rows : List α) : Nat := rows.foldl (fun largest row => max largest (number row)) 0

/-- The rows are numbered from one in their order. -/
def Consecutive (rows : List α) : Prop := rows.map number = List.range' 1 rows.length

variable {number}

theorem Consecutive.nil : Consecutive number [] := rfl

theorem consecutive_snoc {rows : List α} {row : α} :
    Consecutive number (rows ++ [row]) ↔
      Consecutive number rows ∧ number row = rows.length + 1 := by
  unfold Consecutive
  rw [List.map_append, List.length_append, List.length_singleton, List.range'_concat]
  constructor
  · intro h
    have hparts := List.append_inj h (by simp)
    have hnumber : number row = 1 + 1 * rows.length := by simpa using hparts.2
    exact ⟨hparts.1, by omega⟩
  · intro h
    have hnumber : number row = 1 + 1 * rows.length := by omega
    rw [h.1, List.map_singleton, hnumber]

theorem Consecutive.append {rows added : List α} (h : Consecutive number rows)
    (hadded : added.map number = List.range' (rows.length + 1) added.length) :
    Consecutive number (rows ++ added) := by
  unfold Consecutive at h ⊢
  rw [List.map_append, h, hadded, List.length_append, Nat.add_comm rows.length 1,
    List.range'_append_1]

theorem Consecutive.nodup {rows : List α} (h : Consecutive number rows) :
    (rows.map number).Nodup := by
  rw [h]
  exact List.nodup_range'

theorem Consecutive.maximum_eq {rows : List α} (h : Consecutive number rows) :
    maximum number rows = rows.length := by
  induction rows using List.reverseRecOn with
  | nil => rfl
  | append_singleton rows row ih =>
    obtain ⟨hrows, hrow⟩ := consecutive_snoc.mp h
    have hmax : maximum number (rows ++ [row]) = max (maximum number rows) (number row) := by
      simp [maximum, List.foldl_append]
    rw [hmax, ih hrows, hrow, List.length_append, List.length_singleton]
    omega

theorem Consecutive.orderBy_eq {rows : List α} (h : Consecutive number rows) :
    orderBy number rows = rows := by
  apply List.Pairwise.insertionSort_eq
  have hpairs : (rows.map number).Pairwise (· ≤ ·) := by
    rw [h]
    exact (List.pairwise_lt_range').imp Nat.le_of_lt
  exact List.pairwise_map.mp hpairs

end Postgres
end BaseAgent
