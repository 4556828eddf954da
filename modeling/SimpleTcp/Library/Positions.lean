import Mathlib.Data.List.Infix

/-!
# Lists by position

A list whose elements are known by their positions grows at its end, and changes at one position at
a time. What holds of the element at a position can be said without naming the element.

## Main definitions

* `Positions.At l pos p`: there is an element at the position, and it has the property

## Main results

* `get_concat_iff`, `get_set_iff`: the elements of a list that has grown or changed
* `at_concat_iff`, `at_set_iff`: what holds at the positions of such a list
* `at_set_of_iff`: a change that the property does not tell
-/

namespace Positions

variable {α : Type} {l : List α} {pos q : ℕ} {a b : α} {p : α → Prop}

/-- There is an element at the position, and it has the property. -/
def At (l : List α) (pos : ℕ) (p : α → Prop) : Prop := ∃ a ∈ l[pos]?, p a

instance [DecidablePred p] : Decidable (At l pos p) :=
  inferInstanceAs (Decidable (∃ a ∈ l[pos]?, p a))

/-! ## Elements -/

/-- The elements of a list that has grown: the old ones and the new one. -/
theorem get_concat_iff : (l ++ [a])[q]? = some b ↔ l[q]? = some b ∨ q = l.length ∧ b = a := by
  rcases Nat.lt_trichotomy q l.length with hlt | rfl | hgt
  · rw [List.getElem?_append_left hlt]
    simp [hlt.ne]
  · simp [eq_comm]
  · have hlen : (l ++ [a]).length ≤ q := by simpa [Nat.succ_le_iff] using hgt
    rw [List.getElem?_eq_none hlen, List.getElem?_eq_none hgt.le]
    simp [hgt.ne']

/-- The elements of a list that has changed at a position. -/
theorem get_set_iff :
    (l.set pos a)[q]? = some b ↔ q = pos ∧ b = a ∧ pos < l.length ∨ q ≠ pos ∧ l[q]? = some b := by
  by_cases hq : q = pos
  · subst hq
    rw [List.getElem?_set_self']
    rcases Nat.lt_or_ge q l.length with hlt | hge
    · simp [hlt, eq_comm]
    · simp [hge.not_gt]
  · rw [List.getElem?_set_ne (Ne.symm hq)]
    simp [hq]

/-! ## What holds at a position -/

theorem at_iff_of_get (h : l[pos]? = some a) : At l pos p ↔ p a := by
  simp [At, h]

theorem at_concat_iff : At (l ++ [a]) q p ↔ At l q p ∨ q = l.length ∧ p a := by
  simp only [At, Option.mem_def, get_concat_iff, or_and_right, exists_or, and_assoc,
    exists_and_left, exists_eq_left]

/-- The element at a position is another one now. -/
theorem at_set_iff (h : l[pos]? = some a) :
    At (l.set pos b) q p ↔ q = pos ∧ p b ∨ q ≠ pos ∧ At l q p := by
  have hlt : pos < l.length := (List.getElem?_eq_some_iff.mp h).1
  simp only [At, Option.mem_def, get_set_iff, hlt, and_true, or_and_right, exists_or, and_assoc,
    exists_and_left, exists_eq_left]

theorem at_set_of_ne (hq : q ≠ pos) : At (l.set pos b) q p ↔ At l q p := by
  rw [At, List.getElem?_set_ne (Ne.symm hq)]
  rfl

/-- A change that the property does not tell. -/
theorem at_set_of_iff (h : l[pos]? = some a) (hp : p b ↔ p a) :
    At (l.set pos b) q p ↔ At l q p := by
  by_cases hq : q = pos
  · subst hq
    rw [at_set_iff h, at_iff_of_get h]
    simp [hp]
  · exact at_set_of_ne hq

end Positions
