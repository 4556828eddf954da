import Mathlib.Data.List.Induction
import Mathlib.Data.Nat.ModEq

/-!
# Round robin

Whoever is asked for a list's elements in turn, from some position on and from the first again after
the last, gives all of them equally often, up to one time.

## Main definitions

* `RoundRobin.Rotates xs start ys`: `ys` are the elements of `xs` in turn

## Main results

* `Rotates.concat`: the next element
* `Rotates.count_add`: how often an element was given
* `Rotates.count_le`: the elements are given equally often, up to one time
-/

namespace RoundRobin

variable {α : Type} {xs ys : List α} {start : ℕ} {a b : α}

/-- The elements of the list in turn, from the position on. -/
def Rotates (xs : List α) (start : ℕ) (ys : List α) : Prop :=
  ∀ k < ys.length, ys[k]? = xs[(start + k) % xs.length]?

theorem Rotates.nil : Rotates xs start [] := fun _ hk => absurd hk (Nat.not_lt_zero _)

theorem rotates_concat_iff :
    Rotates xs start (ys ++ [a]) ↔
      Rotates xs start ys ∧ xs[(start + ys.length) % xs.length]? = some a := by
  constructor
  · intro h
    have hlen : (ys ++ [a]).length = ys.length + 1 := List.length_append
    refine ⟨fun k hk => ?_, ?_⟩
    · have hget := h k (by omega)
      rwa [List.getElem?_append_left hk] at hget
    · have hget := h ys.length (by omega)
      rw [List.getElem?_concat_length] at hget
      exact hget.symm
  · rintro ⟨h, hlast⟩ k hk
    rw [List.length_append, List.length_singleton] at hk
    rcases Nat.lt_or_eq_of_le (Nat.lt_succ_iff.mp hk) with hlt | rfl
    · rw [List.getElem?_append_left hlt]
      exact h k hlt
    · rw [List.getElem?_concat_length]
      exact hlast.symm

/-- The next element is given. -/
theorem Rotates.concat (h : Rotates xs start ys)
    (hnext : xs[(start + ys.length) % xs.length]? = some a) : Rotates xs start (ys ++ [a]) :=
  rotates_concat_iff.mpr ⟨h, hnext⟩

/-- The multiples of `n` come when `r` is the remainder. -/
theorem dvd_succ_iff {n m r : ℕ} (hr : r < n) : n ∣ m + (n - 1 - r) + 1 ↔ m % n = r := by
  have hsum : m + (n - 1 - r) + 1 = m + (n - r) := by omega
  have hmod : m % n < n := Nat.mod_lt _ (by omega)
  have hdecomp := Nat.div_add_mod m n
  rw [hsum]
  constructor
  · rintro ⟨q, hq⟩
    have hr' : m = r + n * (q - 1) := by
      cases q with
      | zero => omega
      | succ q =>
        rw [Nat.mul_succ] at hq
        rw [Nat.add_sub_cancel]
        omega
    rw [hr', Nat.add_mul_mod_self_left, Nat.mod_eq_of_lt hr]
  · intro hm
    refine ⟨m / n + 1, ?_⟩
    rw [Nat.mul_succ]
    omega

/-- How often an element was given. -/
theorem Rotates.count_add [DecidableEq α] (hnodup : xs.Nodup) {r : ℕ} (hr : xs[r]? = some a)
    (h : Rotates xs start ys) :
    ys.count a + (start + (xs.length - 1 - r)) / xs.length =
      (start + (xs.length - 1 - r) + ys.length) / xs.length := by
  obtain ⟨hlt, -⟩ := List.getElem?_eq_some_iff.mp hr
  induction ys using List.reverseRecOn with
  | nil => simp
  | append_singleton ys b ih =>
    obtain ⟨hys, hnext⟩ := rotates_concat_iff.mp h
    have hcount := ih hys
    have hpos : (start + ys.length) % xs.length < xs.length := Nat.mod_lt _ (by omega)
    have hlength : start + (xs.length - 1 - r) + (ys ++ [b]).length =
        start + ys.length + (xs.length - 1 - r) + 1 := by
      rw [List.length_append, List.length_singleton]
      omega
    have hcomm : start + (xs.length - 1 - r) + ys.length =
        start + ys.length + (xs.length - 1 - r) := by omega
    -- the element is given when its position comes
    have hsame : b = a ↔ (start + ys.length) % xs.length = r := by
      constructor
      · rintro rfl
        exact (List.getElem?_inj hpos hnodup).mp (hnext.trans hr.symm)
      · intro hpos'
        rw [hpos', hr] at hnext
        exact (Option.some.inj hnext).symm
    -- the quotient grows when the next element is the one that is counted
    rw [hlength, Nat.succ_div, ← hcomm, ← hcount, List.count_append, List.count_singleton]
    by_cases hb : b = a
    · have hdvd := (dvd_succ_iff hlt).mpr (hsame.mp hb)
      rw [if_pos (by simpa using hb), hcomm, if_pos hdvd]
      omega
    · have hdvd := (dvd_succ_iff hlt).not.mpr (hsame.not.mp hb)
      rw [if_neg (by simpa using hb), hcomm, if_neg hdvd]
      omega

/-- **Round robin is fair**: the elements are given equally often, up to one time. -/
theorem Rotates.count_le [DecidableEq α] (hnodup : xs.Nodup) (h : Rotates xs start ys)
    (ha : a ∈ xs) (hb : b ∈ xs) : ys.count a ≤ ys.count b + 1 := by
  obtain ⟨r, hr⟩ := List.mem_iff_getElem?.mp ha
  obtain ⟨q, hq⟩ := List.mem_iff_getElem?.mp hb
  have hpos : 0 < xs.length := List.length_pos_of_mem ha
  have hcounta := h.count_add hnodup hr
  have hcountb := h.count_add hnodup hq
  -- the calls are full rounds and the rest of one, in which an element comes once at most
  have hrounds (x : ℕ) : x / xs.length + ys.length / xs.length ≤ (x + ys.length) / xs.length ∧
      (x + ys.length) / xs.length ≤ x / xs.length + ys.length / xs.length + 1 := by
    rw [Nat.add_div hpos]
    split <;> omega
  have hrounda := hrounds (start + (xs.length - 1 - r))
  have hroundb := hrounds (start + (xs.length - 1 - q))
  omega

end RoundRobin
