import Mathlib.Data.List.Infix

/-!
# Traces

A trace is a list that grows at its end. A property of a trace is often a condition on each of its
entries and on the entries before it; such a property is checked entry by entry as the trace
grows.

## Main definitions

* `Each P t`: every entry of `t` satisfies `P` together with the entries before it
* `Precedes t x y`: the entry `x` stands in `t` somewhere before `y`

## Main results

* `each_concat`: the last entry is checked by itself
* `each_append`: entries that satisfy `P` wherever they stand need no check
* `precedes_append_iff`, `precedes_concat_iff`: what a trace that has grown puts in order
* `Precedes.asymm`: in a trace without duplicates one order excludes the other
-/

namespace Trace

variable {α : Type} {P : List α → α → Prop} {t es : List α} {e : α}

/-- Every entry of `t` satisfies `P` together with the entries before it. -/
def Each (P : List α → α → Prop) (t : List α) : Prop :=
  ∀ pre e post, t = pre ++ e :: post → P pre e

theorem each_nil : Each P [] := fun _ _ _ h => by simp at h

theorem each_concat : Each P (t ++ [e]) ↔ Each P t ∧ P t e := by
  constructor
  · refine fun h => ⟨fun pre e' post ht => h pre e' (post ++ [e]) ?_, h t e [] rfl⟩
    rw [ht, List.append_assoc, List.cons_append]
  · rintro ⟨h, he⟩ pre e' post ht
    rcases List.eq_nil_or_concat post with rfl | ⟨post', x, rfl⟩
    · obtain ⟨rfl, hlast⟩ := List.append_inj' ht rfl
      obtain rfl := List.singleton_inj.mp hlast
      exact he
    · have hassoc : t ++ [e] = (pre ++ e' :: post') ++ [x] := by
        rw [ht, List.concat_eq_append, List.append_assoc, List.cons_append]
      obtain ⟨hpre, -⟩ := List.append_inj' hassoc rfl
      exact h pre e' post' hpre

theorem each_append (hes : ∀ pre, ∀ e ∈ es, P pre e) : Each P (t ++ es) ↔ Each P t := by
  induction es generalizing t with
  | nil => rw [List.append_nil]
  | cons e es ih =>
    rw [List.append_cons, ih fun pre e' he' => hes pre e' (List.mem_cons_of_mem _ he'), each_concat]
    exact and_iff_left (hes t e List.mem_cons_self)

/-! ## Order -/

section Order

variable {u : List α} {x y z : α}

/-- The entry `x` stands in the trace somewhere before `y`. -/
def Precedes (t : List α) (x y : α) : Prop := [x, y].Sublist t

instance [DecidableEq α] (t : List α) (x y : α) : Decidable (Precedes t x y) :=
  inferInstanceAs (Decidable (List.Sublist _ _))

theorem Precedes.left_mem (h : Precedes t x y) : x ∈ t := h.subset (by simp)

theorem Precedes.right_mem (h : Precedes t x y) : y ∈ t := h.subset (by simp)

theorem Precedes.sublist (h : Precedes t x y) (htu : t.Sublist u) : Precedes u x y := h.trans htu

@[simp] theorem not_precedes_nil : ¬ Precedes [] x y := fun h => by simpa using h.left_mem

theorem precedes_cons_iff : Precedes (z :: t) x y ↔ Precedes t x y ∨ x = z ∧ y ∈ t := by
  rw [Precedes, List.sublist_cons_iff]
  refine or_congr Iff.rfl ⟨?_, ?_⟩
  · rintro ⟨l, hl, h⟩
    obtain ⟨rfl, rfl⟩ := List.cons.inj hl
    exact ⟨rfl, List.singleton_sublist.mp h⟩
  · rintro ⟨rfl, hy⟩
    exact ⟨[y], rfl, List.singleton_sublist.mpr hy⟩

/-- Two entries of a trace in two parts stand in the first part, in the second, or across. -/
theorem precedes_append_iff :
    Precedes (t ++ u) x y ↔ Precedes t x y ∨ x ∈ t ∧ y ∈ u ∨ Precedes u x y := by
  induction t with
  | nil => simp [Precedes]
  | cons z t ih =>
    rw [List.cons_append, precedes_cons_iff, precedes_cons_iff, ih, List.mem_append, List.mem_cons,
      and_or_left, or_and_right]
    constructor
    · rintro ((h | h | h) | h | h)
      · exact .inl (.inl h)
      · exact .inr (.inl (.inr h))
      · exact .inr (.inr h)
      · exact .inl (.inr h)
      · exact .inr (.inl (.inl h))
    · rintro ((h | h) | (h | h) | h)
      · exact .inl (.inl h)
      · exact .inr (.inl h)
      · exact .inr (.inr h)
      · exact .inl (.inr (.inl h))
      · exact .inl (.inr (.inr h))

theorem precedes_concat_iff : Precedes (t ++ [z]) x y ↔ Precedes t x y ∨ x ∈ t ∧ y = z := by
  have hsingle : ¬ Precedes [z] x y := fun h => by simpa using h.length_le
  rw [precedes_append_iff, List.mem_singleton, or_iff_left hsingle]

/-- In a trace without duplicates, one order excludes the other. -/
theorem Precedes.asymm (ht : t.Nodup) (h : Precedes t x y) : ¬ Precedes t y x := by
  induction t with
  | nil => exact absurd h.left_mem List.not_mem_nil
  | cons z t ih =>
    obtain ⟨hz, hnodup⟩ := List.nodup_cons.mp ht
    rw [precedes_cons_iff] at h ⊢
    rcases h with h | ⟨rfl, hy⟩
    · rintro (h' | ⟨rfl, -⟩)
      · exact ih hnodup h h'
      · exact hz h.right_mem
    · rintro (h' | ⟨rfl, -⟩)
      · exact hz h'.right_mem
      · exact hz hy

end Order

end Trace
