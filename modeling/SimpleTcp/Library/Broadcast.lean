import Mathlib.Data.List.Infix
import Mathlib.Data.Set.Insert
import Mathlib.Logic.Function.Basic

/-!
# Broadcasts to a group

What is said in a group is heard by those who are in it at that moment. Everything is said one
after the other, so every member has heard a part of one sequence without a gap, and two members
that are there at the same time agree on what they have both heard.

## Main definitions

* `Group`: the members, what each has heard, and what was said
* `Group.join`, `Group.leave`, `Group.say`: the changes of a group
* `Group.Ordered`: what everybody has heard is a part of what was said, without a gap

## Main results

* `Ordered.join`, `Ordered.leave`, `Ordered.say`: the changes keep the order
* `Ordered.agree`: of two members, one has heard the end of what the other has heard
-/

namespace Broadcast

variable {ι μ : Type}

structure Group (ι μ : Type) where
  members : Set ι
  heard : ι → List μ
  spoken : List μ

namespace Group

/-- Nobody is there, and nothing was said. -/
def empty : Group ι μ := ⟨∅, fun _ => [], []⟩

def join (g : Group ι μ) (i : ι) : Group ι μ := { g with members := insert i g.members }

def leave (g : Group ι μ) (i : ι) : Group ι μ := { g with
  members := { j | j ∈ g.members ∧ j ≠ i } }

open Classical in
/-- The members hear what is said. -/
noncomputable def say (g : Group ι μ) (m : μ) : Group ι μ := { g with
  heard := fun i => if i ∈ g.members then g.heard i ++ [m] else g.heard i
  spoken := g.spoken ++ [m] }

/-- A member has heard all that was said since some moment, and one that has left all between two
moments. -/
structure Ordered (g : Group ι μ) : Prop where
  suffix_of_mem : ∀ i ∈ g.members, g.heard i <:+ g.spoken
  infix_spoken : ∀ i, g.heard i <:+: g.spoken

theorem empty_ordered : (empty : Group ι μ).Ordered :=
  ⟨fun _ _ => List.suffix_rfl, fun _ => List.infix_rfl⟩

variable {g : Group ι μ} {i j : ι}

/-- Who joins has not heard anything before. -/
theorem Ordered.join (h : g.Ordered) (hi : g.heard i = []) : (g.join i).Ordered where
  suffix_of_mem j hj := by
    rcases Set.mem_insert_iff.mp hj with rfl | hj
    · show g.heard j <:+ g.spoken
      rw [hi]
      exact List.nil_suffix
    · exact h.suffix_of_mem j hj
  infix_spoken := h.infix_spoken

theorem Ordered.leave (h : g.Ordered) (i : ι) : (g.leave i).Ordered where
  suffix_of_mem j hj := h.suffix_of_mem j hj.1
  infix_spoken := h.infix_spoken

theorem heard_say_of_mem (hi : i ∈ g.members) (m : μ) :
    (g.say m).heard i = g.heard i ++ [m] := if_pos hi

theorem heard_say_of_not_mem (hi : i ∉ g.members) (m : μ) : (g.say m).heard i = g.heard i :=
  if_neg hi

theorem Ordered.say (h : g.Ordered) (m : μ) : (g.say m).Ordered := by
  have hmem : ∀ i ∈ g.members, (g.say m).heard i <:+ g.spoken ++ [m] := by
    intro i hi
    obtain ⟨before, hbefore⟩ := h.suffix_of_mem i hi
    rw [heard_say_of_mem hi]
    exact ⟨before, by rw [← hbefore, List.append_assoc]⟩
  refine ⟨hmem, fun i => ?_⟩
  by_cases hi : i ∈ g.members
  · exact (hmem i hi).isInfix
  · rw [heard_say_of_not_mem hi]
    exact (h.infix_spoken i).trans (List.prefix_append _ _).isInfix

/-- **Two members agree** on what they have both heard. -/
theorem Ordered.agree (h : g.Ordered) (hi : i ∈ g.members) (hj : j ∈ g.members) :
    g.heard i <:+ g.heard j ∨ g.heard j <:+ g.heard i :=
  List.suffix_or_suffix_of_suffix (h.suffix_of_mem i hi) (h.suffix_of_mem j hj)

end Group

end Broadcast
