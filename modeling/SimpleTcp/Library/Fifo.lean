import Mathlib.Data.List.Infix

/-!
# The abstract FIFO

What a byte buffer is for: elements are pushed at one end, some of the waiting elements are
popped at the other, and nothing else happens to them. The elements popped so far followed by
the waiting ones are always exactly the elements pushed, in order.

## Main definitions

* `Queue`: the elements popped so far and the elements waiting
* `Queue.push`, `Queue.pop`: the two operations

## Main results

* `Queue.all_push`, `Queue.all_pop`: pushing appends to the elements seen, popping loses none
-/

namespace Fifo

variable {α : Type}

/-- The elements popped so far, and the elements waiting. -/
structure Queue (α : Type) where
  popped : List α
  waiting : List α

namespace Queue

/-- The queue before any operation. -/
def empty : Queue α := ⟨[], []⟩

/-- The elements that went through the queue, in order. -/
def all (q : Queue α) : List α := q.popped ++ q.waiting

/-- New elements wait behind the others. -/
def push (q : Queue α) (xs : List α) : Queue α := { q with waiting := q.waiting ++ xs }

/-- The first `n` waiting elements leave. -/
def pop (q : Queue α) (n : ℕ) : Queue α :=
  ⟨q.popped ++ q.waiting.take n, q.waiting.drop n⟩

@[simp] theorem all_empty : (empty : Queue α).all = [] := rfl

@[simp] theorem all_push (q : Queue α) (xs : List α) : (q.push xs).all = q.all ++ xs := by
  simp [all, push]

@[simp] theorem all_pop (q : Queue α) (n : ℕ) : (q.pop n).all = q.all := by
  simp [all, pop, List.append_assoc]

end Queue

end Fifo
