import Mathlib.Logic.Function.Basic

/-!
# Mutual exclusion

A mutex is the thread that holds it, if there is one. It guards a section when the threads inside
the section are those that hold it; what a thread does to the mutex when it enters or leaves keeps
this.

## Main definitions

* `Mutex.Guards mutex inside`: the threads inside are those that hold the mutex
* `Mutex.Passes`: a thread stays where it is, enters with the mutex, or leaves and releases it

## Main results

* `Guards.unique`: two threads are not inside at once
* `Guards.passes`: a thread that enters or leaves keeps the others out
-/

namespace Mutex

open Function (update)

variable {θ : Type} {mutex mutex' : Option θ} {inside : θ → Bool} {t u : θ} {b : Bool}

/-- The threads inside the section are those that hold the mutex. -/
def Guards (mutex : Option θ) (inside : θ → Bool) : Prop :=
  ∀ t, inside t = true ↔ mutex = some t

/-- What the thread does to the mutex, and whether it is inside then. -/
inductive Passes (t : θ) (inside : θ → Bool) (mutex : Option θ) : Option θ → Bool → Prop
  | stay : Passes t inside mutex mutex (inside t)
  | enter (free : mutex = none) : Passes t inside mutex (some t) true
  | leave (held : inside t = true) : Passes t inside mutex none false

theorem Guards.unique (h : Guards mutex inside) (ht : inside t = true) (hu : inside u = true) :
    t = u :=
  Option.some.inj (((h t).mp ht).symm.trans ((h u).mp hu))

theorem Guards.outside (h : Guards none inside) (t : θ) : inside t = false :=
  Bool.eq_false_iff.mpr fun ht => Option.some_ne_none t ((h t).mp ht).symm

/-- **A thread that enters or leaves keeps the others out.** -/
theorem Guards.passes [DecidableEq θ] (h : Guards mutex inside)
    (hp : Passes t inside mutex mutex' b) : Guards mutex' (update inside t b) := by
  intro u
  by_cases hu : u = t
  · subst hu
    rw [Function.update_self]
    cases hp with
    | stay => exact h u
    | enter => exact iff_of_true rfl rfl
    | leave => exact iff_of_false Bool.false_ne_true (Option.some_ne_none u).symm
  · rw [Function.update_of_ne hu]
    cases hp with
    | stay => exact h u
    -- the lock was free, so nobody else is inside
    | enter free =>
      subst free
      rw [h.outside u]
      exact iff_of_false Bool.false_ne_true fun heq => hu (Option.some.inj heq).symm
    -- the thread that leaves was the only one inside
    | leave held =>
      refine iff_of_false (fun hin => hu (h.unique hin held)) (Option.some_ne_none u).symm

end Mutex
