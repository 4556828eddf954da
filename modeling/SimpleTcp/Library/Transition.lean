import Mathlib.Data.List.Infix

/-!
# Transition systems with labels

Threads that share memory take steps one at a time, in any order. A step has a label, which names
who takes it and what the environment decides, and is a partial function of the state: where it is
undefined, the step is not enabled. A run is a list of labels each of which is enabled in its turn.

## Main definitions

* `Transition.run step s is`: the state after the labels `is`, if each of them is enabled
* `Along step P s is`: `P` holds of the state and the label at every step the run takes
* `Always step Q s is`: `Q` holds of every state the run passes

## Main results

* `run_append`: a run of labels behind others
* `run_invariant`, `run_invariant_of`: what every step keeps, every run keeps
* `exists_run_of_progress`: a goal that steps can be taken towards is reached
* `always_of_along`, `always_of_along_of`: the steps that meet a condition keep what it needs
* `exists_of_not_along`: a run whose steps do not all meet a condition has a first that does not
* `always_iff_along`, `always_iff_along_of`: when a step leads to `Q` exactly if it meets `P`, the
  runs with `Q` throughout are those whose steps meet `P`
-/

namespace Transition

variable {σ ι : Type}

/-- The state after the labels, in order, if each of them is enabled. -/
def run (step : σ → ι → Option σ) : σ → List ι → Option σ
  | s, [] => some s
  | s, i :: is => (step s i).bind fun s' => run step s' is

variable {step : σ → ι → Option σ} {s s' : σ} {i : ι} {is js : List ι}

@[simp] theorem run_nil : run step s [] = some s := rfl

theorem run_cons_eq_some :
    run step s (i :: is) = some s' ↔ ∃ s₁, step s i = some s₁ ∧ run step s₁ is = some s' :=
  Option.bind_eq_some_iff

theorem run_append : run step s (is ++ js) = (run step s is).bind fun s₁ => run step s₁ js := by
  induction is generalizing s with
  | nil => rfl
  | cons i is ih =>
    rw [List.cons_append, run, run, Option.bind_assoc]
    congr 1
    funext s₁
    exact ih

/-- **The run rule** for steps that meet a condition. -/
theorem run_invariant_of {P : ι → Prop} {I : σ → Prop}
    (hstep : ∀ s i s', I s → P i → step s i = some s' → I s') (hs : I s) (hP : ∀ i ∈ is, P i)
    (h : run step s is = some s') : I s' := by
  induction is generalizing s with
  | nil =>
    obtain rfl : s = s' := Option.some.inj h
    exact hs
  | cons i is ih =>
    obtain ⟨s₁, hi, hrun⟩ := run_cons_eq_some.mp h
    obtain ⟨hPi, hPis⟩ := List.forall_mem_cons.mp hP
    exact ih (hstep s i s₁ hs hPi hi) hPis hrun

/-- **The run rule**: what every step keeps, every run keeps. -/
theorem run_invariant {I : σ → Prop} (hstep : ∀ s i s', I s → step s i = some s' → I s')
    (hs : I s) (h : run step s is = some s') : I s' :=
  run_invariant_of (P := fun _ => True) (fun s i s' hI _ => hstep s i s' hI) hs
    (fun _ _ => trivial) h

/-- **The progress rule**: where from `I` there is a step that lowers a measure, as long as the goal
is not reached, a run reaches it. -/
theorem exists_run_of_progress {I goal : σ → Prop} (measure : σ → ℕ)
    (hstep : ∀ s, I s → ¬ goal s → ∃ i s', step s i = some s' ∧ I s' ∧ measure s' < measure s)
    (hs : I s) : ∃ is s', run step s is = some s' ∧ goal s' := by
  induction hn : measure s using Nat.strong_induction_on generalizing s with
  | h n ih =>
    by_cases hgoal : goal s
    · exact ⟨[], s, rfl, hgoal⟩
    · obtain ⟨i, s₁, hi, hs₁, hlt⟩ := hstep s hs hgoal
      obtain ⟨is, s', hrun, hgoal'⟩ := ih (measure s₁) (hn ▸ hlt) hs₁ rfl
      exact ⟨i :: is, s', run_cons_eq_some.mpr ⟨s₁, hi, hrun⟩, hgoal'⟩

/-! ## Conditions along a run -/

/-- `P` holds of the state and the label at every step the run takes. -/
def Along (step : σ → ι → Option σ) (P : σ → ι → Prop) : σ → List ι → Prop
  | _, [] => True
  | s, i :: is => ∀ s', step s i = some s' → P s i ∧ Along step P s' is

/-- `Q` holds of every state the run passes. -/
def Always (step : σ → ι → Option σ) (Q : σ → Prop) (s : σ) (is : List ι) : Prop :=
  ∀ pre s', pre <+: is → run step s pre = some s' → Q s'

theorem Always.head {Q : σ → Prop} (h : Always step Q s (i :: is)) (hi : step s i = some s') :
    Q s' :=
  h [i] s' (List.prefix_append [i] is) (run_cons_eq_some.mpr ⟨s', hi, rfl⟩)

theorem Always.tail {Q : σ → Prop} (h : Always step Q s (i :: is)) (hi : step s i = some s') :
    Always step Q s' is :=
  fun pre s₂ hpre hrun =>
    h (i :: pre) s₂ (List.cons_prefix_cons.mpr ⟨rfl, hpre⟩) (run_cons_eq_some.mpr ⟨s', hi, hrun⟩)

instance decidableAlong {P : σ → ι → Prop} [∀ s i, Decidable (P s i)] (s : σ) :
    (is : List ι) → Decidable (Along step P s is)
  | [] => .isTrue trivial
  | i :: is =>
    match hi : step s i with
    | none => .isTrue fun s' h => by cases hi.symm.trans h
    | some s₁ =>
      have := decidableAlong (P := P) s₁ is
      decidable_of_iff (P s i ∧ Along step P s₁ is) <| by
        simp only [Along, hi, Option.some.injEq, forall_eq']

/-- A run whose steps do not all meet `P` takes a first one that does not. -/
theorem exists_of_not_along {P : σ → ι → Prop} (h : ¬ Along step P s is) :
    ∃ pre i s₁ s₂, pre ++ [i] <+: is ∧ Along step P s pre ∧ run step s pre = some s₁ ∧
      step s₁ i = some s₂ ∧ ¬ P s₁ i := by
  induction is generalizing s with
  | nil => exact absurd trivial h
  | cons i is ih =>
    rw [Along, not_forall] at h
    obtain ⟨s', hnot⟩ := h
    rw [Classical.not_imp] at hnot
    obtain ⟨hi, hnot⟩ := hnot
    by_cases hP : P s i
    · obtain ⟨pre, j, s₁, s₂, hpre, halong, hrun, hj, hPj⟩ := ih fun hrest => hnot ⟨hP, hrest⟩
      refine ⟨i :: pre, j, s₁, s₂, List.cons_prefix_cons.mpr ⟨rfl, hpre⟩, fun s'' hi' => ?_,
        run_cons_eq_some.mpr ⟨s', hi, hrun⟩, hj, hPj⟩
      obtain rfl : s' = s'' := Option.some.inj (hi.symm.trans hi')
      exact ⟨hP, halong⟩
    · exact ⟨[], i, s, s', List.prefix_append [i] is, trivial, rfl, hi, hP⟩

/-- A condition that the invariant turns into another. -/
theorem Along.of_invariant {P R : σ → ι → Prop} {I : σ → Prop}
    (hstep : ∀ s i s', I s → P s i → step s i = some s' → I s')
    (hPR : ∀ s i, I s → P s i → R s i) (hs : I s) (h : Along step P s is) : Along step R s is := by
  induction is generalizing s with
  | nil => trivial
  | cons i is ih =>
    intro s' hi
    obtain ⟨hP, hrest⟩ := h s' hi
    exact ⟨hPR s i hs hP, ih (hstep s i s' hs hP hi) hrest⟩

section Rules

variable {P : σ → ι → Prop} {W : ι → Prop} {I Q : σ → Prop}

/-- **The conditional run rule** for labels that meet `W`: the steps that meet `P` keep `I`, which
gives `Q`. -/
theorem always_of_along_of (hI : ∀ s, I s → Q s)
    (hstep : ∀ s i s', I s → W i → P s i → step s i = some s' → I s') (hs : I s)
    (hW : ∀ i ∈ is, W i) (h : Along step P s is) : Always step Q s is := by
  induction is generalizing s with
  | nil =>
    intro pre s' hpre hrun
    obtain rfl := List.prefix_nil.mp hpre
    obtain rfl : s = s' := Option.some.inj hrun
    exact hI s hs
  | cons i is ih =>
    intro pre s' hpre hrun
    obtain ⟨hWi, hWis⟩ := List.forall_mem_cons.mp hW
    cases pre with
    | nil =>
      obtain rfl : s = s' := Option.some.inj hrun
      exact hI s hs
    | cons j pre =>
      obtain ⟨rfl, htail⟩ := List.cons_prefix_cons.mp hpre
      obtain ⟨s₁, hi, hrun⟩ := run_cons_eq_some.mp hrun
      obtain ⟨hP, hrest⟩ := h s₁ hi
      exact ih (hstep s _ s₁ hs hWi hP hi) hWis hrest pre s' htail hrun

/-- **The conditional run rule**: the steps that meet `P` keep `I`, which gives `Q`. -/
theorem always_of_along (hI : ∀ s, I s → Q s)
    (hstep : ∀ s i s', I s → P s i → step s i = some s' → I s') (hs : I s)
    (h : Along step P s is) : Always step Q s is :=
  always_of_along_of (W := fun _ => True) hI (fun s i s' hI _ => hstep s i s' hI) hs
    (fun _ _ => trivial) h

/-- **The exact run rule** for labels that meet `W`: where moreover a step from `I` to a state with
`Q` meets `P`, the runs with `Q` throughout are those whose steps meet `P`. -/
theorem always_iff_along_of (hI : ∀ s, I s → Q s)
    (hstep : ∀ s i s', I s → W i → P s i → step s i = some s' → I s')
    (hnec : ∀ s i s', I s → W i → step s i = some s' → Q s' → P s i) (hs : I s)
    (hW : ∀ i ∈ is, W i) : Always step Q s is ↔ Along step P s is := by
  refine ⟨fun h => ?_, always_of_along_of hI hstep hs hW⟩
  induction is generalizing s with
  | nil => trivial
  | cons i is ih =>
    intro s' hi
    obtain ⟨hWi, hWis⟩ := List.forall_mem_cons.mp hW
    have hP := hnec s i s' hs hWi hi (h.head hi)
    exact ⟨hP, ih (hstep s i s' hs hWi hP hi) hWis (h.tail hi)⟩

/-- **The exact run rule**, for all labels. -/
theorem always_iff_along (hI : ∀ s, I s → Q s)
    (hstep : ∀ s i s', I s → P s i → step s i = some s' → I s')
    (hnec : ∀ s i s', I s → step s i = some s' → Q s' → P s i) (hs : I s) :
    Always step Q s is ↔ Along step P s is :=
  always_iff_along_of (W := fun _ => True) hI (fun s i s' hI _ => hstep s i s' hI)
    (fun s i s' hI _ => hnec s i s' hI) hs fun _ _ => trivial

end Rules

end Transition
