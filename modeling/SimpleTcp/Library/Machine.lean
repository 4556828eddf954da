import Mathlib.Data.List.Infix

/-!
# Machines whose steps may stop

A machine takes labelled steps on a state; a step may stop with an error, and the state at the
stop is kept. A run feeds a list of labels and ends at the first stop. Properties of runs are
stated on every prefix (`Always`), conditions on the inputs at every step that is taken
(`Along`), and the rules below turn a condition and an invariant of one step into a property of
whole runs.

## Main definitions

* `exec step is`: the labels `is`, in order, up to the first stop
* `Along step P s is`: `P` holds of the state and the label at every step the run takes
* `Always step Q s is`: `Q` holds of the outcome of every prefix of the run
* `Keeps I x`: the program `x` keeps `I`, whether it returns or stops
* `Triple P x Q E`: what holds when `x` returns and when it stops

## Main results

* `Along.invariant`: an invariant kept by the steps that meet `P` holds at the end of the run
* `Along.of_invariant`: such an invariant gives another condition at every step
* `always_of_along`: a run whose steps meet `P` has `Q` throughout
* `always_of_invariant`: the same when no step needs a condition
* `always_iff_along`: with the converse of one step, `Q` holds throughout exactly when every
  step meets `P`
* `along_iff_of_persistent`: a run ends without a defect that is never mended exactly when every
  step meets `P`
* `Keeps.bind`, `Keeps.tryCatch`: what the parts of a program keep, the program keeps
* `Triple.bind`, `Triple.tryCatch`: the same with what holds before and after
-/

namespace Machine

variable {ε σ ι : Type}

/-! ## Running programs -/

section

variable {α β : Type}

@[simp] theorem run_throw (e : ε) (s : σ) : (throw e : EStateM ε σ α).run s = .error e s := rfl

@[simp] theorem run_map (f : α → β) (x : EStateM ε σ α) (s : σ) :
    (f <$> x).run s =
      match x.run s with
      | .ok a s' => .ok (f a) s'
      | .error e s' => .error e s' := rfl

/-- The state in which the body stopped is the one the handler starts from. -/
@[simp high] theorem run_tryCatch (x : EStateM ε σ α) (handler : ε → EStateM ε σ α) (s : σ) :
    (tryCatch x handler).run s =
      match x.run s with
      | .ok a s' => .ok a s'
      | .error e s' => (handler e).run s' := by
  simp only [tryCatch, tryCatchThe, MonadExceptOf.tryCatch, EStateM.tryCatch, EStateM.run]
  cases x s <;> rfl

end

/-- The state in which a program has returned or stopped. -/
def final {α : Type} : EStateM.Result ε σ α → σ
  | .ok _ s => s
  | .error _ s => s

/-- The state in which a program has returned. -/
def returned {α : Type} : EStateM.Result ε σ α → Option σ
  | .ok _ s => some s
  | .error _ _ => none

theorem eq_ok_of_mem_returned {r : EStateM.Result ε σ Unit} {s : σ} (h : s ∈ returned r) :
    r = .ok () s := by
  cases r with
  | ok u s' => exact congrArg _ (Option.some.inj h)
  | error e s' => cases h

/-- A program that stops does not return. -/
theorem error_not_ok {e : ε} {s : σ} :
    ¬ ∃ s', (EStateM.Result.error e s : EStateM.Result ε σ Unit) = .ok () s' := by
  rintro ⟨s', hs'⟩
  cases hs'

/-! ## What a program keeps -/

/-- From a state of `I`, the program returns or stops in a state of `I`. -/
def Keeps {α : Type} (I : σ → Prop) (x : EStateM ε σ α) : Prop := ∀ s, I s → I (final (x.run s))

section

variable {α β : Type} {I : σ → Prop} {x : EStateM ε σ α}

theorem Keeps.pure (a : α) : Keeps I (pure a : EStateM ε σ α) := fun _ h => h

theorem Keeps.throw (e : ε) : Keeps I (throw e : EStateM ε σ α) := fun _ h => h

theorem Keeps.modify {f : σ → σ} (h : ∀ s, I s → I (f s)) :
    Keeps I (modify f : EStateM ε σ PUnit) := h

theorem Keeps.bind {y : α → EStateM ε σ β} (hx : Keeps I x) (hy : ∀ a, Keeps I (y a)) :
    Keeps I (x >>= y) := by
  intro s hs
  have hmid := hx s hs
  rw [EStateM.run_bind]
  cases hrun : x.run s with
  | ok a s₁ =>
    rw [hrun] at hmid
    exact hy a s₁ hmid
  | error e s₁ =>
    rw [hrun] at hmid
    exact hmid

/-- A program that starts by reading the state. -/
theorem Keeps.get_bind {k : σ → EStateM ε σ α} (h : ∀ s, I s → I (final ((k s).run s))) :
    Keeps I (get >>= k) := h

theorem Keeps.get : Keeps I (get : EStateM ε σ σ) := fun _ h => h

theorem Keeps.ite {c : Prop} [Decidable c] {y : EStateM ε σ α} (hx : c → Keeps I x)
    (hy : ¬ c → Keeps I y) : Keeps I (if c then x else y) := by
  split
  · exact hx ‹_›
  · exact hy ‹_›

theorem Keeps.tryCatch {handler : ε → EStateM ε σ α} (hx : Keeps I x)
    (hh : ∀ e, Keeps I (handler e)) : Keeps I (tryCatch x handler) := by
  intro s hs
  have hmid := hx s hs
  rw [run_tryCatch]
  cases hrun : x.run s with
  | ok a s₁ =>
    rw [hrun] at hmid
    exact hmid
  | error e s₁ =>
    rw [hrun] at hmid
    exact hh e s₁ hmid

end

/-! ## Before and after -/

/-- From a state of `P`, the program returns with `Q` or stops in a state of `E`. -/
def Triple {α : Type} (P : σ → Prop) (x : EStateM ε σ α) (Q : α → σ → Prop) (E : σ → Prop) :
    Prop :=
  ∀ s, P s →
    match x.run s with
    | .ok a s' => Q a s'
    | .error _ s' => E s'

section

variable {α β : Type} {P P' : σ → Prop} {Q Q' : α → σ → Prop} {R : β → σ → Prop} {E E' : σ → Prop}
  {x : EStateM ε σ α} {y : α → EStateM ε σ β}

theorem Triple.pure {a : α} : Triple (Q a) (pure a : EStateM ε σ α) Q E := fun _ h => h

theorem Triple.throw {e : ε} : Triple E (throw e : EStateM ε σ α) Q E := fun _ h => h

theorem Triple.modify {f : σ → σ} {Q : PUnit → σ → Prop} (h : ∀ s, P s → Q ⟨⟩ (f s)) :
    Triple P (modify f : EStateM ε σ PUnit) Q E := h

theorem Triple.set {s' : σ} {Q : PUnit → σ → Prop} (h : Q ⟨⟩ s') :
    Triple P (set s' : EStateM ε σ PUnit) Q E := fun _ _ => h

theorem Triple.conseq (h : Triple P x Q E) (hP : ∀ s, P' s → P s) (hQ : ∀ a s, Q a s → Q' a s)
    (hE : ∀ s, E s → E' s) : Triple P' x Q' E' := by
  intro s hs
  have hx := h s (hP s hs)
  revert hx
  cases x.run s with
  | ok a s' => exact hQ a s'
  | error e s' => exact hE s'

/-- A triple, from a state that is known. -/
theorem Triple.of_state {s : σ} (h : Triple P x Q E) (hs : P s) : Triple (· = s) x Q E := by
  rintro s' rfl
  exact h s' hs

theorem Triple.bind (hx : Triple P x Q E) (hy : ∀ a, Triple (Q a) (y a) R E) :
    Triple P (x >>= y) R E := by
  intro s hs
  have hmid := hx s hs
  rw [EStateM.run_bind]
  cases hrun : x.run s with
  | ok a s' =>
    rw [hrun] at hmid
    exact hy a s' hmid
  | error e s' =>
    rw [hrun] at hmid
    exact hmid

/-- A handler starts in a state in which the body has stopped. -/
theorem Triple.tryCatch {handler : ε → EStateM ε σ α} (hx : Triple P x Q E')
    (hh : ∀ e, Triple E' (handler e) Q E) : Triple P (tryCatch x handler) Q E := by
  intro s hs
  have hmid := hx s hs
  rw [run_tryCatch]
  cases hrun : x.run s with
  | ok a s' =>
    rw [hrun] at hmid
    exact hmid
  | error e s' =>
    rw [hrun] at hmid
    exact hh e s' hmid

theorem Triple.get_bind {k : σ → EStateM ε σ α} (h : ∀ s₀, P s₀ → Triple (· = s₀) (k s₀) Q E) :
    Triple P (get >>= k) Q E := fun s hs => h s hs s rfl

theorem Triple.ite {c : Prop} [Decidable c] {z : EStateM ε σ α} (hx : c → Triple P x Q E)
    (hz : ¬ c → Triple P z Q E) : Triple P (if c then x else z) Q E := by
  split
  · exact hx ‹_›
  · exact hz ‹_›

/-- A program that keeps `P` throughout. -/
theorem Triple.keeps (h : Triple P x (fun _ => P) P) : Keeps P x := by
  intro s hs
  have hx := h s hs
  revert hx
  cases x.run s <;> exact id

end

/-! ## Runs -/

/-- The labels in order, up to the first stop. -/
def exec (step : ι → EStateM ε σ Unit) : List ι → EStateM ε σ Unit
  | [] => pure ()
  | i :: is => do
    step i
    exec step is

/-- `P` holds of the state and the label at every step the run takes. -/
def Along (step : ι → EStateM ε σ Unit) (P : σ → ι → Prop) : σ → List ι → Prop
  | _, [] => True
  | s, i :: is => P s i ∧ ∀ s', (step i).run s = .ok () s' → Along step P s' is

/-- `Q` holds of the outcome of every prefix of the run. -/
def Always (step : ι → EStateM ε σ Unit) (Q : EStateM.Result ε σ Unit → Prop) (s : σ)
    (is : List ι) : Prop :=
  ∀ pre, pre <+: is → Q ((exec step pre).run s)

variable {step : ι → EStateM ε σ Unit}

theorem Keeps.exec {I : σ → Prop} (h : ∀ i, Keeps I (step i)) (is : List ι) :
    Keeps I (exec step is) := by
  induction is with
  | nil => exact Keeps.pure ()
  | cons i is ih => exact (h i).bind fun _ => ih

@[simp] theorem exec_nil (s : σ) : (exec step []).run s = .ok () s := rfl

theorem exec_cons_ok {i : ι} {is : List ι} {s s' : σ} (h : (step i).run s = .ok () s') :
    (exec step (i :: is)).run s = (exec step is).run s' := by
  simp only [exec, EStateM.run_bind, h]

theorem exec_cons_error {i : ι} {is : List ι} {s s' : σ} {e : ε}
    (h : (step i).run s = .error e s') :
    (exec step (i :: is)).run s = .error e s' := by
  simp only [exec, EStateM.run_bind, h]

theorem exec_singleton (i : ι) (s : σ) : (exec step [i]).run s = (step i).run s := by
  cases h : (step i).run s with
  | ok u s' => exact exec_cons_ok h
  | error e s' => exact exec_cons_error h

/-- A run that has stopped takes no further step. -/
theorem exec_append_error {is js : List ι} {s s' : σ} {e : ε}
    (h : (exec step is).run s = .error e s') : (exec step (is ++ js)).run s = .error e s' := by
  induction is generalizing s with
  | nil => cases h
  | cons i is ih =>
    cases hi : (step i).run s with
    | ok u s₁ =>
      rw [exec_cons_ok hi] at h
      rw [List.cons_append, exec_cons_ok hi]
      exact ih h
    | error e₁ s₁ =>
      rw [exec_cons_error hi] at h
      rw [List.cons_append, exec_cons_error hi]
      exact h

/-- A completed run of `i :: is` took the step `i` and then completed `is`. -/
theorem exec_cons_eq_ok {i : ι} {is : List ι} {s s' : σ}
    (h : (exec step (i :: is)).run s = .ok () s') :
    ∃ s₁, (step i).run s = .ok () s₁ ∧ (exec step is).run s₁ = .ok () s' := by
  cases hi : (step i).run s with
  | ok u s₁ => exact ⟨s₁, rfl, by rwa [exec_cons_ok hi] at h⟩
  | error e s₁ =>
    rw [exec_cons_error hi] at h
    cases h

theorem along_cons_ok {P : σ → ι → Prop} {i : ι} {is : List ι} {s s' : σ}
    (h : (step i).run s = .ok () s') :
    Along step P s (i :: is) ↔ P s i ∧ Along step P s' is := by
  refine and_congr_right fun _ => ⟨fun ha => ha s' h, fun ha s₁ h₁ => ?_⟩
  obtain rfl := (EStateM.Result.ok.inj (h.symm.trans h₁)).2
  exact ha

theorem along_cons_error {P : σ → ι → Prop} {i : ι} {is : List ι} {s s' : σ} {e : ε}
    (h : (step i).run s = .error e s') : Along step P s (i :: is) ↔ P s i :=
  and_iff_left fun s₁ h₁ => by cases h.symm.trans h₁

instance Along.decidable {P : σ → ι → Prop} [∀ s i, Decidable (P s i)] :
    ∀ (is : List ι) (s : σ), Decidable (Along step P s is)
  | [], _ => .isTrue trivial
  | i :: is, s =>
    match h : (step i).run s with
    | .ok () s' =>
      have : Decidable (Along step P s' is) := Along.decidable is s'
      decidable_of_iff (P s i ∧ Along step P s' is) (along_cons_ok h).symm
    | .error _ _ => decidable_of_iff (P s i) (along_cons_error h).symm

/-- The condition of a step, at the step that follows a completed prefix. -/
theorem Along.last {P : σ → ι → Prop} {is : List ι} {i : ι} {s s' : σ}
    (ha : Along step P s (is ++ [i])) (h : (exec step is).run s = .ok () s') : P s' i := by
  induction is generalizing s with
  | nil =>
    obtain rfl : s = s' := by simpa using h
    exact ha.1
  | cons j is ih =>
    obtain ⟨s₁, hj, hrun⟩ := exec_cons_eq_ok h
    exact ih (ha.2 s₁ hj) hrun

/-- An invariant that the steps meeting `P` keep holds at the end of a completed run. -/
theorem Along.invariant {P : σ → ι → Prop} {I : σ → Prop}
    (hstep : ∀ s i s', I s → P s i → (step i).run s = .ok () s' → I s') {is : List ι} {s s' : σ}
    (ha : Along step P s is) (hs : I s) (h : (exec step is).run s = .ok () s') : I s' := by
  induction is generalizing s with
  | nil =>
    obtain rfl : s = s' := by simpa using h
    exact hs
  | cons i is ih =>
    obtain ⟨s₁, hi, hrun⟩ := exec_cons_eq_ok h
    exact ih (ha.2 s₁ hi) (hstep s i s₁ hs ha.1 hi) hrun

/-- An invariant that the steps meeting `P` keep, and with which they meet `P'` as well. -/
theorem Along.of_invariant {P P' : σ → ι → Prop} {I : σ → Prop}
    (hP : ∀ s i, I s → P s i → P' s i)
    (hstep : ∀ s i s', I s → P s i → (step i).run s = .ok () s' → I s') {is : List ι} {s : σ}
    (hs : I s) (ha : Along step P s is) : Along step P' s is := by
  induction is generalizing s with
  | nil => trivial
  | cons i is ih =>
    exact ⟨hP s i hs ha.1, fun s' hi => ih (hstep s i s' hs ha.1 hi) (ha.2 s' hi)⟩

theorem Along.and {P P' : σ → ι → Prop} {is : List ι} {s : σ} (h : Along step P s is)
    (h' : Along step P' s is) : Along step (fun s i => P s i ∧ P' s i) s is := by
  induction is generalizing s with
  | nil => trivial
  | cons i is ih => exact ⟨⟨h.1, h'.1⟩, fun s' hi => ih (h.2 s' hi) (h'.2 s' hi)⟩

/-- Two conditions that say the same of the states of an invariant. -/
theorem Along.congr {P Q R : σ → ι → Prop} {I : σ → Prop}
    (hQR : ∀ s i, I s → (Q s i ↔ R s i))
    (hstep : ∀ s i s', I s → P s i → (step i).run s = .ok () s' → I s') {is : List ι} {s : σ}
    (hs : I s) (ha : Along step P s is) : Along step Q s is ↔ Along step R s is := by
  induction is generalizing s with
  | nil => rfl
  | cons i is ih =>
    refine and_congr (hQR s i hs) (forall_congr' fun s' => forall_congr' fun hi => ?_)
    exact ih (hstep s i s' hs ha.1 hi) (ha.2 s' hi)

/-- A condition on the labels alone. -/
theorem Along.of_forall_mem {p : ι → Prop} {is : List ι} (h : ∀ i ∈ is, p i) (s : σ) :
    Along step (fun _ i => p i) s is := by
  induction is generalizing s with
  | nil => trivial
  | cons i is ih =>
    obtain ⟨hi, his⟩ := List.forall_mem_cons.mp h
    exact ⟨hi, fun s' _ => ih his s'⟩

theorem Always.head {Q : EStateM.Result ε σ Unit → Prop} {s : σ} {i : ι} {is : List ι}
    (h : Always step Q s (i :: is)) : Q ((step i).run s) := by
  have := h [i] ⟨is, rfl⟩
  rwa [exec_singleton] at this

theorem Always.tail {Q : EStateM.Result ε σ Unit → Prop} {s s' : σ} {i : ι} {is : List ι}
    (h : Always step Q s (i :: is)) (hi : (step i).run s = .ok () s') : Always step Q s' is := by
  intro pre hpre
  have := h (i :: pre) (List.cons_prefix_cons.mpr ⟨rfl, hpre⟩)
  rwa [exec_cons_ok hi] at this

section Rules

variable {P : σ → ι → Prop} {I : σ → Prop} {Q : EStateM.Result ε σ Unit → Prop}

/-- **The run rule**: if the states of `I` satisfy `Q`, and a step meeting `P` from `I` either
completes in `I` or stops with `Q`, then a run whose steps meet `P` has `Q` throughout. -/
theorem always_of_along (hI : ∀ s, I s → Q (.ok () s))
    (hok : ∀ s i s', I s → P s i → (step i).run s = .ok () s' → I s')
    (herr : ∀ s i e s', I s → P s i → (step i).run s = .error e s' → Q (.error e s'))
    {is : List ι} {s : σ} (hs : I s) (ha : Along step P s is) : Always step Q s is := by
  induction is generalizing s with
  | nil =>
    intro pre hpre
    rw [List.prefix_nil.mp hpre]
    exact hI s hs
  | cons i is ih =>
    intro pre hpre
    cases pre with
    | nil => exact hI s hs
    | cons j pre =>
      obtain ⟨rfl, hrest⟩ := List.cons_prefix_cons.mp hpre
      cases hi : (step j).run s with
      | ok u s₁ =>
        rw [exec_cons_ok hi]
        exact ih (hok s j s₁ hs ha.1 hi) (ha.2 s₁ hi) pre hrest
      | error e s₁ =>
        rw [exec_cons_error hi]
        exact herr s j e s₁ hs ha.1 hi

/-- **The exact run rule**: when moreover a step from `I` with `Q` meets `P`, the runs with `Q`
throughout are exactly those whose steps meet `P`. -/
theorem always_iff_along (hI : ∀ s, I s → Q (.ok () s))
    (hok : ∀ s i s', I s → P s i → (step i).run s = .ok () s' → I s')
    (herr : ∀ s i e s', I s → P s i → (step i).run s = .error e s' → Q (.error e s'))
    (hnec : ∀ s i, I s → Q ((step i).run s) → P s i) {is : List ι} {s : σ} (hs : I s) :
    Always step Q s is ↔ Along step P s is := by
  refine ⟨fun h => ?_, always_of_along hI hok herr hs⟩
  induction is generalizing s with
  | nil => trivial
  | cons i is ih =>
    have hP : P s i := hnec s i hs h.head
    exact ⟨hP, fun s' hi => ih (hok s i s' hs hP hi) (h.tail hi)⟩

end Rules

section Persistent

variable {P : σ → ι → Prop} {I B : σ → Prop}

/-- A defect that is never mended is there at the end of a run. -/
theorem persists_of_run (hI : ∀ s i s', I s → (step i).run s = .ok () s' → I s')
    (hB : ∀ s i s', I s → B s → (step i).run s = .ok () s' → B s') {is : List ι} {s s' : σ}
    (hs : I s) (hs' : B s) (h : (exec step is).run s = .ok () s') : B s' := by
  induction is generalizing s with
  | nil =>
    obtain rfl : s = s' := by simpa using h
    exact hs'
  | cons i is ih =>
    obtain ⟨s₁, hi, hrun⟩ := exec_cons_eq_ok h
    exact ih (hI s i s₁ hs hi) (hB s i s₁ hs hs' hi) hrun

/-- **The rule of a lasting defect**: if the steps that do not meet `P` are those that bring the
defect about, and it is never mended, a completed run ends without it exactly when its steps meet
`P`. -/
theorem along_iff_of_persistent (hI : ∀ s i s', I s → (step i).run s = .ok () s' → I s')
    (hB : ∀ s i s', I s → B s → (step i).run s = .ok () s' → B s')
    (hP : ∀ s i s', I s → ¬ B s → (step i).run s = .ok () s' → (B s' ↔ ¬ P s i))
    {is : List ι} {s s' : σ} (hs : I s) (hs' : ¬ B s) (h : (exec step is).run s = .ok () s') :
    ¬ B s' ↔ Along step P s is := by
  induction is generalizing s with
  | nil =>
    obtain rfl : s = s' := by simpa using h
    exact iff_of_true hs' trivial
  | cons i is ih =>
    obtain ⟨s₁, hi, hrun⟩ := exec_cons_eq_ok h
    by_cases hPi : P s i
    · have hs₁ : ¬ B s₁ := fun hb => (hP s i s₁ hs hs' hi).mp hb hPi
      rw [ih (hI s i s₁ hs hi) hs₁ hrun]
      refine ⟨fun ha => ⟨hPi, fun s₂ hs₂ => ?_⟩, fun ha => ha.2 s₁ hi⟩
      obtain rfl := (EStateM.Result.ok.inj (hi.symm.trans hs₂)).2
      exact ha
    · have hb := (hP s i s₁ hs hs' hi).mpr hPi
      have hend := persists_of_run hI hB (hI s i s₁ hs hi) hb hrun
      exact iff_of_false (fun hnot => hnot hend) fun ha => hPi ha.1

end Persistent

section Unconditional

variable {I : σ → Prop} {Q : EStateM.Result ε σ Unit → Prop}

theorem Along.of_forall {P : σ → ι → Prop} (h : ∀ s i, P s i) (s : σ) (is : List ι) :
    Along step P s is := by
  induction is generalizing s with
  | nil => trivial
  | cons i is ih => exact ⟨h s i, fun s' _ => ih s'⟩

/-- **The unconditional run rule**: if every step from `I` either completes in `I` or stops with
`Q`, then every run has `Q` throughout. -/
theorem always_of_invariant (hI : ∀ s, I s → Q (.ok () s))
    (hok : ∀ s i s', I s → (step i).run s = .ok () s' → I s')
    (herr : ∀ s i e s', I s → (step i).run s = .error e s' → Q (.error e s')) {s : σ} (hs : I s)
    (is : List ι) : Always step Q s is :=
  always_of_along hI (fun s i s' h _ => hok s i s' h) (fun s i e s' h _ => herr s i e s' h) hs
    (Along.of_forall (P := fun _ _ => True) (fun _ _ => trivial) s is)

end Unconditional

end Machine
