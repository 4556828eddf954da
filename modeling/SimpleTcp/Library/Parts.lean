import SimpleTcp.Library.Machine

/-!
# Machines with parts

A server has a state that all its clients share, and a part for each of them. Where a step on
behalf of a client does to the part of this client what a program of the part alone would do, and
leaves the parts of the others, the clients do not notice each other: what a run has done to a part
is what the steps of its owner do to the part by themselves.

## Main definitions

* `Acts`: what a program does to the whole is what another does to one part
* `Independent`: every step of a machine acts on the part of its owner

## Main results

* `Acts.bind`, `Acts.tryCatch`: programs that act on a part, one after the other
* `Independent.project`: a run of the whole is a run of every part
* `Independent.exists_ok`: a run that every part survives by itself is not stopped
-/

namespace Parts

open Machine

variable {ε σ τ κ ι : Type} {α β : Type}

/-- From a state of `I`, the program `x` does to the part of `k` what `y` does, with the same
result, and nothing to the other parts. It keeps `I`, unless it ends in a way that nobody
handles. -/
def Acts (I : σ → Prop) (Deadly : ε → Prop) (view : σ → κ → τ) (k : κ) (x : EStateM ε σ α)
    (y : EStateM ε τ α) : Prop :=
  ∀ s, I s →
    match x.run s with
    | .ok a s' => y.run (view s k) = .ok a (view s' k) ∧ I s' ∧ ∀ j ≠ k, view s' j = view s j
    | .error e s' => y.run (view s k) = .error e (view s' k) ∧ (Deadly e ∨ I s') ∧
        ∀ j ≠ k, view s' j = view s j

section

variable {I : σ → Prop} {Deadly : ε → Prop} {view : σ → κ → τ} {k : κ} {x : EStateM ε σ α}
  {y : EStateM ε τ α}

theorem Acts.pure (a : α) : Acts I Deadly view k (pure a) (pure a) := fun _ hs =>
  ⟨rfl, hs, fun _ _ => rfl⟩

theorem Acts.throw (e : ε) :
    Acts I Deadly view k (throw e : EStateM ε σ α) (throw e : EStateM ε τ α) := fun _ hs =>
  ⟨rfl, .inr hs, fun _ _ => rfl⟩

/-- Programs one after the other, where the first returns only values of `P`. -/
theorem Acts.bind_of {P : α → Prop} {f : α → EStateM ε σ β} {g : α → EStateM ε τ β}
    (hx : Acts I Deadly view k x y) (hP : ∀ t a t', y.run t = .ok a t' → P a)
    (hf : ∀ a, P a → Acts I Deadly view k (f a) (g a)) :
    Acts I Deadly view k (x >>= f) (y >>= g) := by
  intro s hs
  have hmid := hx s hs
  rw [EStateM.run_bind, EStateM.run_bind]
  cases hrun : x.run s with
  | error e s₁ =>
    rw [hrun] at hmid
    obtain ⟨hy, hI, hothers⟩ := hmid
    simp only [hy]
    exact ⟨trivial, hI, hothers⟩
  | ok a s₁ =>
    rw [hrun] at hmid
    obtain ⟨hy, hI, hothers⟩ := hmid
    have hrest := hf a (hP _ a _ hy) s₁ hI
    simp only [hy]
    cases hrun' : (f a).run s₁ with
    | ok b s₂ =>
      rw [hrun'] at hrest
      obtain ⟨hg, hI', hothers'⟩ := hrest
      exact ⟨hg, hI', fun j hj => (hothers' j hj).trans (hothers j hj)⟩
    | error e s₂ =>
      rw [hrun'] at hrest
      obtain ⟨hg, hI', hothers'⟩ := hrest
      exact ⟨hg, hI', fun j hj => (hothers' j hj).trans (hothers j hj)⟩

theorem Acts.bind {f : α → EStateM ε σ β} {g : α → EStateM ε τ β}
    (hx : Acts I Deadly view k x y) (hf : ∀ a, Acts I Deadly view k (f a) (g a)) :
    Acts I Deadly view k (x >>= f) (y >>= g) :=
  hx.bind_of (P := fun _ => True) (fun _ _ _ _ => trivial) fun a _ => hf a

/-- What is not handled is thrown again. -/
theorem Acts.tryCatch {f : ε → EStateM ε σ α} {g : ε → EStateM ε τ α}
    (hx : Acts I Deadly view k x y) (hf : ∀ e, Acts I Deadly view k (f e) (g e))
    (hdeadly : ∀ e, Deadly e → f e = MonadExcept.throw e ∧ g e = MonadExcept.throw e) :
    Acts I Deadly view k (tryCatch x f) (tryCatch y g) := by
  intro s hs
  have hmid := hx s hs
  rw [run_tryCatch, run_tryCatch]
  cases hrun : x.run s with
  | ok a s₁ =>
    rw [hrun] at hmid
    obtain ⟨hy, hI, hothers⟩ := hmid
    simp only [hy]
    exact ⟨trivial, hI, hothers⟩
  | error e s₁ =>
    rw [hrun] at hmid
    obtain ⟨hy, hI, hothers⟩ := hmid
    simp only [hy]
    by_cases he : Deadly e
    · obtain ⟨hthrow, hthrow'⟩ := hdeadly e he
      rw [hthrow, hthrow']
      exact ⟨rfl, .inl he, hothers⟩
    · have hrest := hf e s₁ (hI.resolve_left he)
      cases hrun' : (f e).run s₁ with
      | ok b s₂ =>
        rw [hrun'] at hrest
        obtain ⟨hg, hI', hothers'⟩ := hrest
        exact ⟨hg, hI', fun j hj => (hothers' j hj).trans (hothers j hj)⟩
      | error e' s₂ =>
        rw [hrun'] at hrest
        obtain ⟨hg, hI', hothers'⟩ := hrest
        exact ⟨hg, hI', fun j hj => (hothers' j hj).trans (hothers j hj)⟩

end

/-! ### Runs -/

/-- Every step of the machine acts on the part of its owner as the step of a part does. -/
def Independent (I : σ → Prop) (Deadly : ε → Prop) (view : σ → κ → τ) (owner : ι → κ)
    (step : ι → EStateM ε σ Unit) (alone : ι → EStateM ε τ Unit) : Prop :=
  ∀ i, Acts I Deadly view (owner i) (step i) (alone i)

variable [DecidableEq κ]

/-- The steps of one owner. -/
def own (owner : ι → κ) (k : κ) (is : List ι) : List ι := is.filter (owner · = k)

theorem own_cons_self (owner : ι → κ) (i : ι) (is : List ι) :
    own owner (owner i) (i :: is) = i :: own owner (owner i) is :=
  List.filter_cons_of_pos (decide_eq_true rfl)

theorem own_cons_of_ne {owner : ι → κ} {i : ι} {k : κ} (h : owner i ≠ k) (is : List ι) :
    own owner k (i :: is) = own owner k is :=
  List.filter_cons_of_neg (by simpa using h)

variable {I : σ → Prop} {Deadly : ε → Prop} {view : σ → κ → τ} {owner : ι → κ}
  {step : ι → EStateM ε σ Unit} {alone : ι → EStateM ε τ Unit}

/-- **A run of the whole is a run of every part**, by the steps of its owner alone. Where the run
stops, it is the part of the last owner that stops, and the others are where their steps before
have brought them. -/
theorem Independent.project (h : Independent I Deadly view owner step alone) (is : List ι) {s : σ}
    (hs : I s) :
    match (exec step is).run s with
    | .ok _ s' => ∀ k, (exec alone (own owner k is)).run (view s k) = .ok () (view s' k)
    | .error e s' => ∃ i pre, pre ++ [i] <+: is ∧
        (exec alone (own owner (owner i) (pre ++ [i]))).run (view s (owner i)) =
          .error e (view s' (owner i)) ∧
        ∀ k ≠ owner i, (exec alone (own owner k pre)).run (view s k) = .ok () (view s' k) := by
  induction is generalizing s with
  | nil => exact fun _ => rfl
  | cons i is ih =>
    have hstep := h i s hs
    cases hrun : (step i).run s with
    | error e s₁ =>
      rw [hrun] at hstep
      obtain ⟨halone, -, hothers⟩ := hstep
      rw [exec_cons_error hrun]
      refine ⟨i, [], ⟨is, rfl⟩, ?_, ?_⟩
      · show (exec alone (own owner (owner i) [i])).run _ = _
        rw [own_cons_self]
        exact exec_cons_error halone
      · intro k hk
        rw [hothers k hk]
        rfl
    | ok u s₁ =>
      rw [hrun] at hstep
      obtain ⟨halone, hI, hothers⟩ := hstep
      rw [exec_cons_ok hrun]
      -- the step is there for its owner, and for nobody else
      have hfront : ∀ (js : List ι) (k : κ), (exec alone (own owner k (i :: js))).run (view s k) =
          (exec alone (own owner k js)).run (view s₁ k) := by
        intro js k
        by_cases hk : owner i = k
        · subst hk
          rw [own_cons_self]
          exact exec_cons_ok halone
        · rw [own_cons_of_ne hk, hothers k (Ne.symm hk)]
      have hrest := ih hI
      cases hrun' : (exec step is).run s₁ with
      | ok u' s₂ =>
        rw [hrun'] at hrest
        intro k
        rw [hfront]
        exact hrest k
      | error e s₂ =>
        rw [hrun'] at hrest
        obtain ⟨i', pre, ⟨rest, hpre⟩, hstop, hothers'⟩ := hrest
        refine ⟨i', i :: pre, ⟨rest, congrArg (i :: ·) hpre⟩, ?_, ?_⟩
        · rw [List.cons_append, hfront]
          exact hstop
        · intro k hk
          rw [hfront]
          exact hothers' k hk

/-- A run whose steps every part survives by itself is not stopped. -/
theorem Independent.exists_ok (h : Independent I Deadly view owner step alone) {is : List ι} {s : σ}
    (hs : I s) (hok : ∀ k, ∃ t, (exec alone (own owner k is)).run (view s k) = .ok () t) :
    ∃ s', (exec step is).run s = .ok () s' := by
  have hproject := h.project is hs
  cases hrun : (exec step is).run s with
  | ok u s' => exact ⟨s', rfl⟩
  | error e s' =>
    rw [hrun] at hproject
    obtain ⟨i, pre, ⟨rest, hpre⟩, hstop, -⟩ := hproject
    obtain ⟨t, ht⟩ := hok (owner i)
    have happend : own owner (owner i) is =
        own owner (owner i) (pre ++ [i]) ++ own owner (owner i) rest := by
      rw [← hpre, own, own, own, List.filter_append]
    rw [happend, exec_append_error hstop] at ht
    cases ht

end Parts
