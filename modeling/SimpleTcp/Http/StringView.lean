import SimpleTcp.Http.StringHelper

/-!
# String views

A `std::string_view` need not end with a zero byte: where the callee makes a C string of its
`data()`, the memory behind the view is read as well. `split` does so for a text without a token,
and its loop ends at the last token, so that what follows it is lost. `strip` reads the characters
of the view only, and trims it.

## Main definitions

* `StringView`: the bytes of a view, and the memory behind it
* `StringView.data`: the C string at the start of a view
* `StringView.split`, `StringView.strip`: `split` and `strip`, of a view
* `parts`, `closedParts`: the parts between tokens, and those that a token ends
* `Trims`: the text without the spaces at its ends

## Main results

* `splitLoop_eq`: the loop returns the parts that a token ends
* `StringView.split_eq_parts_iff`: the views of which every part is returned
* `StringView.stripLoop_eq`: the loop of `strip` reads inside the view, and ends
* `StringView.strip_trims`: what `strip` returns
-/

namespace SimpleTcp

open Search

/-- A view of `str`. Its object goes on with `behind`. -/
structure StringView where
  str : Bytes
  behind : Bytes
  deriving DecidableEq, Repr

namespace StringView

/-- A pointer to a character is read up to a zero byte, in the view or behind it. -/
def data (v : StringView) : Except Stop Bytes :=
  if 0 ∈ v.str ++ v.behind then .ok (cStr (v.str ++ v.behind)) else .error .outOfBounds

/-- `split(str, token)`. -/
def split (v : StringView) (token : Bytes) : Except Stop (List Bytes) :=
  match findFirstNotOf token v.str 0 with
  -- from `npos` on, no token is found
  | none => v.data.map ([·])
  | some start_pos =>
    match findFrom token v.str start_pos with
    | none => v.data.map ([·])
    | some end_pos => .ok (splitLoop v.str.length v.str token start_pos end_pos)

/-- `str[pos]`, which is not checked in the source. -/
def get (v : StringView) (pos : Nat) : Except Stop UInt8 :=
  match v.str[pos]? with
  | some c => .ok c
  | none => .error .outOfBounds

/-- The loop of `strip`, with every character that it reads. -/
def stripLoop (fuel : Nat) (v : StringView) (start_pos end_pos : Nat) : Except Stop (Nat × Nat) :=
  if start_pos < end_pos then
    match fuel with
    | 0 => .error .hang
    | fuel + 1 => do
      let isEnd : Bool ←
        -- the second character is read only if the first is no space
        if (← v.get start_pos) ≠ 32 then (· != 32) <$> v.get (end_pos - 1) else .ok false
      if isEnd then .ok (start_pos, end_pos)
      else do
        let start_pos' := if (← v.get start_pos) = 32 then start_pos + 1 else start_pos
        let end_pos' := if (← v.get (end_pos - 1)) = 32 then end_pos - 1 else end_pos
        stripLoop fuel v start_pos' end_pos'
  else .ok (start_pos, end_pos)

/-- `strip(str)`. -/
def strip (v : StringView) : Except Stop Bytes :=
  if v.str = [] then .ok []
  else do
    let (start_pos, end_pos) ← stripLoop v.str.length v 0 v.str.length
    if start_pos ≥ end_pos then .ok [] else substring v.str start_pos (end_pos - start_pos)

end StringView

/-- `r` is `s` without the spaces at its ends. -/
def Trims (s r : Bytes) : Prop :=
  (∃ front back, s = List.replicate front 32 ++ r ++ List.replicate back 32) ∧
    r.head? ≠ some 32 ∧ r.getLast? ≠ some 32

/-! ### C strings -/

theorem cStr_append_zero (s t : Bytes) : cStr (s ++ 0 :: t) = cStr s := by
  induction s with
  | nil => rfl
  | cons c s ih =>
    rw [cStr, cStr, List.cons_append, List.takeWhile_cons, List.takeWhile_cons, ← cStr, ← cStr, ih]

theorem cStr_append {s : Bytes} (h : 0 ∉ s) (t : Bytes) : cStr (s ++ t) = s ++ cStr t := by
  refine List.takeWhile_append_of_pos fun c hc => ?_
  simpa using ne_of_mem_of_not_mem hc h

/-- The C string at the start of a text is all of it when a zero byte comes next. -/
theorem cStr_append_eq_iff {s t : Bytes} (h : 0 ∈ s ++ t) :
    cStr (s ++ t) = s ↔ 0 ∉ s ∧ t.head? = some 0 := by
  constructor
  · intro heq
    have hzero : 0 ∉ s := by
      intro hmem
      rw [← heq] at hmem
      simpa using List.mem_takeWhile_imp hmem
    refine ⟨hzero, ?_⟩
    rw [cStr_append hzero, List.append_right_eq_self] at heq
    cases t with
    | nil => exact absurd (by simpa using h) hzero
    | cons c t =>
      by_contra hc
      have hne : c ≠ 0 := fun hc' => hc (congrArg some hc')
      rw [cStr, List.takeWhile_cons_of_pos (by simpa using hne)] at heq
      cases heq
  · rintro ⟨hzero, ht⟩
    obtain ⟨t, rfl⟩ := List.head?_eq_some_iff.mp ht
    rw [cStr_append_zero, cStr_of_not_mem hzero]

namespace StringView

theorem data_eq_str_iff {v : StringView} :
    v.data = .ok v.str ↔ 0 ∉ v.str ∧ v.behind.head? = some 0 := by
  unfold data
  split
  · next h => rw [Except.ok.injEq, cStr_append_eq_iff h]
  · next h =>
    refine iff_of_false (fun heq => by cases heq) fun ⟨_, hhead⟩ => h ?_
    exact List.mem_append_right _ (List.mem_of_mem_head? hhead)

/-- Of the whole of a `std::string`, the view is its text as a C string. -/
theorem data_terminated (str rest : Bytes) : data ⟨str, 0 :: rest⟩ = .ok (cStr str) := by
  rw [data, if_pos (List.mem_append_right _ List.mem_cons_self), cStr_append_zero]

/-- Where the view ends with its object, `split` is that of the text. -/
theorem split_terminated (str rest token : Bytes) :
    split ⟨str, 0 :: rest⟩ token = .ok (SimpleTcp.split str token) := by
  unfold split SimpleTcp.split
  rw [data_terminated]
  cases findFirstNotOf token str 0 with
  | none => rfl
  | some start_pos =>
    dsimp only
    cases findFrom token str start_pos <;> rfl

end StringView

/-! ### Parts -/

/-- What stands between tokens, unless it is empty. -/
def parts (c : UInt8) (s : Bytes) : List Bytes := (s.splitOn c).filter (· ≠ [])

/-- The same, without what follows the last token. -/
def closedParts (c : UInt8) (s : Bytes) : List Bytes := (s.splitOn c).dropLast.filter (· ≠ [])

section

variable {c : UInt8} {p t : Bytes}

theorem parts_append_token (h : c ∉ p) (hne : p ≠ []) (t : Bytes) :
    parts c (p ++ c :: t) = p :: parts c t := by
  rw [parts, List.splitOn_append_cons_self_of_not_mem h,
    List.filter_cons_of_pos (by simpa using hne), parts]

theorem parts_of_not_mem (h : c ∉ p) (hne : p ≠ []) : parts c p = [p] := by
  rw [parts, List.splitOn_eq_singleton h, List.filter_cons_of_pos (by simpa using hne),
    List.filter_nil]

theorem closedParts_append_token (h : c ∉ p) (hne : p ≠ []) (t : Bytes) :
    closedParts c (p ++ c :: t) = p :: closedParts c t := by
  rw [closedParts, List.splitOn_append_cons_self_of_not_mem h,
    List.dropLast_cons_of_ne_nil (List.splitOn_ne_nil c t),
    List.filter_cons_of_pos (by simpa using hne), closedParts]

theorem closedParts_of_not_mem (h : c ∉ p) : closedParts c p = [] := by
  rw [closedParts, List.splitOn_eq_singleton h]
  rfl

/-- Tokens at the front are ignored. -/
theorem parts_replicate_append (k : ℕ) (t : Bytes) :
    parts c (List.replicate k c ++ t) = parts c t := by
  induction k with
  | zero => rfl
  | succ k ih =>
    have hcons : (c :: (List.replicate k c ++ t)).splitOn c =
        [] :: (List.replicate k c ++ t).splitOn c := List.splitOn_append_cons_self [] _
    rw [List.replicate_succ, List.cons_append, parts, hcons, List.filter_cons_of_neg (by simp),
      ← parts, ih]

theorem closedParts_replicate_append (k : ℕ) (t : Bytes) :
    closedParts c (List.replicate k c ++ t) = closedParts c t := by
  induction k with
  | zero => rfl
  | succ k ih =>
    have hcons : (c :: (List.replicate k c ++ t)).splitOn c =
        [] :: (List.replicate k c ++ t).splitOn c := List.splitOn_append_cons_self [] _
    rw [List.replicate_succ, List.cons_append, closedParts, hcons,
      List.dropLast_cons_of_ne_nil (List.splitOn_ne_nil c _), List.filter_cons_of_neg (by simp),
      ← closedParts, ih]

theorem parts_replicate (k : ℕ) : parts c (List.replicate k c) = [] := by
  have hparts := parts_replicate_append (c := c) k []
  rwa [List.append_nil] at hparts

/-- How a text goes on: with tokens to its end, with a last part, or with a part that a token
ends. -/
theorem front_cases (c : UInt8) (s : Bytes) :
    (∃ k, s = List.replicate k c) ∨
      (∃ k p, c ∉ p ∧ p ≠ [] ∧ s = List.replicate k c ++ p) ∨
      ∃ k p t, c ∉ p ∧ p ≠ [] ∧ s = List.replicate k c ++ (p ++ c :: t) := by
  induction s with
  | nil => exact .inl ⟨0, rfl⟩
  | cons x s ih =>
    by_cases hx : x = c
    · subst hx
      rcases ih with ⟨k, rfl⟩ | ⟨k, p, hp, hne, rfl⟩ | ⟨k, p, t, hp, hne, rfl⟩
      · exact .inl ⟨k + 1, rfl⟩
      · exact .inr (.inl ⟨k + 1, p, hp, hne, rfl⟩)
      · exact .inr (.inr ⟨k + 1, p, t, hp, hne, rfl⟩)
    · by_cases hs : c ∈ s
      · obtain ⟨p, t, rfl, hp⟩ := List.eq_append_cons_of_mem hs
        refine .inr (.inr ⟨0, x :: p, t, ?_, List.cons_ne_nil x p, rfl⟩)
        exact List.not_mem_cons_of_ne_of_not_mem (Ne.symm hx) hp
      · refine .inr (.inl ⟨0, x :: s, ?_, List.cons_ne_nil x s, rfl⟩)
        exact List.not_mem_cons_of_ne_of_not_mem (Ne.symm hx) hs

/-! ### Searching -/

/-- The tokens in front of a part are passed. -/
theorem findFirstNotOf_part (h : c ∉ p) (hne : p ≠ []) (pre : Bytes) (k : ℕ) (t : Bytes) :
    findFirstNotOf [c] (pre ++ (List.replicate k c ++ (p ++ t))) pre.length =
      some (pre.length + k) := by
  obtain ⟨x, p, rfl⟩ := List.exists_cons_of_ne_nil hne
  have hx : x ≠ c := fun heq => h (heq ▸ List.mem_cons_self)
  have hfind : (List.replicate k c ++ (x :: p ++ t)).findIdx? (· ∉ [c]) = some k := by
    induction k with
    | zero => simp [List.findIdx?_cons, hx]
    | succ k ih =>
      rw [List.replicate_succ, List.cons_append, List.findIdx?_cons, ih]
      simp
  rw [findFirstNotOf, List.drop_left, hfind, Option.map_some, Nat.add_comm]

theorem findFirstNotOf_tokens (pre : Bytes) (k : ℕ) :
    findFirstNotOf [c] (pre ++ List.replicate k c) pre.length = none := by
  have hfind : (List.replicate k c).findIdx? (· ∉ [c]) = none := by simp
  rw [findFirstNotOf, List.drop_left, hfind, Option.map_none]

theorem findFrom_token (h : c ∉ p) (pre t : Bytes) :
    findFrom [c] (pre ++ (p ++ c :: t)) pre.length = some (pre.length + p.length) := by
  have hfind : find (c :: []) (p ++ c :: [] ++ t) = some p.length := find_append_cons h t
  rw [List.append_assoc, List.cons_append, List.nil_append] at hfind
  rw [findFrom, List.drop_left, hfind, Option.map_some, Nat.add_comm]

theorem findFrom_of_not_mem (h : c ∉ p) (pre : Bytes) :
    findFrom [c] (pre ++ p) pre.length = none := by
  have hfind : find [c] p = none := by
    rw [find_eq_none_iff]
    intro i hpre
    exact h (List.mem_of_mem_drop (hpre.subset List.mem_cons_self))
  rw [findFrom, List.drop_left, hfind, Option.map_none]

/-- **The loop of `split`** returns the parts that a token ends. -/
theorem splitLoop_eq (h : c ∉ p) (pre t : Bytes) {fuel : ℕ} (hfuel : t.length < fuel) :
    splitLoop fuel (pre ++ (p ++ c :: t)) [c] pre.length (pre.length + p.length) =
      p :: closedParts c t := by
  induction fuel generalizing pre p t with
  | zero => exact absurd hfuel (Nat.not_lt_zero _)
  | succ fuel ih =>
    have hslice : Vec.slice (pre ++ (p ++ c :: t)) pre.length
        (pre.length + p.length - pre.length) = p := by
      rw [Vec.slice, List.drop_left, Nat.add_sub_cancel_left, List.take_left]
    -- the search goes on behind the part, at its token
    let front := pre ++ p
    have hfront : front.length = pre.length + p.length := List.length_append
    rw [splitLoop, hslice, ← hfront]
    congr 1
    rcases front_cases c t with ⟨k, rfl⟩ | ⟨k, q, hq, hne, rfl⟩ | ⟨k, q, u, hq, hne, rfl⟩
    · -- tokens to the end: `start_pos` is `npos`
      have htext : pre ++ (p ++ c :: List.replicate k c) = front ++ List.replicate (k + 1) c :=
        (List.append_assoc ..).symm
      have hnil := closedParts_replicate_append (c := c) k []
      rw [List.append_nil] at hnil
      rw [htext, findFirstNotOf_tokens, hnil]
      rfl
    · -- a last part: `end_pos` is `npos`, and the part is not returned
      have htext : pre ++ (p ++ c :: (List.replicate k c ++ q)) =
          front ++ (List.replicate (k + 1) c ++ (q ++ [])) := by
        simp [front, List.replicate_succ]
      have hmiss : findFrom [c] (front ++ (List.replicate (k + 1) c ++ (q ++ [])))
          (front.length + (k + 1)) = none := by
        have hmiss := findFrom_of_not_mem hq (front ++ List.replicate (k + 1) c)
        rwa [List.length_append, List.length_replicate, List.append_assoc,
          ← List.append_nil q] at hmiss
      rw [htext, findFirstNotOf_part hq hne]
      dsimp only
      rw [hmiss, closedParts_replicate_append, closedParts_of_not_mem hq]
    · -- another part with a token behind it
      have htext : pre ++ (p ++ c :: (List.replicate k c ++ (q ++ c :: u))) =
          front ++ (List.replicate (k + 1) c ++ (q ++ c :: u)) := by
        simp [front, List.replicate_succ]
      have hnext : u.length < fuel := by
        simp only [List.length_append, List.length_cons, List.length_replicate] at hfuel
        omega
      have hloop := ih hq (front ++ List.replicate (k + 1) c) u hnext
      have hfind := findFrom_token hq (front ++ List.replicate (k + 1) c) u
      rw [List.append_assoc, List.length_append, List.length_replicate] at hloop hfind
      rw [htext, findFirstNotOf_part hq hne]
      dsimp only
      rw [hfind]
      dsimp only
      rw [hloop, closedParts_replicate_append, closedParts_append_token hq hne]

/-! ### The parts of a view -/

/-- No part is lost when a token ends the last. -/
theorem closedParts_eq_parts_iff (t : Bytes) :
    closedParts c t = parts c t ↔ t = [] ∨ t.getLast? = some c := by
  induction hn : t.length using Nat.strong_induction_on generalizing t with
  | _ n ih =>
    rcases front_cases c t with ⟨k, rfl⟩ | ⟨k, p, hp, hne, rfl⟩ | ⟨k, p, u, hp, hne, rfl⟩
    · -- no part, and none is lost
      have hclosed := closedParts_replicate_append (c := c) k []
      rw [List.append_nil] at hclosed
      refine iff_of_true (by rw [hclosed, parts_replicate]; rfl) ?_
      cases k with
      | zero => exact .inl rfl
      | succ k =>
        right
        rw [List.getLast?_replicate, if_neg (Nat.succ_ne_zero k)]
    · rw [closedParts_replicate_append, closedParts_of_not_mem hp, parts_replicate_append,
        parts_of_not_mem hp hne]
      refine iff_of_false (List.cons_ne_nil p []).symm ?_
      rintro (hnil | hlast)
      · exact hne (List.append_eq_nil_iff.mp hnil).2
      · rw [List.getLast?_append_of_ne_nil _ hne] at hlast
        exact hp (List.mem_of_getLast? hlast)
    · -- a part that a token ends is not lost, whatever follows
      have hlt : u.length < n := by
        simp only [List.length_append, List.length_cons] at hn
        omega
      rw [closedParts_replicate_append, closedParts_append_token hp hne, parts_replicate_append,
        parts_append_token hp hne, List.cons_inj_right, ih u.length hlt u rfl, ← List.append_assoc,
        List.getLast?_append_of_ne_nil _ (List.cons_ne_nil c u)]
      have hlast : (c :: u).getLast? = some c ↔ u = [] ∨ u.getLast? = some c := by
        cases u with
        | nil => simp
        | cons x u => simp
      rw [hlast]
      exact ⟨.inr, fun h =>
        h.resolve_left (List.append_ne_nil_of_right_ne_nil _ (List.cons_ne_nil c u))⟩

namespace StringView

theorem split_tokens (k : ℕ) (behind : Bytes) : split ⟨List.replicate k c, behind⟩ [c] =
    (data ⟨List.replicate k c, behind⟩).map ([·]) := by
  have hnot : findFirstNotOf [c] (List.replicate k c) 0 = none := findFirstNotOf_tokens [] k
  rw [split, hnot]

theorem split_last (h : c ∉ p) (hne : p ≠ []) (k : ℕ) (behind : Bytes) :
    split ⟨List.replicate k c ++ p, behind⟩ [c] =
      (data ⟨List.replicate k c ++ p, behind⟩).map ([·]) := by
  have hstart : findFirstNotOf [c] (List.replicate k c ++ p) 0 = some k := by
    have hpart := findFirstNotOf_part h hne [] k []
    rwa [List.append_nil, List.nil_append, List.length_nil, Nat.zero_add] at hpart
  have hmiss : findFrom [c] (List.replicate k c ++ p) k = none := by
    have hmiss := findFrom_of_not_mem h (List.replicate k c)
    rwa [List.length_replicate] at hmiss
  rw [split, hstart]
  dsimp only
  rw [hmiss]

theorem split_part (h : c ∉ p) (hne : p ≠ []) (k : ℕ) (t behind : Bytes) :
    split ⟨List.replicate k c ++ (p ++ c :: t), behind⟩ [c] = .ok (p :: closedParts c t) := by
  have hstart : findFirstNotOf [c] (List.replicate k c ++ (p ++ c :: t)) 0 = some k := by
    have hpart := findFirstNotOf_part h hne [] k (c :: t)
    rwa [List.nil_append, List.length_nil, Nat.zero_add] at hpart
  have hfind := findFrom_token h (List.replicate k c) t
  have hfuel : t.length < (List.replicate k c ++ (p ++ c :: t)).length := by
    simp only [List.length_append, List.length_cons]
    omega
  have hloop := splitLoop_eq h (List.replicate k c) t hfuel
  rw [List.length_replicate] at hfind hloop
  rw [split, hstart]
  dsimp only
  rw [hfind]
  dsimp only
  rw [hloop]

/-- Only one text is returned where `data()` is. -/
theorem split_of_data {v : StringView} (h : v.split [c] = v.data.map ([·])) (ps : List Bytes) :
    v.split [c] = .ok ps ↔ ∃ p, ps = [p] ∧ v.data = .ok p := by
  rw [h]
  cases v.data with
  | error e => simp [Except.map]
  | ok p =>
    simp only [Except.map, Except.ok.injEq]
    exact ⟨fun hps => ⟨p, hps.symm, rfl⟩, fun ⟨q, hps, hq⟩ => by rw [hps, hq]⟩

/-- The C string behind tokens starts with one of them. -/
theorem data_ne_of_token (h : c ∉ p) (hne : p ≠ []) (t behind : Bytes) :
    data ⟨c :: t, behind⟩ ≠ .ok p := by
  intro hdata
  unfold data at hdata
  split at hdata
  · have hpre : cStr (c :: t ++ behind) <+: c :: t ++ behind := List.takeWhile_prefix _
    obtain ⟨x, q, rfl⟩ := List.exists_cons_of_ne_nil hne
    rw [Except.ok.inj hdata, List.cons_append, List.cons_prefix_cons] at hpre
    exact h (hpre.1 ▸ List.mem_cons_self)
  · cases hdata

/-- A token ends the view, and there is a part before it; or the view is a C string without a
token. -/
def SplitsWell (v : StringView) (c : UInt8) : Prop :=
  ((∃ x ∈ v.str, x ≠ c) ∧ v.str.getLast? = some c) ∨
    (v.str ≠ [] ∧ c ∉ v.str ∧ 0 ∉ v.str ∧ v.behind.head? = some 0)

/-- **`split` returns every part** of a view with a token at its end, and of one that is a C string
without a token, and of no other. -/
theorem split_eq_parts_iff (v : StringView) (c : UInt8) :
    v.split [c] = .ok (parts c v.str) ↔ v.SplitsWell c := by
  obtain ⟨str, behind⟩ := v
  unfold SplitsWell
  rcases front_cases c str with ⟨k, rfl⟩ | ⟨k, p, hp, hne, rfl⟩ | ⟨k, p, t, hp, hne, rfl⟩
  · -- nothing but tokens has no part, and is returned as it is
    rw [split_of_data (split_tokens k behind), parts_replicate]
    refine iff_of_false (fun ⟨p, hps, _⟩ => List.cons_ne_nil p [] hps.symm) ?_
    rintro (⟨⟨x, hx, hne⟩, -⟩ | ⟨hne, hc, -⟩)
    · exact hne (List.eq_of_mem_replicate hx)
    · cases k with
      | zero => exact hne rfl
      | succ k => exact hc (by simp)
  · -- a single part is returned as it is, with the tokens in front of it
    have hlast : (List.replicate k c ++ p).getLast? ≠ some c := by
      rw [List.getLast?_append_of_ne_nil _ hne]
      exact fun hlast => hp (List.mem_of_getLast? hlast)
    rw [split_of_data (split_last hp hne k behind), parts_replicate_append,
      parts_of_not_mem hp hne]
    cases k with
    | zero =>
      rw [List.replicate_zero, List.nil_append] at hlast ⊢
      have hview := data_eq_str_iff (v := ⟨p, behind⟩)
      constructor
      · rintro ⟨q, hq, hdata⟩
        obtain rfl := List.singleton_inj.mp hq
        exact .inr ⟨hne, hp, hview.mp hdata⟩
      · intro h
        exact ⟨p, rfl, hview.mpr (h.resolve_left fun h => hlast h.2).2.2⟩
    | succ k =>
      have hmem : c ∈ List.replicate (k + 1) c ++ p := by simp
      refine iff_of_false ?_ ?_
      · rintro ⟨q, hq, hdata⟩
        obtain rfl := List.singleton_inj.mp hq
        exact data_ne_of_token hp hne (List.replicate k c ++ p) behind hdata
      · rintro (⟨-, h⟩ | ⟨-, h, -⟩)
        · exact hlast h
        · exact h hmem
  · -- after a token the loop runs, and loses at most the last part
    have hlast : (List.replicate k c ++ (p ++ c :: t)).getLast? = some c ↔
        t = [] ∨ t.getLast? = some c := by
      rw [← List.append_assoc, List.getLast?_append_of_ne_nil _ (List.cons_ne_nil c t)]
      cases t <;> simp
    have hother : ∃ x ∈ List.replicate k c ++ (p ++ c :: t), x ≠ c := by
      obtain ⟨x, q, rfl⟩ := List.exists_cons_of_ne_nil hne
      exact ⟨x, by simp, fun heq => hp (heq ▸ List.mem_cons_self)⟩
    have hmem : c ∈ List.replicate k c ++ (p ++ c :: t) := by simp
    rw [split_part hp hne, parts_replicate_append, parts_append_token hp hne, Except.ok.injEq,
      List.cons_inj_right, closedParts_eq_parts_iff, ← hlast]
    exact ⟨fun h => .inl ⟨hother, h⟩, fun h => (h.resolve_right fun h => h.2.1 hmem).2⟩

/-- What follows the last token is lost. -/
theorem not_split_eq_parts : ¬ ∀ (v : StringView) (c : UInt8),
    v.split [c] = .ok (parts c v.str) := by
  intro h
  have hsplit := split_part (c := 32) (p := [97]) (by decide) (by decide) 0 [98] [0]
  have hall := h ⟨[97, 32, 98], [0]⟩ 32
  have hparts : parts 32 [97, 32, 98] = [[97], [98]] := by
    have hlast := parts_of_not_mem (c := 32) (p := [98]) (by decide) (by decide)
    have hfirst := parts_append_token (c := 32) (p := [97]) (by decide) (by decide) [98]
    rwa [hlast] at hfirst
  have hclosed : closedParts 32 [98] = [] := closedParts_of_not_mem (by decide)
  rw [hparts] at hall
  rw [hclosed] at hsplit
  cases hall.symm.trans hsplit

/-! ### Stripping -/

/-- The loop does not move the end backwards. -/
theorem stripLoop_snd_le (str : Bytes) (fuel start_pos end_pos : Nat) :
    (SimpleTcp.stripLoop fuel str start_pos end_pos).2 ≤ end_pos := by
  induction fuel generalizing start_pos end_pos with
  | zero => exact le_rfl
  | succ fuel ih =>
    rw [SimpleTcp.stripLoop]
    split
    · dsimp only
      split
      · exact le_rfl
      · refine (ih _ _).trans ?_
        split
        · exact Nat.sub_le end_pos 1
        · exact le_rfl
    · exact le_rfl

theorem get_of_lt {v : StringView} {pos : Nat} (h : pos < v.str.length) :
    v.get pos = .ok v.str[pos] := by
  rw [get, List.getElem?_eq_getElem h]

/-- **The loop of `strip`** reads characters of the view only, and ends: it is the loop on the
text. -/
theorem stripLoop_eq (v : StringView) {fuel start_pos end_pos : Nat}
    (hfuel : end_pos - start_pos ≤ fuel) (hend : end_pos ≤ v.str.length) :
    stripLoop fuel v start_pos end_pos =
      .ok (SimpleTcp.stripLoop fuel v.str start_pos end_pos) := by
  induction fuel generalizing start_pos end_pos with
  | zero =>
    have hge : ¬ start_pos < end_pos := by omega
    rw [stripLoop, if_neg hge, SimpleTcp.stripLoop]
  | succ fuel ih =>
    rw [stripLoop, SimpleTcp.stripLoop]
    by_cases hlt : start_pos < end_pos
    · -- as long as the ends have not met, both characters are inside
      have hstart : start_pos < v.str.length := by omega
      have hlast : end_pos - 1 < v.str.length := by omega
      rw [if_pos hlt, if_pos hlt]
      simp only [get_of_lt hstart, get_of_lt hlast, List.getElem?_eq_getElem hstart,
        List.getElem?_eq_getElem hlast, ok_bind, Option.some.injEq]
      by_cases hf : v.str[start_pos] = 32 <;> by_cases hb : v.str[end_pos - 1] = 32
      · simp only [hf, hb, ne_eq, not_true, if_false, if_true, false_and]
        exact ih (by omega) (by omega)
      · simp only [hf, hb, ne_eq, not_true, if_false, if_true, false_and]
        exact ih (by omega) (by omega)
      · have hback : ((· != 32) <$> (.ok 32 : Except Stop UInt8)) = .ok false := rfl
        simp only [hf, hb, ne_eq, not_false_eq_true, not_true, if_true, hback, ok_bind, and_false,
          if_false, Bool.false_eq_true]
        exact ih (by omega) (by omega)
      · simp [hf, hb]
    · rw [if_neg hlt, if_neg hlt]

/-- Of a view, `strip` returns its text trimmed. -/
theorem strip_eq_trim (v : StringView) : v.strip = .ok (trim v.str) := by
  rw [strip, ← SimpleTcp.strip_eq_trim, SimpleTcp.strip]
  by_cases hnil : v.str = []
  · rw [if_pos hnil, hnil]
    rfl
  · have hloop : stripLoop v.str.length v 0 v.str.length = _ :=
      stripLoop_eq v (Nat.sub_le v.str.length 0) le_rfl
    have hle := stripLoop_snd_le v.str v.str.length 0 v.str.length
    rw [if_neg hnil, hloop, ok_bind]
    dsimp only
    split
    · rfl
    · exact substring_of_le (by omega)

/-- **Trimming** takes away all spaces at the front and at the back, and nothing else. -/
theorem trims_trim (s : Bytes) : Trims s (trim s) := by
  have hspaces : ∀ {t : Bytes}, (∀ c ∈ t, c = 32) → t = List.replicate t.length 32 :=
    fun h => List.eq_replicate_of_mem h
  let middle := s.dropWhile (· = 32)
  have hfront : s.takeWhile (· = 32) = List.replicate (s.takeWhile (· = 32)).length 32 :=
    hspaces fun c hc => by simpa using List.mem_takeWhile_imp hc
  have hback : middle.rtakeWhile (· = 32) =
      List.replicate (middle.rtakeWhile (· = 32)).length 32 :=
    hspaces fun c hc => by simpa using List.mem_rtakeWhile_imp hc
  have hsplit : s = s.takeWhile (· = 32) ++ (trim s ++ middle.rtakeWhile (· = 32)) := by
    rw [trim, List.rdropWhile_append_rtakeWhile, List.takeWhile_append_dropWhile]
  refine ⟨⟨(s.takeWhile (· = 32)).length, (middle.rtakeWhile (· = 32)).length, ?_⟩, ?_, ?_⟩
  · rw [← hfront, ← hback, List.append_assoc]
    exact hsplit
  · intro hhead
    obtain ⟨r, hr⟩ := List.head?_eq_some_iff.mp hhead
    -- what is left starts where the spaces at the front end
    obtain ⟨rest, hrest⟩ : trim s <+: middle := List.rdropWhile_prefix _ _
    have hmiddle : (s.dropWhile (· = 32)).head? = some 32 := by
      change middle.head? = _
      rw [← hrest, hr]
      rfl
    have hnot := List.head?_dropWhile_not (fun c : UInt8 => c = 32) s
    rw [hmiddle] at hnot
    cases hnot
  · intro hlast
    have hne : trim s ≠ [] := by
      rintro hnil
      rw [hnil] at hlast
      cases hlast
    have hnot := List.rdropWhile_last_not (fun c : UInt8 => c = 32) middle hne
    rw [List.getLast?_eq_some_getLast hne, Option.some.injEq] at hlast
    exact hnot (decide_eq_true hlast)

/-- **`strip` trims**: it ends, reads nothing outside the view, and returns the text without the
spaces at its ends, which it returns again. -/
theorem strip_trims (v : StringView) : ∃ r, v.strip = .ok r ∧ Trims v.str r ∧
    ∀ behind, strip ⟨r, behind⟩ = .ok r := by
  have htrims := trims_trim v.str
  refine ⟨trim v.str, v.strip_eq_trim, htrims, fun behind => ?_⟩
  rw [strip_eq_trim, trim_of_ends htrims.2.1 htrims.2.2]

end StringView

end

end SimpleTcp
