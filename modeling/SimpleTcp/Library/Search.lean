import Mathlib.Data.List.Infix

/-!
# Searching for a pattern

The first position at which a list continues with a pattern, from the front and from a position on,
as `find` of a string computes it. A position found in a prefix of a list is the position found in
the list; a position found in the list is found in every prefix that reaches behind the pattern.

## Main definitions

* `Search.find pat s`: the first position of `pat` in `s`
* `Search.findFrom pat s pos`: the first position from `pos` on
* `Search.pieces pat n s`: the pieces of `s` that end with `pat`, at most `n` of them

## Main results

* `find_eq_some_iff`: the position is the first at which the list continues with the pattern
* `findFrom_prefix_iff`: what is found in a prefix
* `find_append_cons`: a pattern whose first element does not come earlier
* `pieces_flatMap`, `find_blank_lines`: lines, and the end of the last of them
* `not_isInfix_of_mem_pieces`: no line contains the end of one
-/

namespace Search

variable {α : Type}

/-- A prefix continues with the pattern where the list does, as far as it reaches. -/
theorem prefix_drop_iff {pat s p : List α} {i : Nat} (hp : p <+: s) (hpat : pat ≠ []) :
    pat <+: p.drop i ↔ pat <+: s.drop i ∧ i + pat.length ≤ p.length := by
  obtain ⟨t, rfl⟩ := hp
  have hpos := List.length_pos_iff.mpr hpat
  constructor
  · intro h
    have hlen := h.length_le
    rw [List.length_drop] at hlen
    refine ⟨?_, by omega⟩
    rw [List.drop_append_of_le_length (by omega)]
    exact h.trans (List.prefix_append _ _)
  · rintro ⟨h, hlen⟩
    rw [List.drop_append_of_le_length (by omega)] at h
    refine List.prefix_of_prefix_length_le h (List.prefix_append _ _) ?_
    rw [List.length_drop]
    omega

/-! ### Lines

The ends of lines are told apart by their first element, which does not come again in them. -/

theorem not_isInfix_of_not_mem {pat s : List α} {a : α} (h : a ∉ s) : ¬ a :: pat <:+: s :=
  fun hsub => h (hsub.mem List.mem_cons_self)

/-- No end of line starts in a line that has none, wherever the line is followed by one. -/
theorem not_prefix_drop_line {pat s : List α} {a : α} (hpat : a ∉ pat)
    (h : ¬ a :: pat <:+: s) (t : List α) :
    ∀ j < s.length, ¬ a :: pat <+: (s ++ a :: t).drop j := by
  intro j hj hpre
  rw [List.drop_append_of_le_length hj.le] at hpre
  rcases Nat.lt_or_ge (s.drop j).length (a :: pat).length with hlt | hge
  · -- it would reach the element that follows the line
    have hshort : s.drop j <+: a :: pat :=
      List.prefix_of_prefix_length_le (List.prefix_append _ _) hpre hlt.le
    obtain ⟨u, hu⟩ := hshort
    rw [← hu, List.prefix_append_right_inj] at hpre
    cases u with
    | nil =>
      rw [List.append_nil] at hu
      exact absurd (congrArg List.length hu) hlt.ne
    | cons b u =>
      obtain ⟨rfl, -⟩ := List.cons_prefix_cons.mp hpre
      rw [List.drop_eq_getElem_cons hj, List.cons_append] at hu
      have hmem : b ∈ s.drop (j + 1) ++ b :: u := by simp
      rw [(List.cons.inj hu).2] at hmem
      exact hpat hmem
  · have hin : a :: pat <+: s.drop j :=
      List.prefix_of_prefix_length_le hpre (List.prefix_append _ _) hge
    exact h (hin.isInfix.trans (List.drop_suffix _ _).isInfix)

/-- A pattern does not reach an element that is not in it. -/
theorem prefix_append_cons_iff {pat s t : List α} {a : α} (h : a ∉ pat) :
    pat <+: s ++ a :: t ↔ pat <+: s := by
  refine ⟨fun hpre => ?_, fun hpre => hpre.trans (List.prefix_append _ _)⟩
  rcases List.prefix_or_prefix_of_prefix hpre (List.prefix_append _ _) with hs | ⟨u, rfl⟩
  · exact hs
  · rw [List.prefix_append_right_inj] at hpre
    cases u with
    | nil => rw [List.append_nil]
    | cons b u =>
      obtain ⟨rfl, -⟩ := List.cons_prefix_cons.mp hpre
      exact absurd (List.mem_append_right _ List.mem_cons_self) h

/-- An element that is not in the pattern separates. -/
theorem isInfix_append_cons_iff {pat s t : List α} {a : α} (h : a ∉ pat) :
    pat <:+: s ++ a :: t ↔ pat <:+: s ∨ pat <:+: t := by
  constructor
  · intro hin
    induction s with
    | nil =>
      rcases List.infix_cons_iff.mp hin with hpre | ht
      · exact .inl ((prefix_append_cons_iff (s := []) h).mp hpre).isInfix
      · exact .inr ht
    | cons b s ih =>
      rcases List.infix_cons_iff.mp hin with hpre | hin
      · exact .inl ((prefix_append_cons_iff (s := b :: s) h).mp hpre).isInfix
      · exact (ih hin).imp_left fun hs => hs.trans (List.suffix_cons b s).isInfix
  · rintro (hs | ht)
    · exact List.infix_append_of_infix_left hs
    · exact List.infix_append_of_infix_right (List.infix_cons_iff.mpr (.inr ht))

/-- There are no more lines than elements. -/
theorem length_le_flatMap {pat : List α} (hpat : pat ≠ []) (ls : List (List α)) :
    ls.length ≤ (ls.flatMap (· ++ pat)).length := by
  have hpos := List.length_pos_iff.mpr hpat
  induction ls with
  | nil => exact le_rfl
  | cons l ls ih =>
    rw [List.flatMap_cons, List.length_append, List.length_append, List.length_cons]
    omega

/-! ### Finding -/

variable [DecidableEq α]

/-- The first position at which `s` continues with `pat`. -/
def find (pat : List α) : List α → Option Nat
  | [] => if pat = [] then some 0 else none
  | a :: s => if pat <+: a :: s then some 0 else (find pat s).map (· + 1)

/-- The first position from `pos` on. -/
def findFrom (pat s : List α) (pos : Nat) : Option Nat := (find pat (s.drop pos)).map (· + pos)

/-- The pieces of `s` that end with `pat`, at most `n` of them. -/
def pieces (pat : List α) : Nat → List α → List (List α)
  | 0, _ => []
  | n + 1, s =>
    match find pat s with
    | none => []
    | some i => s.take i :: pieces pat n (s.drop (i + pat.length))

variable {pat s p : List α} {i pos : Nat}

theorem find_eq_some_iff :
    find pat s = some i ↔ pat <+: s.drop i ∧ ∀ j < i, ¬ pat <+: s.drop j := by
  induction s generalizing i with
  | nil =>
    simp only [find, List.drop_nil, List.prefix_nil]
    -- in the empty list only the empty pattern is found
    by_cases hp : pat = []
    · simp only [hp, if_true, Option.some.injEq, not_true, true_and, imp_false, not_lt]
      exact ⟨fun h j => by omega, fun h => by have := h 0; omega⟩
    · simp [hp]
  | cons a s ih =>
    rw [find]
    split
    · next h =>
      rw [Option.some.injEq]
      constructor
      · rintro rfl
        exact ⟨h, by simp⟩
      · rintro ⟨-, hfirst⟩
        by_contra hi
        exact hfirst 0 (by omega) h
    · next h =>
      cases i with
      | zero => simp [h]
      | succ i =>
        -- a position in the tail is one less, and the head is no place before it
        rw [Option.map_eq_some_iff]
        simp only [Nat.add_right_cancel_iff, exists_eq_right, ih, List.drop_succ_cons]
        refine and_congr_right fun _ => ⟨fun hfirst j hj => ?_, fun hfirst j hj => ?_⟩
        · cases j with
          | zero => exact h
          | succ j => exact hfirst j (by omega)
        · exact hfirst (j + 1) (by omega)

theorem find_eq_none_iff : find pat s = none ↔ ∀ i, ¬ pat <+: s.drop i := by
  constructor
  · intro hnone i
    induction i using Nat.strong_induction_on with
    | _ i ih =>
      intro hi
      have hsome := find_eq_some_iff.mpr ⟨hi, ih⟩
      rw [hnone] at hsome
      cases hsome
  · intro h
    cases hf : find pat s with
    | none => rfl
    | some i => exact absurd (find_eq_some_iff.mp hf).1 (h i)

theorem le_of_find (h : find pat s = some i) (hpat : pat ≠ []) : i + pat.length ≤ s.length := by
  have hpre := (find_eq_some_iff.mp h).1
  have hlen := hpre.length_le
  have hpos := List.length_pos_iff.mpr hpat
  rw [List.length_drop] at hlen
  omega

theorem findFrom_eq_some_iff :
    findFrom pat s pos = some i ↔
      pos ≤ i ∧ pat <+: s.drop i ∧ ∀ j, pos ≤ j → j < i → ¬ pat <+: s.drop j := by
  rw [findFrom, Option.map_eq_some_iff]
  constructor
  · rintro ⟨k, hk, rfl⟩
    obtain ⟨hpre, hfirst⟩ := find_eq_some_iff.mp hk
    rw [List.drop_drop] at hpre
    refine ⟨by omega, by rwa [Nat.add_comm], fun j hj hlt => ?_⟩
    have hnot := hfirst (j - pos) (by omega)
    rwa [List.drop_drop, Nat.add_sub_cancel' hj] at hnot
  · rintro ⟨hle, hpre, hfirst⟩
    refine ⟨i - pos, find_eq_some_iff.mpr ⟨?_, fun j hj => ?_⟩, by omega⟩
    · rwa [List.drop_drop, Nat.add_sub_cancel' hle]
    · rw [List.drop_drop]
      exact hfirst (pos + j) (by omega) (by omega)

theorem le_of_findFrom (h : findFrom pat s pos = some i) (hpat : pat ≠ []) :
    i + pat.length ≤ s.length := by
  have hlen := (findFrom_eq_some_iff.mp h).2.1.length_le
  have hpos := List.length_pos_iff.mpr hpat
  rw [List.length_drop] at hlen
  omega

/-- **What is found in a prefix** is what is found in the list, as far as the prefix reaches. -/
theorem findFrom_prefix_iff (hp : p <+: s) (hpat : pat ≠ []) :
    findFrom pat p pos = some i ↔ findFrom pat s pos = some i ∧ i + pat.length ≤ p.length := by
  simp only [findFrom_eq_some_iff, prefix_drop_iff hp hpat]
  constructor
  · rintro ⟨hle, ⟨hpre, hlen⟩, hfirst⟩
    exact ⟨⟨hle, hpre, fun j hj hlt h => hfirst j hj hlt ⟨h, by omega⟩⟩, hlen⟩
  · rintro ⟨⟨hle, hpre, hfirst⟩, hlen⟩
    exact ⟨hle, ⟨hpre, hlen⟩, fun j hj hlt h => hfirst j hj hlt h.1⟩

theorem findFrom_zero (pat s : List α) : findFrom pat s 0 = find pat s := by
  simp [findFrom]

theorem find_prefix_iff (hp : p <+: s) (hpat : pat ≠ []) :
    find pat p = some i ↔ find pat s = some i ∧ i + pat.length ≤ p.length := by
  rw [← findFrom_zero, ← findFrom_zero, findFrom_prefix_iff hp hpat]

/-- The elements before a position at which nothing is found may be skipped. -/
theorem find_append_of_not (s t : List α) (h : ∀ j < s.length, ¬ pat <+: (s ++ t).drop j) :
    find pat (s ++ t) = (find pat t).map (· + s.length) := by
  induction s with
  | nil => simp
  | cons a s ih =>
    have hnot : ¬ pat <+: a :: (s ++ t) := h 0 (by simp)
    rw [List.cons_append, find, if_neg hnot, ih fun j hj => h (j + 1) (by simpa using hj),
      Option.map_map]
    rfl

/-- Elements other than the first of the pattern may be skipped. -/
theorem find_append_of_not_mem {a : α} (h : a ∉ s) (t : List α) :
    find (a :: pat) (s ++ t) = (find (a :: pat) t).map (· + s.length) := by
  refine find_append_of_not s t fun j hj hpre => h ?_
  rw [List.drop_append_of_le_length hj.le, List.drop_eq_getElem_cons hj, List.cons_append,
    List.cons_prefix_cons] at hpre
  rw [hpre.1]
  exact List.getElem_mem hj

/-- A pattern is found behind elements other than its first. -/
theorem find_append_cons {a : α} (h : a ∉ s) (t : List α) :
    find (a :: pat) (s ++ a :: pat ++ t) = some s.length := by
  have hhere : find (a :: pat) (a :: pat ++ t) = some 0 := by
    rw [List.cons_append, find, if_pos (List.cons_prefix_cons.mpr ⟨rfl, List.prefix_append _ _⟩)]
  rw [List.append_assoc, find_append_of_not_mem h, hhere]
  simp

theorem find_isSome_of_isInfix (h : pat <:+: s) : (find pat s).isSome := by
  obtain ⟨a, b, rfl⟩ := h
  rw [Option.isSome_iff_ne_none, Ne, find_eq_none_iff, not_forall]
  refine ⟨a.length, not_not.mpr ?_⟩
  rw [List.append_assoc, List.drop_left]
  exact List.prefix_append _ _

theorem find_isSome_iff : (find pat s).isSome ↔ pat <:+: s := by
  refine ⟨fun h => ?_, find_isSome_of_isInfix⟩
  obtain ⟨i, hi⟩ := Option.isSome_iff_exists.mp h
  exact (find_eq_some_iff.mp hi).1.isInfix.trans (List.drop_suffix i s).isInfix

/-- What comes before a separator may be skipped when the pattern is not in it. -/
theorem find_append_separator {a : α} (ha : a ∉ pat) (hs : ¬ pat <:+: s)
    (t : List α) : find pat (s ++ a :: t) = (find pat t).map (· + (s.length + 1)) := by
  have hskip : ∀ j < (s ++ [a]).length, ¬ pat <+: (s ++ [a] ++ t).drop j := by
    intro j hj hpre
    rw [List.length_append, List.length_singleton] at hj
    rw [List.append_assoc, List.singleton_append, List.drop_append_of_le_length (by omega)] at hpre
    have hin : pat <+: s.drop j := (prefix_append_cons_iff ha).mp hpre
    exact hs (hin.isInfix.trans (List.drop_suffix _ _).isInfix)
  have hfind := find_append_of_not (s ++ [a]) t hskip
  rwa [List.append_assoc, List.singleton_append, List.length_append, List.length_singleton] at hfind

/-! ### Finding lines -/

/-- The end of a line is found. -/
theorem find_line_end {a : α} (hpat : a ∉ pat) (h : ¬ a :: pat <:+: s) (t : List α) :
    find (a :: pat) (s ++ a :: pat ++ t) = some s.length := by
  have hhere : find (a :: pat) (a :: (pat ++ t)) = some 0 := by
    rw [find, if_pos (List.cons_prefix_cons.mpr ⟨rfl, List.prefix_append _ _⟩)]
  rw [List.append_assoc, List.cons_append, find_append_of_not _ _ (not_prefix_drop_line hpat h _),
    hhere]
  simp

/-- Lines are found again. -/
theorem pieces_flatMap {a : α} (hpat : a ∉ pat) {ps : List (List α)}
    (hps : ∀ q ∈ ps, ¬ a :: pat <:+: q) {n : Nat} (hn : ps.length ≤ n) :
    pieces (a :: pat) n (ps.flatMap (· ++ a :: pat)) = ps := by
  induction ps generalizing n with
  | nil => cases n <;> simp [pieces, find]
  | cons q ps ih =>
    obtain ⟨hq, hps⟩ := List.forall_mem_cons.mp hps
    cases n with
    | zero => simp at hn
    | succ n =>
      rw [List.flatMap_cons, pieces, find_line_end hpat hq]
      dsimp only
      rw [← List.length_append, List.drop_left, List.append_assoc, List.take_left,
        ih hps (Nat.le_of_succ_le_succ hn)]

/-- A piece does not contain the pattern that ends it. -/
theorem not_isInfix_of_mem_pieces (hpat : pat ≠ []) {n : Nat} {q : List α}
    (h : q ∈ pieces pat n s) : ¬ pat <:+: q := by
  induction n generalizing s with
  | zero => simp [pieces] at h
  | succ n ih =>
    rw [pieces] at h
    cases hf : find pat s with
    | none => simp [hf] at h
    | some i =>
      rw [hf, List.mem_cons] at h
      rcases h with rfl | h
      · rintro ⟨u, v, huv⟩
        -- the pattern would have been found earlier
        have hlen := congrArg List.length huv
        have hpos := List.length_pos_iff.mpr hpat
        have hle : (s.take i).length ≤ i := List.length_take_le i s
        simp only [List.length_append] at hlen
        refine (find_eq_some_iff.mp hf).2 u.length (by omega) ?_
        have hpre : pat <+: (s.take i).drop u.length := by
          rw [← huv, List.append_assoc, List.drop_left]
          exact List.prefix_append _ _
        exact hpre.trans ((List.take_prefix i s).drop _)
      · exact ih h

/-- A line in front of what does not start with another end of line may be skipped when two ends of
line are searched. -/
theorem find_append_line {a : α} {line t : List α} (hline : ¬ a :: pat <:+: line) (hpat : a ∉ pat)
    (ht : ¬ a :: pat <+: t) :
    find (a :: pat ++ a :: pat) (line ++ a :: pat ++ t) =
      (find (a :: pat ++ a :: pat) t).map (· + (line ++ a :: pat).length) := by
  have hnot : ¬ a :: (pat ++ a :: pat) <+: a :: (pat ++ t) := by
    rw [List.cons_prefix_cons, List.prefix_append_right_inj]
    exact fun h => ht h.2
  have hskip : ∀ j < line.length, ¬ a :: (pat ++ a :: pat) <+: (line ++ a :: (pat ++ t)).drop j :=
    fun j hj hpre => not_prefix_drop_line hpat hline _ j hj
      ((List.prefix_append (a :: pat) (a :: pat)).trans hpre)
  rw [List.cons_append, List.append_assoc, List.cons_append, find_append_of_not _ _ hskip, find,
    if_neg hnot, find_append_of_not_mem hpat, Option.map_map, Option.map_map]
  congr 1
  funext i
  simp only [Function.comp_apply, List.length_append, List.length_cons]
  omega

/-- **Two ends of line** are found behind the last line. -/
theorem find_blank {a : α} {lines : List (List α)} {last : List α} (hpat : a ∉ pat)
    (hlines : ∀ line ∈ lines, ¬ a :: pat <:+: line ∧ line ≠ [])
    (hlast : ¬ a :: pat <:+: last ∧ last ≠ []) (t : List α) :
    find (a :: pat ++ a :: pat)
        (lines.flatMap (· ++ a :: pat) ++ (last ++ (a :: pat ++ a :: pat) ++ t)) =
      some ((lines.flatMap (· ++ a :: pat)).length + last.length) := by
  -- no line begins with an end of line
  have hstart : ∀ {line u : List α}, ¬ a :: pat <:+: line ∧ line ≠ [] →
      ¬ a :: pat <+: line ++ a :: u := fun ⟨hline, hne⟩ hpre =>
    not_prefix_drop_line hpat hline _ 0 (List.length_pos_iff.mpr hne) (by simpa using hpre)
  -- in the last line the first end of line is at its end, and another one follows
  have hend : find (a :: pat ++ a :: pat) (last ++ (a :: pat ++ a :: pat) ++ t) =
      some last.length := by
    have hskip : ∀ j < last.length, ¬ a :: pat ++ a :: pat <+:
        (last ++ a :: (pat ++ a :: pat ++ t)).drop j :=
      fun j hj hpre => not_prefix_drop_line hpat hlast.1 _ j hj
        ((List.prefix_append (a :: pat) (a :: pat)).trans hpre)
    have hhere : find (a :: pat ++ a :: pat) (a :: (pat ++ a :: pat ++ t)) = some 0 := by
      rw [List.cons_append, find,
        if_pos (List.cons_prefix_cons.mpr ⟨rfl, List.prefix_append _ _⟩)]
    have happ : last ++ (a :: pat ++ a :: pat) ++ t = last ++ a :: (pat ++ a :: pat ++ t) := by simp
    rw [happ, find_append_of_not _ _ hskip, hhere]
    simp
  -- by induction on the lines: each end of line is followed by a line, not by another one
  induction lines with
  | nil => rw [List.flatMap_nil, List.nil_append, List.length_nil, Nat.zero_add, hend]
  | cons line lines ih =>
    obtain ⟨hline, hlines⟩ := List.forall_mem_cons.mp hlines
    have ht : ¬ a :: pat <+: lines.flatMap (· ++ a :: pat) ++
        (last ++ (a :: pat ++ a :: pat) ++ t) := by
      cases lines with
      | nil =>
        rw [List.flatMap_nil, List.nil_append, List.append_assoc]
        exact hstart hlast
      | cons line' lines =>
        rw [List.flatMap_cons, List.append_assoc, List.append_assoc]
        exact hstart (hlines line' List.mem_cons_self)
    rw [List.flatMap_cons, List.append_assoc, find_append_line hline.1 hpat ht, ih hlines,
      Option.map_some, Option.some.injEq]
    simp only [List.length_append]
    omega

/-- The two ends of line that follow some lines start with the end of the last of them. -/
theorem find_blank_lines {a : α} {lines : List (List α)} (hpat : a ∉ pat) (hne : lines ≠ [])
    (hlines : ∀ line ∈ lines, ¬ a :: pat <:+: line ∧ line ≠ []) (t : List α) :
    ∃ n, n + (a :: pat).length = (lines.flatMap (· ++ a :: pat)).length ∧
      find (a :: pat ++ a :: pat) (lines.flatMap (· ++ a :: pat) ++ (a :: pat ++ t)) = some n := by
  obtain ⟨ls, last, rfl⟩ := (List.eq_nil_or_concat' lines).resolve_left hne
  have hlast := hlines last (by simp)
  have hls : ∀ line ∈ ls, ¬ a :: pat <:+: line ∧ line ≠ [] := fun line hl =>
    hlines line (by simp [hl])
  have hblock : (ls ++ [last]).flatMap (· ++ a :: pat) =
      ls.flatMap (· ++ a :: pat) ++ (last ++ a :: pat) := by
    rw [List.flatMap_append, List.flatMap_singleton]
  have htext : (ls ++ [last]).flatMap (· ++ a :: pat) ++ (a :: pat ++ t) =
      ls.flatMap (· ++ a :: pat) ++ (last ++ (a :: pat ++ a :: pat) ++ t) := by
    rw [hblock]
    simp only [List.append_assoc]
  refine ⟨(ls.flatMap (· ++ a :: pat)).length + last.length, ?_, ?_⟩
  · rw [hblock, List.length_append, List.length_append, Nat.add_assoc]
  · rw [htext]
    exact find_blank hpat hls hlast t

end Search
