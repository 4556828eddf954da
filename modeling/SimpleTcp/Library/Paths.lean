import Mathlib.Data.List.Infix

/-!
# Paths in a tree of directories

A path is followed component by component. Whatever place it is at, it goes on from there only if
there is a directory. A path that never looks anywhere but below some directory and on the way to it
leads to the same file in all trees that have this directory. Conversely, where a path looks at
another place, there are two such trees that it tells apart, unless what it leads to has to be a
directory for the path to be followed at all.

## Main definitions

* `Component`, `Node`, `Tree`: paths, what there is at a place, and trees
* `Tree.content?`: the file that a path leads to
* `passed`, `target`: the places a path goes on from, and the one where it ends
* `Tree.Shares`: two trees have the same directory at a place
* `Near`, `Blocked`: a place below a directory or on the way to it; a path that leads to no file

## Main results

* `content?_eq_of_near`: a path that stays near a shared directory leads to the same file
* `exists_content?_ne`: a path that does not leads to a file in one tree and to none in another
* `near_of_stays`: a path that never climbs above where it starts
-/

namespace Paths

variable {ν φ : Type*}

/-- A component of a path: `.`, `..` or a name. -/
inductive Component (ν : Type*) where
  | here
  | up
  | name (n : ν)
  deriving DecidableEq

inductive Node (φ : Type*) where
  | dir
  | file (content : φ)
  deriving DecidableEq

/-- A place, by the names on the way to it, the last one first. -/
abbrev Place (ν : Type*) := List ν

/-- What there is at each place. The root is a directory, and so is what is above anything. -/
structure Tree (ν φ : Type*) where
  node : Place ν → Option (Node φ)
  node_root : node [] = some .dir
  node_parent : ∀ n p, node (n :: p) ≠ none → node p = some .dir

/-- The root is its own parent. -/
def move (p : Place ν) : Component ν → Place ν
  | .here => p
  | .up => p.tail
  | .name n => n :: p

/-- The places from which the path goes on. -/
def passed : Place ν → List (Component ν) → List (Place ν)
  | _, [] => []
  | p, c :: cs => p :: passed (move p c) cs

/-- The place where the path ends. -/
def target (p : Place ν) (cs : List (Component ν)) : Place ν := cs.foldl move p

/-- The places that the path looks at. -/
def visited (p : Place ν) (cs : List (Component ν)) : List (Place ν) := passed p cs ++ [target p cs]

theorem target_append (p : Place ν) (cs cs' : List (Component ν)) :
    target p (cs ++ cs') = target (target p cs) cs' := List.foldl_append

theorem passed_append (p : Place ν) (cs cs' : List (Component ν)) :
    passed p (cs ++ cs') = passed p cs ++ passed (target p cs) cs' := by
  induction cs generalizing p with
  | nil => rfl
  | cons c cs ih => exact congrArg (p :: ·) (ih (move p c))

namespace Tree

variable (t : Tree ν φ) {p q : Place ν} {cs : List (Component ν)}

/-- What the path leads to. -/
def find : Place ν → List (Component ν) → Option (Node φ)
  | p, [] => t.node p
  | p, c :: cs =>
    match t.node p with
    | some .dir => find (move p c) cs
    | _ => none

/-- The file that the path leads to. -/
def content? (p : Place ν) (cs : List (Component ν)) : Option φ :=
  match t.find p cs with
  | some (.file content) => some content
  | _ => none

theorem find_of_dirs (h : ∀ q ∈ passed p cs, t.node q = some .dir) :
    t.find p cs = t.node (target p cs) := by
  induction cs generalizing p with
  | nil => rfl
  | cons c cs ih =>
    rw [passed, List.forall_mem_cons] at h
    rw [find, h.1]
    exact ih h.2

/-- A path is not followed beyond what is no directory. -/
theorem find_of_passed (hq : q ∈ passed p cs) (h : t.node q ≠ some .dir) : t.find p cs = none := by
  induction cs generalizing p with
  | nil => cases hq
  | cons c cs ih =>
    rw [find]
    split
    · next hp =>
      rcases List.mem_cons.mp hq with rfl | hq
      · exact absurd hp h
      · exact ih hq
    · rfl

/-- What is above anything is a directory. -/
theorem node_of_suffix (h : q <:+ p) (hne : q ≠ p) (hp : t.node p ≠ none) :
    t.node q = some .dir := by
  induction p with
  | nil => exact absurd (List.suffix_nil.mp h) hne
  | cons n p ih =>
    have hparent : t.node p = some .dir := t.node_parent n p hp
    rcases List.suffix_cons_iff.mp h with rfl | h
    · exact absurd rfl hne
    · by_cases hqp : q = p
      · rwa [hqp]
      · exact ih h hqp (by simp [hparent])

theorem node_of_suffix_dir (h : q <:+ p) (hp : t.node p = some .dir) : t.node q = some .dir := by
  by_cases hqp : q = p
  · rwa [hqp]
  · exact t.node_of_suffix h hqp (by simp [hp])

/-- The trees have the same directory at the place. -/
structure Shares (root : Place ν) (t t' : Tree ν φ) : Prop where
  dir : t.node root = some .dir
  below : ∀ q, root <:+ q → t.node q = t'.node q

end Tree

/-! ### Near a directory -/

/-- The place is the directory, below it, or on the way to it. -/
def Near (root q : Place ν) : Prop := root <:+ q ∨ q <:+ root

instance [DecidableEq ν] (root q : Place ν) : Decidable (Near root q) :=
  inferInstanceAs (Decidable (_ ∨ _))

/-- Where the path ends, there is a directory if there are directories at `root` and wherever the
path goes on from. -/
def Blocked (root p : Place ν) (cs : List (Component ν)) : Prop :=
  ∃ q ∈ root :: passed p cs, target p cs <:+ q

instance [DecidableEq ν] (root p : Place ν) (cs : List (Component ν)) :
    Decidable (Blocked root p cs) := inferInstanceAs (Decidable (∃ _ ∈ _, _))

variable {t t' : Tree ν φ} {root p q : Place ν} {cs : List (Component ν)}

theorem Tree.Shares.node_eq (h : t.Shares root t') (hq : Near root q) : t.node q = t'.node q := by
  rcases hq with hq | hq
  · exact h.below q hq
  · have hdir' : t'.node root = some .dir := by rw [← h.below root List.suffix_rfl, h.dir]
    rw [t.node_of_suffix_dir hq h.dir, t'.node_of_suffix_dir hq hdir']

theorem find_eq_of_near (h : t.Shares root t') (hnear : ∀ q ∈ visited p cs, Near root q) :
    t.find p cs = t'.find p cs := by
  induction cs generalizing p with
  | nil => exact h.node_eq (hnear p (by simp [visited, passed, target]))
  | cons c cs ih =>
    have hp : Near root p := hnear p (by simp [visited, passed])
    have hrest : ∀ q ∈ visited (move p c) cs, Near root q :=
      fun q hq => hnear q (List.mem_cons_of_mem p hq)
    rw [Tree.find, Tree.find, h.node_eq hp]
    split
    · exact ih hrest
    · rfl

/-- **A path that stays near a shared directory** leads to the same file. -/
theorem content?_eq_of_near (h : t.Shares root t') (hnear : ∀ q ∈ visited p cs, Near root q) :
    t.content? p cs = t'.content? p cs := by
  rw [Tree.content?, Tree.content?, find_eq_of_near h hnear]

/-- A path that is blocked leads to no file. -/
theorem content?_of_blocked (hroot : t.node root = some .dir) (h : Blocked root p cs) :
    t.content? p cs = none := by
  by_cases hdirs : ∀ q ∈ passed p cs, t.node q = some .dir
  · obtain ⟨q, hq, hsuffix⟩ := h
    have hdir : t.node q = some .dir := by
      rcases List.mem_cons.mp hq with rfl | hq
      · exact hroot
      · exact hdirs q hq
    rw [Tree.content?, t.find_of_dirs hdirs, t.node_of_suffix_dir hsuffix hdir]
  · push Not at hdirs
    obtain ⟨q, hq, hdir⟩ := hdirs
    rw [Tree.content?, t.find_of_passed hq hdir]

/-! ### Telling trees apart -/

open Classical in
/-- The tree in which the path leads to a file, and there is nothing that the path does not need. -/
noncomputable def reaching (root p : Place ν) (cs : List (Component ν)) (content : φ)
    (h : ¬ Blocked root p cs) : Tree ν φ where
  node q :=
    if q = target p cs then some (.file content)
    else if ∃ r ∈ root :: visited p cs, q <:+ r then some .dir
    else none
  node_root := by
    have hne : [] ≠ target p cs := by
      intro he
      exact h ⟨root, List.mem_cons_self, he ▸ List.nil_suffix⟩
    rw [if_neg hne, if_pos ⟨root, List.mem_cons_self, List.nil_suffix⟩]
  node_parent := by
    intro n q hq
    -- the place itself is on the way to one that the path needs
    obtain ⟨r, hr, hsuffix⟩ : ∃ r ∈ root :: visited p cs, n :: q <:+ r := by
      by_cases he : n :: q = target p cs
      · exact ⟨target p cs, by simp [visited], he ▸ List.suffix_rfl⟩
      · rw [if_neg he] at hq
        by_contra hnone
        exact hq (if_neg hnone)
    have hqr : q <:+ r := (List.suffix_cons n q).trans hsuffix
    have hne : q ≠ target p cs := by
      rintro rfl
      simp only [visited, ← List.cons_append, List.mem_append, List.mem_singleton] at hr
      rcases hr with hr | rfl
      · exact h ⟨r, hr, hqr⟩
      · exact absurd hsuffix.length_le (by simp)
    rw [if_neg hne, if_pos ⟨r, hr, hqr⟩]

open Classical in
/-- The tree with nothing but the directory at the place. -/
noncomputable def Tree.only (t : Tree ν φ) (root : Place ν) (h : t.node root = some .dir) :
    Tree ν φ where
  node q :=
    if root <:+ q then t.node q
    else if q <:+ root then some .dir
    else none
  node_root := by
    by_cases he : root <:+ []
    · rw [if_pos he, t.node_root]
    · rw [if_neg he, if_pos List.nil_suffix]
  node_parent := by
    intro n q hq
    by_cases hbelow : root <:+ q
    · rw [if_pos (hbelow.trans (List.suffix_cons n q))] at hq
      rw [if_pos hbelow, t.node_parent n q hq]
    · rw [if_neg hbelow]
      apply if_pos
      by_cases he : root <:+ n :: q
      · rcases List.suffix_cons_iff.mp he with rfl | he
        · exact List.suffix_cons n q
        · exact absurd he hbelow
      · rw [if_neg he] at hq
        by_contra habove
        exact hq (if_neg fun hn => habove ((List.suffix_cons n q).trans hn))

theorem Tree.shares_only (h : t.node root = some .dir) : (t.only root h).Shares root t where
  dir := (if_pos List.suffix_rfl).trans h
  below _ hq := if_pos hq

theorem Tree.only_of_not_near (h : t.node root = some .dir) (hq : ¬ Near root q) :
    (t.only root h).node q = none := by
  rw [Near, not_or] at hq
  exact (if_neg hq.1).trans (if_neg hq.2)

section

variable {content : φ} {h : ¬ Blocked root p cs}

theorem reaching_target : (reaching root p cs content h).node (target p cs) =
    some (.file content) := if_pos rfl

theorem reaching_needed (hq : q ∈ root :: passed p cs) :
    (reaching root p cs content h).node q = some .dir := by
  have hne : q ≠ target p cs := by
    rintro rfl
    exact h ⟨_, hq, List.suffix_rfl⟩
  refine (if_neg hne).trans (if_pos ⟨q, ?_, List.suffix_rfl⟩)
  rw [visited, ← List.cons_append]
  exact List.mem_append_left _ hq

end

/-- **A path that looks at another place** leads to a file in one tree, and to none in another with
the same directory. -/
theorem exists_content?_ne (h : ¬ Blocked root p cs) (hq : q ∈ visited p cs) (hfar : ¬ Near root q)
    (content : φ) :
    ∃ t t' : Tree ν φ, t.Shares root t' ∧ t.content? p cs = none ∧
      t'.content? p cs = some content := by
  have hroot : (reaching root p cs content h).node root = some .dir :=
    reaching_needed List.mem_cons_self
  refine ⟨(reaching root p cs content h).only root hroot, reaching root p cs content h,
    Tree.shares_only hroot, ?_, ?_⟩
  · have hnone := Tree.only_of_not_near hroot hfar
    rw [Tree.content?]
    rcases List.mem_append.mp hq with hq | hq
    · rw [Tree.find_of_passed _ hq (by simp [hnone])]
    · rw [List.mem_singleton.mp hq] at hnone
      by_cases hdirs : ∀ q ∈ passed p cs,
          ((reaching root p cs content h).only root hroot).node q = some .dir
      · rw [Tree.find_of_dirs _ hdirs, hnone]
      · push Not at hdirs
        obtain ⟨q', hq', hdir⟩ := hdirs
        rw [Tree.find_of_passed _ hq' hdir]
  · have hdirs : ∀ q ∈ passed p cs, (reaching root p cs content h).node q = some .dir :=
      fun q hq => reaching_needed (List.mem_cons_of_mem root hq)
    rw [Tree.content?, Tree.find_of_dirs _ hdirs, reaching_target]

/-! ### Climbing -/

/-- A path that only goes down passes what is above its end. -/
theorem passed_suffix (h : .up ∉ cs) : (∀ q ∈ passed p cs, q <:+ target p cs) ∧
    p <:+ target p cs := by
  induction cs generalizing p with
  | nil => exact ⟨by simp [passed], List.suffix_rfl⟩
  | cons c cs ih =>
    rw [List.mem_cons, not_or] at h
    obtain ⟨hpassed, htarget⟩ := ih (p := move p c) h.2
    have hmove : p <:+ move p c := by
      cases c with
      | here => exact List.suffix_rfl
      | up => exact absurd rfl h.1
      | name n => exact List.suffix_cons n p
    have hp : p <:+ target p (c :: cs) := hmove.trans htarget
    exact ⟨List.forall_mem_cons.mpr ⟨hp, hpassed⟩, hp⟩

/-- **The names on the way to a place** lead there. -/
theorem Tree.find_names {names : List ν} (h : t.node (names.reverse ++ p) ≠ none) :
    t.find p (names.map .name) = t.node (names.reverse ++ p) := by
  induction names generalizing p with
  | nil => rfl
  | cons n names ih =>
    rw [List.reverse_cons, List.append_assoc, List.singleton_append] at h ⊢
    have habove : p <:+ names.reverse ++ n :: p :=
      (List.suffix_cons n p).trans (List.suffix_append _ _)
    have hne : p ≠ names.reverse ++ n :: p := by
      intro he
      have hlen := congrArg List.length he
      rw [List.length_append, List.length_cons] at hlen
      omega
    rw [List.map_cons, find, t.node_of_suffix habove hne h]
    exact ih h

/-- A path that starts `d` directories deep never climbs above the first of them. -/
def Stays : ℕ → List (Component ν) → Prop
  | _, [] => True
  | d, .here :: cs => Stays d cs
  | 0, .up :: _ => False
  | d + 1, .up :: cs => Stays d cs
  | d, .name _ :: cs => Stays (d + 1) cs

/-- **A path that never climbs above where it starts** looks at no place but those below. -/
theorem near_of_stays {d : ℕ} (h : Stays d cs) (hroot : root <:+ p)
    (hlen : p.length = root.length + d) : ∀ q ∈ visited p cs, root <:+ q := by
  induction cs generalizing p d with
  | nil => simpa [visited, passed, target] using hroot
  | cons c cs ih =>
    have hrest : ∀ q ∈ visited (move p c) cs, root <:+ q := by
      cases c with
      | here => exact ih (by simpa [Stays] using h) hroot hlen
      | up =>
        cases d with
        | zero => exact absurd h (by simp [Stays])
        | succ d =>
          cases p with
          | nil => simp at hlen
          | cons n p =>
            have hlen' : p.length = root.length + d := by
              simpa [← Nat.add_assoc] using hlen
            refine ih (by simpa [Stays] using h) ?_ hlen'
            rcases List.suffix_cons_iff.mp hroot with rfl | hroot
            · simp at hlen
            · exact hroot
      | name n =>
        refine ih (d := d + 1) (by simpa [Stays] using h) ?_ ?_
        · exact hroot.trans (List.suffix_cons n p)
        · simp [move, hlen, Nat.add_assoc]
    intro q hq
    rcases List.mem_cons.mp hq with rfl | hq
    · exact hroot
    · exact hrest q hq

end Paths
