import Mathlib.Data.List.Infix

/-!
# Frames on a stream

Messages are written one behind the other, each as a frame whose end its beginning tells, and
arrive in pieces that need not end where a frame ends. A reader keeps what has arrived and looks
at it once for each piece: if a whole frame is there it takes one, and otherwise it waits. So it
takes the messages in order and whole, however the stream is cut; but when a piece completes more
than one frame it falls behind.

## Main definitions

* `Code`: messages, their frames, and how a reader finds the first frame
* `Reader.arrive`: what a reader does with a piece
* `Code.whole`: the number of whole frames in the first elements of a stream

## Main results

* `Reads.arrive`: a piece keeps the reader in step with the stream
* `reads_run`: the messages taken are the first of those written
* `length_taken_concat`: a piece lets a reader take one message, if one is there
* `length_taken_le`, `exists_length_taken_eq`: the number taken is the least, over the cuts of the
  pieces, of the frames whole at the cut and the pieces behind it
-/

namespace Frames

/-- A code of messages by frames. -/
structure Code (α β : Type) where
  encode : α → List β
  /-- The first message, and what is behind its frame. -/
  decode : List β → Option (α × List β)
  encode_ne_nil : ∀ a, encode a ≠ []
  decode_encode : ∀ a rest, decode (encode a ++ rest) = some (a, rest)
  /-- The beginning of a frame is not a frame. -/
  decode_short : ∀ a bs, bs <+: encode a → bs ≠ encode a → decode bs = none

variable {α β : Type}

/-- What a reader has: the elements that wait, and the messages it has taken. -/
structure Reader (α β : Type) where
  waiting : List β
  taken : List α

namespace Code

variable (code : Code α β)

/-- The stream of the messages. -/
def stream (as : List α) : List β := as.flatMap code.encode

@[simp] theorem stream_nil : code.stream [] = [] := rfl

@[simp] theorem stream_cons (a : α) (as : List α) :
    code.stream (a :: as) = code.encode a ++ code.stream as := List.flatMap_cons

@[simp] theorem stream_append (as bs : List α) :
    code.stream (as ++ bs) = code.stream as ++ code.stream bs := List.flatMap_append

/-- How many frames are whole in the first `n` elements of the stream. -/
def whole : List α → ℕ → ℕ
  | [], _ => 0
  | a :: as, n =>
    if (code.encode a).length ≤ n then whole as (n - (code.encode a).length) + 1 else 0

theorem whole_zero (as : List α) : code.whole as 0 = 0 := by
  cases as with
  | nil => rfl
  | cons a as =>
    have hpos := List.length_pos_iff.mpr (code.encode_ne_nil a)
    exact if_neg (by omega)

/-- The frames of the messages in front are whole, and the others are counted behind them. -/
theorem whole_append (as bs : List α) (n : ℕ) :
    code.whole (as ++ bs) ((code.stream as).length + n) = as.length + code.whole bs n := by
  induction as with
  | nil => simp
  | cons a as ih =>
    rw [List.cons_append, whole, stream_cons, List.length_append, if_pos (by omega),
      show (code.encode a).length + (code.stream as).length + n - (code.encode a).length =
        (code.stream as).length + n by omega, ih, List.length_cons]
    omega

/-- A reader that finds no frame at the front of a stream has no whole one, and waits. -/
theorem decode_prefix {as : List α} {waiting : List β} (h : waiting <+: code.stream as) :
    (code.decode waiting = none ∧ code.whole as waiting.length = 0) ∨
      ∃ a as' rest, as = a :: as' ∧ waiting = code.encode a ++ rest ∧
        rest <+: code.stream as' ∧ code.decode waiting = some (a, rest) := by
  cases as with
  | nil =>
    left
    obtain rfl : waiting = [] := List.prefix_nil.mp h
    refine ⟨?_, rfl⟩
    cases hd : code.decode [] with
    | none => rfl
    | some found =>
      -- a message would have the empty beginning of its frame read as a frame
      have hshort := code.decode_short found.1 [] List.nil_prefix (code.encode_ne_nil _).symm
      rw [hshort] at hd
      cases hd
  | cons a as =>
    rw [stream_cons] at h
    by_cases hlen : (code.encode a).length ≤ waiting.length
    · right
      obtain ⟨rest, rfl⟩ := List.prefix_of_prefix_length_le (List.prefix_append _ _) h hlen
      exact ⟨a, as, rest, rfl, rfl, (List.prefix_append_right_inj _).mp h,
        code.decode_encode a rest⟩
    · left
      have hpre : waiting <+: code.encode a :=
        List.prefix_of_prefix_length_le h (List.prefix_append _ _) (by omega)
      refine ⟨code.decode_short a waiting hpre fun heq => ?_, if_neg hlen⟩
      rw [heq] at hlen
      exact hlen (Nat.le_refl _)

end Code

namespace Reader

variable (code : Code α β)

def empty : Reader α β := ⟨[], []⟩

/-- A piece arrives, and the reader looks once. -/
def arrive (r : Reader α β) (piece : List β) : Reader α β :=
  match code.decode (r.waiting ++ piece) with
  | some (a, rest) => ⟨rest, r.taken ++ [a]⟩
  | none => ⟨r.waiting ++ piece, r.taken⟩

/-- The pieces, one after the other. -/
def run (pieces : List (List β)) : Reader α β := pieces.foldl (arrive code) empty

@[simp] theorem run_nil : run code [] = empty := rfl

@[simp] theorem run_concat (pieces : List (List β)) (piece : List β) :
    run code (pieces ++ [piece]) = (run code pieces).arrive code piece := by
  simp [run]

end Reader

section Reads

variable (code : Code α β)

/-- The reader has taken the first messages, and what waits is the rest of what has arrived. -/
structure Reads (as : List α) (r : Reader α β) (arrived : List β) : Prop where
  taken : r.taken <+: as
  all_eq : code.stream r.taken ++ r.waiting = arrived

variable {code} {as : List α} {r : Reader α β} {arrived piece : List β}

theorem Reads.empty : Reads code as Reader.empty [] := ⟨List.nil_prefix, rfl⟩

/-- **A piece**: the reader takes the next message if its frame is whole, and otherwise has taken
all whose frames are. -/
theorem Reads.arrive (h : Reads code as r arrived) (hpre : arrived ++ piece <+: code.stream as) :
    Reads code as (r.arrive code piece) (arrived ++ piece) ∧
      (r.arrive code piece).taken.length =
        min (r.taken.length + 1) (code.whole as (arrived ++ piece).length) := by
  obtain ⟨later, rfl⟩ := h.taken
  have hall : arrived ++ piece = code.stream r.taken ++ (r.waiting ++ piece) := by
    rw [← h.all_eq, List.append_assoc]
  rw [hall, Code.stream_append, List.prefix_append_right_inj] at hpre
  have hwhole : code.whole (r.taken ++ later) (arrived ++ piece).length =
      r.taken.length + code.whole later (r.waiting ++ piece).length := by
    rw [hall, List.length_append, code.whole_append]
  rw [hwhole]
  unfold Reader.arrive
  rcases code.decode_prefix hpre with ⟨hnone, hzero⟩ | ⟨a, later', rest, rfl, hrest, -, hsome⟩
  · rw [hnone, hzero]
    refine ⟨⟨List.prefix_append _ _, hall.symm⟩, ?_⟩
    show r.taken.length = min (r.taken.length + 1) (r.taken.length + 0)
    omega
  · rw [hsome]
    refine ⟨⟨?_, ?_⟩, ?_⟩
    · show r.taken ++ [a] <+: r.taken ++ a :: later'
      rw [List.prefix_append_right_inj]
      exact ⟨later', rfl⟩
    · show code.stream (r.taken ++ [a]) ++ rest = arrived ++ piece
      rw [hall, hrest, Code.stream_append, List.append_assoc]
      simp
    · have hpos : 0 < code.whole (a :: later') (r.waiting ++ piece).length := by
        rw [hrest, Code.whole, if_pos (by simp)]
        omega
      show (r.taken ++ [a]).length = _
      rw [List.length_append, List.length_singleton]
      omega

end Reads

section Runs

variable (code : Code α β) {as : List α} {pieces : List (List β)}

/-- **The pieces of a stream**, however it is cut. -/
theorem reads_run (h : pieces.flatten <+: code.stream as) :
    Reads code as (Reader.run code pieces) pieces.flatten := by
  induction pieces using List.reverseRecOn with
  | nil => exact Reads.empty
  | append_singleton pieces piece ih =>
    rw [List.flatten_append, List.flatten_singleton] at h ⊢
    rw [Reader.run_concat]
    exact ((ih ((List.prefix_append _ _).trans h)).arrive h).1

/-- **One message for each piece**, at most. -/
theorem length_taken_concat {piece : List β}
    (h : (pieces ++ [piece]).flatten <+: code.stream as) :
    (Reader.run code (pieces ++ [piece])).taken.length =
      min ((Reader.run code pieces).taken.length + 1)
        (code.whole as (pieces ++ [piece]).flatten.length) := by
  rw [List.flatten_append, List.flatten_singleton] at h ⊢
  rw [Reader.run_concat]
  exact ((reads_run code ((List.prefix_append _ _).trans h)).arrive h).2

/-- No more messages are taken than are whole at a cut, and than there are pieces behind it. -/
theorem length_taken_le {before after : List (List β)}
    (h : (before ++ after).flatten <+: code.stream as) :
    (Reader.run code (before ++ after)).taken.length ≤
      code.whole as before.flatten.length + after.length := by
  induction after using List.reverseRecOn with
  | nil =>
    rw [List.append_nil] at h ⊢
    obtain ⟨later, rfl⟩ := (reads_run code h).taken
    have hall := (reads_run code h).all_eq
    rw [← hall, List.length_append, code.whole_append]
    omega
  | append_singleton after piece ih =>
    rw [← List.append_assoc] at h ⊢
    have hwhole : (before ++ after ++ [piece]).flatten =
        (before ++ after).flatten ++ [piece].flatten := List.flatten_append
    have hshort : (before ++ after).flatten <+: code.stream as := by
      refine List.IsPrefix.trans ?_ h
      rw [hwhole]
      exact List.prefix_append _ _
    have hle := ih hshort
    rw [length_taken_concat code h, List.length_append, List.length_singleton]
    omega

/-- The bound is met at some cut. -/
theorem exists_length_taken_eq (h : pieces.flatten <+: code.stream as) :
    ∃ before after, pieces = before ++ after ∧
      (Reader.run code pieces).taken.length =
        code.whole as before.flatten.length + after.length := by
  induction pieces using List.reverseRecOn with
  | nil => exact ⟨[], [], rfl, by simp [Reader.empty, code.whole_zero]⟩
  | append_singleton pieces piece ih =>
    have hconcat := length_taken_concat code h
    have hshort : pieces.flatten <+: code.stream as := by
      rw [List.flatten_append] at h
      exact (List.prefix_append _ _).trans h
    obtain ⟨before, after, hcut, hlen⟩ := ih hshort
    by_cases hle : code.whole as (pieces ++ [piece]).flatten.length ≤
        (Reader.run code pieces).taken.length + 1
    · -- every whole frame is taken
      refine ⟨pieces ++ [piece], [], (List.append_nil _).symm, ?_⟩
      rw [hconcat, List.length_nil]
      omega
    · -- the reader has fallen further behind
      refine ⟨before, after ++ [piece], by rw [hcut, List.append_assoc], ?_⟩
      rw [hconcat, List.length_append, List.length_singleton]
      omega

end Runs

end Frames
