import Mathlib.Data.List.DropRight
import SimpleTcp.Library.Search
import SimpleTcp.Base.Bytes
import SimpleTcp.Base.Error

/-!
# Strings

What the parser uses of `std::string`, `std::string_view`, `<charconv>` and `<regex>`, and the two
functions of `StringHelper.h`. A string is the list of its bytes. A string made from a pointer and
a length is checked: the length may be a difference of positions that has wrapped around. What a
match of `<regex>` takes of the stack is left out; a text of some ten thousand bytes can use it up.

## Main definitions

* `substring`, `stripView`: a subrange, copied or stripped
* `strip`, `split`: the functions of `StringHelper.h`
* `fromChars`, `stoll`: the conversions of numerals
* `matchRangeHeader`, `matchRange`: the regular expressions of the range header
* `trim`: a text without the spaces at both ends

## Main results

* `strip_eq_trim`: what `strip` leaves
* `substring_of_le`, `stripView_of_le`: subranges inside the string
* `fromChars_of_digits`: the numerals that are converted
* `toDecimal_eq_iff`: the numeral of a number
-/

namespace SimpleTcp

open Search

/-! ### Subranges -/

/-- A string is shorter than `2 ^ 63`. -/
abbrev ByteString := { s : Bytes // s.length ≤ maxSize }

/-- `std::string { s.data() + pos, n }`. -/
def substring (s : Bytes) (pos n : Nat) : Except Stop Bytes :=
  if pos + n ≤ s.length then .ok (Vec.slice s pos n)
  else if maxSize < n then .error .lengthError
  else .error .outOfBounds

/-- A C string ends before the first zero byte. -/
def cStr (s : Bytes) : Bytes := s.takeWhile (· ≠ 0)

/-! ### `StringHelper.h` -/

/-- The loop of `strip`, which cuts one space from each end at a time. -/
def stripLoop : Nat → Bytes → Nat → Nat → Nat × Nat
  | 0, _, start_pos, end_pos => (start_pos, end_pos)
  | fuel + 1, str, start_pos, end_pos =>
    if start_pos < end_pos then
      let front := str[start_pos]?
      let back := str[end_pos - 1]?
      if front ≠ some 32 ∧ back ≠ some 32 then (start_pos, end_pos)
      else stripLoop fuel str (if front = some 32 then start_pos + 1 else start_pos)
        (if back = some 32 then end_pos - 1 else end_pos)
    else (start_pos, end_pos)

/-- Every turn of the loop brings the ends closer. -/
def strip (str : Bytes) : Bytes :=
  let (start_pos, end_pos) := stripLoop str.length str 0 str.length
  if start_pos ≥ end_pos then [] else Vec.slice str start_pos (end_pos - start_pos)

/-- `strip({ s.data() + pos, n })`. A length that has wrapped around puts the end of the view before
its front. The loop then cuts spaces off outwards, and the copy is refused its size, unless the loop
has come to the front of the string. -/
def stripView (s : Bytes) (pos n : Nat) : Except Stop Bytes :=
  if pos + n ≤ s.length then .ok (strip (Vec.slice s pos n))
  else if maxSize < n ∧ ∃ c ∈ s.take (pos + n - 2 ^ 64), c ≠ 32 then .error .lengthError
  else .error .outOfBounds

/-- `str.find_first_not_of(token, pos)`. -/
def findFirstNotOf (token str : Bytes) (pos : Nat) : Option Nat :=
  ((str.drop pos).findIdx? (· ∉ token)).map (· + pos)

/-- The loop of `split`. -/
def splitLoop : Nat → Bytes → Bytes → Nat → Nat → List Bytes
  | 0, _, _, _, _ => []
  | fuel + 1, str, token, start_pos, end_pos =>
    Vec.slice str start_pos (end_pos - start_pos) ::
      match findFirstNotOf token str end_pos with
      | none => []
      | some start_pos =>
        match findFrom token str start_pos with
        | none => []
        | some end_pos => splitLoop fuel str token start_pos end_pos

/-- Without a token to split at, the result is the C string at the front; otherwise what follows the
last token is dropped. Every turn of the loop passes a token. -/
def split (str token : Bytes) : List Bytes :=
  match findFirstNotOf token str 0 with
  | none => [cStr str]
  | some start_pos =>
    match findFrom token str start_pos with
    | none => [cStr str]
    | some end_pos => splitLoop str.length str token start_pos end_pos

/-! ### Numerals -/

/-- The characters `0` to `9`. -/
def isDigit (c : UInt8) : Bool := 48 ≤ c && c ≤ 57

/-- The value of a string of digits. -/
def digitsValue (s : Bytes) : Nat := s.foldl (fun v c => v * 10 + (c.toNat - 48)) 0

/-- `std::from_chars` to an `int64_t` that holds `old`: there is no result without digits, and a
numeral out of range leaves the old value. -/
def fromChars (s : Bytes) (old : Int) : Option Int :=
  let negative := s.head? = some 45
  let digits := (if negative then s.tail else s).takeWhile isDigit
  if digits = [] then none
  else
    let value : Int := if negative then -digitsValue digits else digitsValue digits
    if -2 ^ 63 ≤ value ∧ value < 2 ^ 63 then some value else some old

/-- The numeral of a number. -/
def decimal (n : Nat) : Bytes := (Nat.toDigits 10 n).map fun c => c.toNat.toUInt8

/-- `std::to_string`. -/
def toDecimal (n : Int) : Bytes := if n < 0 then 45 :: decimal n.natAbs else decimal n.natAbs

/-- `std::stoll`, on digits. -/
def stoll (digits : Bytes) : Except Stop Int :=
  if digitsValue digits < 2 ^ 63 then .ok (digitsValue digits) else .error .outOfRange

/-! ### Regular expressions -/

/-- The characters of `\s`. -/
def isSpace (c : UInt8) : Bool := c = 32 || (9 ≤ c && c ≤ 13)

/-- The group of `bytes=(.*)`, matched with a whole C string. The dot is no line end. -/
def matchRangeHeader (s : Bytes) : Option Bytes :=
  match (ascii "bytes=").isPrefixOf? (cStr s) with
  | some range_str => if 10 ∈ range_str ∨ 13 ∈ range_str then none else some range_str
  | none => none

/-- The groups of `\s*(\d*)-(\d*)`, matched with a whole C string. -/
def matchRange (s : Bytes) : Option (Bytes × Bytes) :=
  let s := (cStr s).dropWhile isSpace
  match s.dropWhile isDigit with
  | 45 :: last => if last.all isDigit then some (s.takeWhile isDigit, last) else none
  | _ => none

/-! ### Lemmas -/

/-- A letter in lower case. -/
def toLower (c : UInt8) : UInt8 := if 65 ≤ c ∧ c ≤ 90 then c + 32 else c

/-- Without the spaces at both ends. -/
def trim (s : Bytes) : Bytes := (s.dropWhile (· = 32)).rdropWhile (· = 32)

theorem cStr_of_not_mem {s : Bytes} (h : 0 ∉ s) : cStr s = s := by
  refine List.takeWhile_eq_self_iff.mpr fun c hc => ?_
  simpa using ne_of_mem_of_not_mem hc h

theorem trim_cons_space (s : Bytes) : trim (32 :: s) = trim s := by
  simp [trim]

theorem trim_concat_space (s : Bytes) : trim (s ++ [32]) = trim s := by
  unfold trim
  rw [List.dropWhile_append]
  split
  · next h => simp [List.isEmpty_iff.mp h]
  · exact List.rdropWhile_concat_pos _ _ _ (by decide)

/-- Without a space at either end there is nothing to cut. -/
theorem trim_of_ends {s : Bytes} (hfront : s.head? ≠ some 32) (hback : s.getLast? ≠ some 32) :
    trim s = s := by
  have hdrop : s.dropWhile (· = 32) = s := by
    cases s with
    | nil => rfl
    | cons c s =>
      have hc : c ≠ 32 := by simpa using hfront
      exact List.dropWhile_cons_of_neg (by simp [hc])
  rw [trim, hdrop]
  rcases List.eq_nil_or_concat' s with rfl | ⟨s, c, rfl⟩
  · rfl
  · have hc : c ≠ 32 := by simpa using hback
    exact List.rdropWhile_concat_neg _ _ _ (by simp [hc])

/-- Only spaces are cut. -/
theorem mem_trim {s : Bytes} {c : UInt8} (h : c ∈ s) (hc : c ≠ 32) : c ∈ trim s := by
  have hdrop : ∀ {t : Bytes}, c ∈ t → c ∈ t.dropWhile (· = 32) := by
    intro t ht
    rw [← List.takeWhile_append_dropWhile (p := fun c : UInt8 => c = 32) (l := t)] at ht
    refine (List.mem_append.mp ht).resolve_left fun hmem => ?_
    simpa [hc] using List.mem_takeWhile_imp hmem
  rw [trim, List.rdropWhile, List.mem_reverse]
  exact hdrop (List.mem_reverse.mpr (hdrop h))

theorem slice_succ_left {s : Bytes} {pos n : Nat} (h : pos < s.length) :
    Vec.slice s pos (n + 1) = s[pos] :: Vec.slice s (pos + 1) n := by
  rw [Vec.slice, List.drop_eq_getElem_cons h, List.take_succ_cons, Vec.slice]

theorem slice_succ_right {s : Bytes} {pos n : Nat} (h : pos + n < s.length) :
    Vec.slice s pos (n + 1) = Vec.slice s pos n ++ [s[pos + n]] := by
  rw [Vec.slice, List.take_add_one, List.getElem?_drop, List.getElem?_eq_getElem h, Vec.slice]
  rfl

/-- Both loops cut the same spaces: the ends keep what is left of the trimmed view. -/
theorem stripLoop_spec (str : Bytes) (fuel start_pos end_pos : Nat)
    (hfuel : end_pos - start_pos ≤ fuel) (hend : end_pos ≤ str.length) :
    let r := stripLoop fuel str start_pos end_pos
    Vec.slice str r.1 (r.2 - r.1) = trim (Vec.slice str start_pos (end_pos - start_pos)) := by
  induction fuel generalizing start_pos end_pos with
  | zero =>
    obtain hzero : end_pos - start_pos = 0 := by omega
    simp [stripLoop, hzero, Vec.slice, trim]
  | succ fuel ih =>
    rw [stripLoop]
    by_cases hlt : start_pos < end_pos
    · obtain ⟨n, hn⟩ : ∃ n, end_pos - start_pos = n + 1 := ⟨end_pos - start_pos - 1, by omega⟩
      have hstart : start_pos < str.length := by omega
      have hlast : start_pos + n < str.length := by omega
      have hback : str[end_pos - 1]? = some str[start_pos + n] := by
        rw [show end_pos - 1 = start_pos + n by omega, List.getElem?_eq_getElem hlast]
      have hleft := slice_succ_left (n := n) hstart
      have hright := slice_succ_right hlast
      rw [if_pos hlt, hn]
      simp only [List.getElem?_eq_getElem hstart, hback, ne_eq, Option.some.injEq]
      by_cases hf : str[start_pos] = 32 <;> by_cases hb : str[start_pos + n] = 32
      · -- both ends are cut in one turn; of a view of one space the two cuts cross
        simp only [hf, hb, not_true, and_self, if_false, if_true]
        rw [ih (start_pos + 1) (end_pos - 1) (by omega) (by omega), hleft, hf, trim_cons_space]
        cases n with
        | zero => rw [show end_pos - 1 - (start_pos + 1) = 0 by omega]
        | succ k =>
          have hk : start_pos + 1 + k < str.length := by omega
          have hb' : str[start_pos + 1 + k] = 32 := by
            rw [← hb]
            congr 1
            omega
          rw [slice_succ_right hk, hb', trim_concat_space]
          congr 2
          omega
      · simp only [hf, hb, not_true, false_and, if_false, if_true]
        rw [ih (start_pos + 1) end_pos (by omega) (by omega), hleft, hf, trim_cons_space]
        congr 2
        omega
      · simp only [hf, hb, not_true, and_false, if_false, if_true]
        rw [ih start_pos (end_pos - 1) (by omega) (by omega), hright, hb, trim_concat_space]
        congr 2
        omega
      · simp only [hf, hb, not_false_eq_true, and_self, if_true]
        rw [hn, trim_of_ends]
        · rw [hleft]
          simpa using hf
        · rw [hright]
          simpa using hb
    · rw [if_neg hlt]
      obtain hzero : end_pos - start_pos = 0 := by omega
      simp [hzero, Vec.slice, trim]

/-- **`strip`** cuts the spaces at both ends. -/
theorem strip_eq_trim (str : Bytes) : strip str = trim str := by
  have hspec := stripLoop_spec str str.length 0 str.length (by omega) le_rfl
  have hwhole : Vec.slice str 0 (str.length - 0) = str := by simp [Vec.slice]
  rw [hwhole] at hspec
  rw [strip, ← hspec]
  dsimp only
  split
  · next hge =>
    rw [Nat.sub_eq_zero_of_le hge, Vec.slice_zero_right]
  · rfl

theorem substring_of_le {s : Bytes} {pos n : Nat} (h : pos + n ≤ s.length) :
    substring s pos n = .ok (Vec.slice s pos n) := if_pos h

theorem stripView_of_le {s : Bytes} {pos n : Nat} (h : pos + n ≤ s.length) :
    stripView s pos n = .ok (strip (Vec.slice s pos n)) := if_pos h

/-- A difference that has wrapped around is longer than any string. -/
theorem maxSize_lt_sizeSub {a b : Nat} (h : a < b) (hb : b ≤ maxSize) :
    maxSize < sizeSub a b := by
  rw [sizeSub_of_lt h hb]
  unfold maxSize at *
  omega

theorem substring_sizeSub_of_lt {s : Bytes} {a b : Nat} (h : a < b) (hb : b ≤ s.length)
    (hs : s.length ≤ maxSize) : substring s b (sizeSub a b) = .error .lengthError := by
  have hlong := maxSize_lt_sizeSub h (hb.trans hs)
  rw [substring, if_neg (by omega), if_pos hlong]

theorem stripView_sizeSub_of_lt {s : Bytes} {a b : Nat} (h : a < b) (hb : b ≤ s.length)
    (hs : s.length ≤ maxSize) : ∃ e, stripView s b (sizeSub a b) = .error e := by
  have hlong := maxSize_lt_sizeSub h (hb.trans hs)
  rw [stripView, if_neg (by omega)]
  split
  · exact ⟨_, rfl⟩
  · exact ⟨_, rfl⟩

/-- A numeral that fits is converted. -/
theorem fromChars_of_digits {s : Bytes} (hne : s ≠ []) (hdigits : ∀ c ∈ s, isDigit c)
    (hlt : digitsValue s < 2 ^ 63) (old : Int) : fromChars s old = some (digitsValue s : Int) := by
  have hhead : s.head? ≠ some 45 := by
    intro h
    have hminus := hdigits 45 (List.mem_of_mem_head? h)
    exact absurd hminus (by decide)
  have htake : s.takeWhile isDigit = s := List.takeWhile_eq_self_iff.mpr hdigits
  unfold fromChars
  simp only [hhead, if_false, htake, hne]
  exact if_pos (by omega)

/-! ### Numerals of numbers -/

theorem decimal_digit : ∀ n < 10, decimal n = [48 + n.toUInt8] ∧
    isDigit (48 + n.toUInt8) ∧ digitsValue [48 + n.toUInt8] = n := by
  decide

theorem decimal_of_le {n : Nat} (h : 10 ≤ n) :
    decimal n = decimal (n / 10) ++ decimal (n % 10) := by
  rw [decimal, Nat.toDigits_of_base_le (by decide) h, List.map_append,
    ← Nat.toDigits_of_lt_base (Nat.mod_lt n (by decide))]
  rfl

theorem isDigit_decimal (n : Nat) : ∀ c ∈ decimal n, isDigit c := by
  induction n using Nat.strong_induction_on with
  | _ n ih =>
    rcases Nat.lt_or_ge n 10 with hlt | hge
    · obtain ⟨heq, hdigit, -⟩ := decimal_digit n hlt
      rw [heq, List.forall_mem_singleton]
      exact hdigit
    · rw [decimal_of_le hge, List.forall_mem_append]
      exact ⟨ih _ (by omega), ih _ (by omega)⟩

/-- **A numeral has the value of its number.** -/
theorem digitsValue_decimal (n : Nat) : digitsValue (decimal n) = n := by
  induction n using Nat.strong_induction_on with
  | _ n ih =>
    rcases Nat.lt_or_ge n 10 with hlt | hge
    · obtain ⟨heq, -, hvalue⟩ := decimal_digit n hlt
      rw [heq, hvalue]
    · obtain ⟨hlast, -, hdigit⟩ := decimal_digit (n % 10) (Nat.mod_lt n (by decide))
      have hfront : digitsValue (decimal (n / 10)) = n / 10 := ih _ (by omega)
      rw [decimal_of_le hge, digitsValue, List.foldl_append, ← digitsValue, hfront, hlast]
      simp only [digitsValue, List.foldl_cons, List.foldl_nil, Nat.zero_mul, Nat.zero_add]
        at hdigit ⊢
      rw [hdigit]
      omega

/-- The sign tells a negative number from the others. -/
theorem toDecimal_eq_iff {n : Int} {m : Nat} : toDecimal n = decimal m ↔ n = m := by
  constructor
  · intro h
    rw [toDecimal] at h
    split at h
    · have hminus := isDigit_decimal m 45 (h ▸ List.mem_cons_self)
      exact absurd hminus (by decide)
    · have hvalue := congrArg digitsValue h
      rw [digitsValue_decimal, digitsValue_decimal] at hvalue
      omega
  · rintro rfl
    rw [toDecimal, if_neg (by omega), Int.natAbs_natCast]

/-- The characters of the numerals. -/
theorem mem_toDecimal {n : Int} {c : UInt8} (h : c ∈ toDecimal n) : c = 45 ∨ isDigit c := by
  rw [toDecimal] at h
  split at h
  · exact (List.mem_cons.mp h).imp_right (isDigit_decimal _ c)
  · exact .inr (isDigit_decimal _ c h)

end SimpleTcp
