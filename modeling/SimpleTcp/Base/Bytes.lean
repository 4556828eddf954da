import Mathlib.Algebra.Group.Int.Defs
import Mathlib.Algebra.Group.Nat.Defs
import Mathlib.Data.List.Infix

/-!
# Bytes, sizes and vectors

`std::vector<uint8_t>` is the list of its elements. A `size_type` is a natural number below
`2 ^ 64`, and subtraction and multiplication of sizes wrap around as the unsigned type does.

## Main definitions

* `sizeSub`, `sizeMul`: the arithmetic of `size_type`
* `Vec.resize`, `Vec.copyInto`, `Vec.slice`: `resize`, `memcpy` into, and a subrange

## Main results

* `sizeSub_of_le`, `sizeSub_of_lt`: a difference of sizes, and the wrapped one
* `Vec.slice_copyInto_append`: copying behind a subrange extends it
* `Vec.slice_copyInto_zero`: copying a subrange to the front keeps its content
-/

namespace SimpleTcp

abbrev Bytes := List UInt8

/-- The bytes of an ASCII text. -/
def ascii (s : String) : Bytes := s.toList.map fun c => c.toNat.toUInt8

/-! ## The arithmetic of `size_type` -/

/-- The largest size a container of bytes may have. -/
def maxSize : Nat := 2 ^ 63 - 1

/-- `a - b` on `size_type`. -/
def sizeSub (a b : Nat) : Nat := (2 ^ 64 + a - b) % 2 ^ 64

/-- `a * b` on `size_type`. -/
def sizeMul (a b : Nat) : Nat := a * b % 2 ^ 64

theorem sizeSub_of_le {a b : Nat} (h : b ≤ a) (ha : a ≤ maxSize) : sizeSub a b = a - b := by
  unfold sizeSub maxSize at *
  omega

theorem sizeSub_of_lt {a b : Nat} (h : a < b) (hb : b ≤ maxSize) :
    sizeSub a b = 2 ^ 64 - (b - a) := by
  unfold sizeSub maxSize at *
  omega

theorem sizeMul_of_le {a b : Nat} (h : a * b ≤ maxSize) : sizeMul a b = a * b := by
  unfold sizeMul maxSize at *
  omega

theorem drop_length_take (data : Bytes) (n : Nat) :
    data.drop (data.take n).length = data.drop n := by
  rw [List.length_take]
  rcases Nat.le_total n data.length with h | h
  · rw [Nat.min_eq_left h]
  · rw [Nat.min_eq_right h, List.drop_length, List.drop_eq_nil_of_le h]

/-! ## Vectors -/

namespace Vec

/-- `resize(n)`: cut to `n` elements, or fill with zeros. -/
def resize (v : Bytes) (n : Nat) : Bytes := v.take n ++ List.replicate (n - v.length) 0

/-- `memcpy(v.data() + pos, data.data(), data.size())`, inside the vector. -/
def copyInto (v : Bytes) (pos : Nat) (data : Bytes) : Bytes :=
  v.take pos ++ data ++ v.drop (pos + data.length)

/-- The `n` elements from `pos` on. -/
def slice (v : Bytes) (pos n : Nat) : Bytes := (v.drop pos).take n

@[simp] theorem length_resize (v : Bytes) (n : Nat) : (resize v n).length = n := by
  simp [resize]
  omega

theorem resize_resize (v : Bytes) (n : Nat) : resize (resize v n) n = resize v n := by
  conv_lhs => rw [resize]
  simp only [length_resize, Nat.sub_self, List.replicate_zero, List.append_nil]
  exact List.take_of_length_le (length_resize v n).le

theorem length_copyInto {v : Bytes} {pos : Nat} {data : Bytes}
    (h : pos + data.length ≤ v.length) : (copyInto v pos data).length = v.length := by
  simp [copyInto]
  omega

theorem length_slice {v : Bytes} {pos n : Nat} (h : pos + n ≤ v.length) :
    (slice v pos n).length = n := by
  simp [slice]
  omega

theorem slice_resize {v : Bytes} {pos n m : Nat} (hv : pos + n ≤ v.length) (hm : pos + n ≤ m) :
    slice (resize v m) pos n = slice v pos n := by
  unfold slice resize
  rw [List.drop_append_of_le_length (by simp; omega),
    List.take_append_of_le_length (by simp; omega), List.drop_take, List.take_take]
  congr 1
  omega

theorem slice_copyInto_append {v : Bytes} {pos n : Nat} {data : Bytes}
    (h : pos + n + data.length ≤ v.length) :
    slice (copyInto v (pos + n) data) pos (n + data.length) = slice v pos n ++ data := by
  unfold slice copyInto
  have hlen : (v.take (pos + n)).length = pos + n := by simp; omega
  rw [List.append_assoc, List.drop_append_of_le_length (by omega), List.take_append,
    List.take_of_length_le (by simp; omega), List.drop_take]
  congr 1
  · congr 1
    omega
  · have hn : n + data.length - (List.take (pos + n - pos) (v.drop pos)).length =
        data.length := by
      simp
      omega
    rw [hn, List.take_left]

theorem slice_copyInto_zero {v : Bytes} {data : Bytes} (h : data.length ≤ v.length) :
    slice (copyInto v 0 data) 0 data.length = data := by
  have hzero : 0 + 0 + data.length ≤ v.length := by simpa using h
  simpa [slice] using slice_copyInto_append hzero

theorem slice_add (v : Bytes) (pos n k : Nat) :
    slice v (pos + k) (n - k) = (slice v pos n).drop k := by
  unfold slice
  rw [List.drop_take, List.drop_drop]

theorem slice_zero_right (v : Bytes) (pos : Nat) : slice v pos 0 = [] := by
  simp [slice]

end Vec

end SimpleTcp
