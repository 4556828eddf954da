import Mathlib.Data.List.Find
import Mathlib.Data.Set.Basic
import SimpleTcp.Http.Response
import SimpleTcp.Http.StringView

/-!
# Properties

The properties of a response are kept in a map from strings to strings, and the views that
`setProperty` and `getProperty` are given reach it as C strings: a view of part of a text is read on
to the end of the text, and one with a zero byte in it is cut there.

## Main definitions

* `HttpResponse.setPropertyView`, `HttpResponse.getProperty`: the calls, with views
* `lastValue`: the value of the last call for a key
* `IsMap`: with the keys and values of two sets, the calls make up a map

## Main results

* `getAfter_eq`: what is found, in terms of C strings
* `isMap_iff`: the sets of views with which the calls make up a map
-/

namespace SimpleTcp

/-! ### Calls -/

namespace HttpResponse

/-- `HttpResponse::setProperty`. -/
def setPropertyView (r : HttpResponse) (key value : StringView) : Except Stop HttpResponse := do
  let key ← key.data
  let value ← value.data
  .ok { r with mHeaders := assignHeader r.mHeaders key value }

/-- `HttpResponse::getProperty`. -/
def getProperty (r : HttpResponse) (key : StringView) : Except Stop (Option Bytes) := do
  let key ← key.data
  .ok (r.mHeaders.lookup key)

/-- Views of whole strings set the property that the texts do. -/
theorem setPropertyView_terminated (r : HttpResponse) (key value s t : Bytes) :
    r.setPropertyView ⟨key, 0 :: s⟩ ⟨value, 0 :: t⟩ = .ok (r.setProperty key value) := by
  rw [setPropertyView, StringView.data_terminated, StringView.data_terminated]
  rfl

end HttpResponse

/-- What `getProperty` returns after the calls on a new response. -/
def getAfter (calls : List (StringView × StringView)) (k : StringView) :
    Except Stop (Option Bytes) := do
  let r ← calls.foldlM (fun r call => r.setPropertyView call.1 call.2) HttpResponse.create
  r.getProperty k

/-- The bytes of the value of the last call whose key has the bytes of `k`. -/
def lastValue (calls : List (StringView × StringView)) (k : StringView) : Option Bytes :=
  (calls.reverse.find? (·.1.str = k.str)).map (·.2.str)

/-- Whatever is called with keys and values of the sets, a key has the value it was given last. -/
def IsMap (keys values : Set StringView) : Prop :=
  ∀ calls : List (StringView × StringView), (∀ call ∈ calls, call.1 ∈ keys ∧ call.2 ∈ values) →
    ∀ k ∈ keys, getAfter calls k = .ok (lastValue calls k)

/-! ### What is found -/

namespace StringView

/-- There is a zero byte in the view or behind it. -/
def Terminated (v : StringView) : Prop := 0 ∈ v.str ++ v.behind

/-- The bytes up to it. -/
def cstr (v : StringView) : Bytes := cStr (v.str ++ v.behind)

theorem data_of_terminated {v : StringView} (h : v.Terminated) : v.data = .ok v.cstr := if_pos h

theorem data_eq_ok_iff {v : StringView} {s : Bytes} :
    v.data = .ok s ↔ v.Terminated ∧ v.cstr = s := by
  unfold data
  split
  · next h => exact ⟨fun heq => ⟨h, Except.ok.inj heq⟩, fun heq => congrArg _ heq.2⟩
  · next h => exact iff_of_false (fun heq => by cases heq) fun heq => h heq.1

end StringView

section

variable {calls : List (StringView × StringView)} {k : StringView}

/-- Every view of the calls is terminated. -/
def AllTerminated (calls : List (StringView × StringView)) : Prop :=
  ∀ call ∈ calls, call.1.Terminated ∧ call.2.Terminated

/-- The response after the calls has the C string of the value of the last call for a C string. -/
theorem foldlM_setProperty (h : AllTerminated calls) (r : HttpResponse) :
    ∃ r', calls.foldlM (fun r call => r.setPropertyView call.1 call.2) r = .ok r' ∧
      ∀ key, r'.mHeaders.lookup key =
        ((calls.reverse.find? (·.1.cstr = key)).map (·.2.cstr)).or (r.mHeaders.lookup key) := by
  induction calls generalizing r with
  | nil => exact ⟨r, rfl, fun key => rfl⟩
  | cons call calls ih =>
    obtain ⟨⟨hkey, hvalue⟩, hcalls⟩ := List.forall_mem_cons.mp h
    let r₁ : HttpResponse :=
      { r with mHeaders := assignHeader r.mHeaders call.1.cstr call.2.cstr }
    have hset : r.setPropertyView call.1 call.2 = .ok r₁ := by
      rw [HttpResponse.setPropertyView, StringView.data_of_terminated hkey,
        StringView.data_of_terminated hvalue]
      rfl
    obtain ⟨r', hrun, hlookup⟩ := ih hcalls r₁
    refine ⟨r', ?_, fun key => ?_⟩
    · rw [List.foldlM_cons, hset]
      exact hrun
    · -- a later call hides this one
      rw [hlookup key, lookup_assignHeader, List.reverse_cons, List.find?_append]
      cases calls.reverse.find? (·.1.cstr = key) with
      | some call' => rfl
      | none =>
        by_cases hk : key = call.1.cstr
        · simp [hk]
        · simp [hk, Ne.symm hk]

/-- **What is found** is the C string of the value of the last call whose key has the same C
string. -/
theorem getAfter_eq (h : AllTerminated calls) (hk : k.Terminated) :
    getAfter calls k = .ok ((calls.reverse.find? (·.1.cstr = k.cstr)).map (·.2.cstr)) := by
  obtain ⟨r, hrun, hlookup⟩ := foldlM_setProperty h HttpResponse.create
  rw [getAfter, hrun, ok_bind, HttpResponse.getProperty, StringView.data_of_terminated hk, ok_bind,
    hlookup, HttpResponse.create, List.lookup_nil, Option.or_none]

/-! ### Maps -/

/-- **The calls make up a map** exactly when all keys are terminated, and those with the same C
string are those with the same bytes, and every value is a C string of its own length. -/
theorem isMap_iff (keys values : Set StringView) :
    IsMap keys values ↔ (∀ k ∈ keys, k.Terminated) ∧
      ∀ k ∈ keys, ∀ k' ∈ keys, ∀ v ∈ values,
        (k.cstr = k'.cstr ↔ k.str = k'.str) ∧ v.data = .ok v.str := by
  constructor
  · intro h
    have hterm : ∀ k ∈ keys, k.Terminated := by
      intro k hk
      -- nothing is set, and the key is read all the same
      obtain ⟨r, -, hget⟩ := ok_of_bind (h [] (by simp) k hk)
      obtain ⟨s, hs, -⟩ := ok_of_bind hget
      exact (StringView.data_eq_ok_iff.mp hs).1
    refine ⟨hterm, fun k hk k' hk' v hv => ?_⟩
    have hcalls : ∀ call ∈ [(k, v)], call.1 ∈ keys ∧ call.2 ∈ values := by
      simp [hk, hv]
    have hvalue : v.Terminated := by
      obtain ⟨r, hr, -⟩ := ok_of_bind (h [(k, v)] hcalls k hk)
      obtain ⟨r₁, hset, -⟩ := ok_of_bind hr
      change HttpResponse.create.setPropertyView k v = .ok r₁ at hset
      rw [HttpResponse.setPropertyView, StringView.data_of_terminated (hterm k hk), ok_bind] at hset
      obtain ⟨s, hs, -⟩ := ok_of_bind hset
      exact (StringView.data_eq_ok_iff.mp hs).1
    have hall : AllTerminated [(k, v)] := by
      simp [AllTerminated, hterm k hk, hvalue]
    have hsame := h [(k, v)] hcalls k hk
    have hother := h [(k, v)] hcalls k' hk'
    rw [getAfter_eq hall (hterm k hk), Except.ok.injEq] at hsame
    rw [getAfter_eq hall (hterm k' hk'), Except.ok.injEq] at hother
    have hstr : v.cstr = v.str := by simpa [lastValue] using hsame
    refine ⟨?_, StringView.data_eq_ok_iff.mpr ⟨hvalue, hstr⟩⟩
    by_cases hc : k.cstr = k'.cstr <;> by_cases hs : k.str = k'.str <;>
      simp [lastValue, hc, hs] at hother ⊢
  · rintro ⟨hterm, hviews⟩ calls hcalls k hk
    have hall : AllTerminated calls := by
      intro call hcall
      obtain ⟨hkey, hvalue⟩ := hcalls call hcall
      have hdata := (hviews _ hkey _ hkey _ hvalue).2
      exact ⟨hterm _ hkey, (StringView.data_eq_ok_iff.mp hdata).1⟩
    rw [getAfter_eq hall (hterm k hk), lastValue]
    -- the same call is found, and its value is read as it is
    have hfind : calls.reverse.find? (·.1.cstr = k.cstr) =
        calls.reverse.find? (·.1.str = k.str) := by
      refine List.find?_congr fun call hcall => ?_
      obtain ⟨hkey, hvalue⟩ := hcalls call (List.mem_reverse.mp hcall)
      simp only [(hviews _ hkey _ hk _ hvalue).1]
    rw [hfind]
    congr 1
    cases hcall : calls.reverse.find? (·.1.str = k.str) with
    | none => rfl
    | some call =>
      obtain ⟨hkey, hvalue⟩ := hcalls call (List.mem_reverse.mp (List.mem_of_find?_eq_some hcall))
      have hdata := (hviews _ hkey _ hkey _ hvalue).2
      exact congrArg some (StringView.data_eq_ok_iff.mp hdata).2

end

/-- A view of the first part of a text sets another key. -/
theorem not_isMap : ¬ IsMap Set.univ Set.univ := by
  intro h
  let key : StringView := ⟨ascii "Ho", ascii "st" ++ [0]⟩
  let value : StringView := ⟨ascii "x", [0]⟩
  have hget := h [(key, value)] (by simp) ⟨ascii "Ho", [0]⟩ (Set.mem_univ _)
  have hnone : getAfter [(key, value)] ⟨ascii "Ho", [0]⟩ = .ok none := by decide
  rw [hnone] at hget
  exact absurd hget (by decide)

end SimpleTcp
