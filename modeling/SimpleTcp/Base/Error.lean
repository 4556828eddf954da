/-!
# Errors

The ways a function of the library ends without returning. A failed `assertTrue` is a
`LOG_FATAL`, which calls `std::terminate`: `DEBUG_BUILD` is defined in the debug and in the
release build, so the check is compiled in both. The exceptions carry the error code their
handlers read. An access outside a container or through a null or dangling pointer, a division by
zero and a loop that never ends are not exceptions of the source; they are the ways it can leave its
own semantics.

## Main definitions

* `Stop`: how a call ends without returning
* `Stop.isException`: the stops that are exceptions
* `assertTrue`: the assertion of `Log.h`
-/

namespace SimpleTcp

/-- An `errno` value. -/
abbrev Errno := Nat

namespace Errno

def EINTR : Errno := 4
def EAGAIN : Errno := 11
def ECONNABORTED : Errno := 103
def EISCONN : Errno := 106
def EINPROGRESS : Errno := 115

end Errno

/-- How a call ends without returning. -/
inductive Stop where
  /-- `LOG_FATAL`, of a failed `assertTrue` or by itself: the process is terminated. -/
  | fatal
  /-- `NetworkException`, with `getNetErr()`. -/
  | networkException (err : Errno)
  /-- `SystemException`, with `getSysErr()`. -/
  | systemException (err : Errno)
  /-- `std::bad_variant_access`. -/
  | badVariantAccess
  /-- `std::length_error`. -/
  | lengthError
  /-- `std::out_of_range`. -/
  | outOfRange
  /-- A read or a copy outside the container. -/
  | outOfBounds
  /-- A member is reached through a null pointer. -/
  | nullPointer
  /-- A member is reached through a pointer to an object that was destroyed. -/
  | danglingPointer
  /-- A loop that no number of iterations ends. -/
  | hang
  /-- An integer is divided by zero. -/
  | divideByZero
  deriving DecidableEq, Repr

/-- The stop is an exception, which a handler of `std::exception` catches. -/
def Stop.isException : Stop → Bool
  | .networkException _ | .systemException _ | .badVariantAccess | .lengthError | .outOfRange =>
    true
  | .fatal | .outOfBounds | .nullPointer | .danglingPointer | .hang | .divideByZero => false

/-- `assertTrue(cond, msg)`. -/
def assertTrue {m : Type → Type} [Monad m] [MonadExcept Stop m] (cond : Prop) [Decidable cond] :
    m Unit :=
  if cond then pure () else throw .fatal

section

variable {m : Type → Type} [Monad m] [MonadExcept Stop m] {cond : Prop} [Decidable cond]

theorem assertTrue_pos (h : cond) : (assertTrue cond : m Unit) = pure () := if_pos h

theorem assertTrue_neg (h : ¬ cond) : (assertTrue cond : m Unit) = throw .fatal := if_neg h

end

@[simp] theorem ok_bind {ε α β : Type} (a : α) (f : α → Except ε β) :
    (Except.ok a >>= f) = f a := rfl

@[simp] theorem error_bind {ε α β : Type} (e : ε) (f : α → Except ε β) :
    ((Except.error e : Except ε α) >>= f) = .error e := rfl

/-- A computation that returns has returned at every step. -/
theorem ok_of_bind {ε α β : Type} {x : Except ε α} {f : α → Except ε β} {b : β}
    (h : x >>= f = .ok b) : ∃ a, x = .ok a ∧ f a = .ok b := by
  cases x with
  | ok a => exact ⟨a, rfl, h⟩
  | error e => cases h

end SimpleTcp
