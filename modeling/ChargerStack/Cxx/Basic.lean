/-
# Cxx.Basic -- the pieces of C and C++ the models share

C strings, fixed-width arithmetic, raw buffers, and the ways a call can end
without returning.  Integer types are `Nat` or `Int` with the wrap written out
where the code can reach it.
-/
import Mathlib.Algebra.Group.Int.Defs
import Mathlib.Algebra.Group.Nat.Defs
import Mathlib.Data.List.TakeWhile

namespace ChargerStack.Cxx

set_option autoImplicit false

/-- The failures that end a call from inside it. -/
inductive Failure where
  /-- A `RAPIDJSON_ASSERT` that did not hold. -/
  | rapidjson
  /-- A read or write outside the object it names. -/
  | outOfBounds
  deriving DecidableEq, Repr

theorem bind_ok {α β : Type} {x : Except Failure α} {f : α → Except Failure β} {b : β}
    (ran : (x >>= f) = .ok b) : ∃ a, x = .ok a ∧ f a = .ok b := by
  cases x with
  | error failure => cases ran
  | ok a => exact ⟨a, rfl, ran⟩

theorem toOption_eq_some {α : Type} {x : Except Failure α} {a : α}
    (returned : x.toOption = some a) : x = .ok a := by
  cases x <;> cases returned
  rfl

/-! ## C strings -/

def nul : Char := Char.ofNat 0

/-- The text a C string function sees: everything before the first NUL. -/
def cStr (s : String) : String := String.ofList (s.toList.takeWhile (· ≠ nul))

def NulFree (s : String) : Prop := nul ∉ s.toList

instance (s : String) : Decidable (NulFree s) := inferInstanceAs (Decidable (¬ _))

theorem cStr_of_nulFree {s : String} (free : NulFree s) : cStr s = s := by
  have all : s.toList.takeWhile (· ≠ nul) = s.toList := by
    rw [List.takeWhile_eq_self_iff]
    intro c member
    have : c ≠ nul := fun same => free (same ▸ member)
    simpa using this
  rw [cStr, all, String.ofList_toList]

theorem cStr_nulFree (s : String) : NulFree (cStr s) := by
  intro member
  rw [cStr, String.toList_ofList] at member
  have := List.mem_takeWhile_imp member
  simp at this

theorem nulFree_ofList {cs : List Char} (free : nul ∉ cs) : NulFree (String.ofList cs) := by
  rwa [NulFree, String.toList_ofList]

theorem cStr_eq_iff {s : String} : cStr s = s ↔ NulFree s :=
  ⟨fun same => same ▸ cStr_nulFree s, cStr_of_nulFree⟩

@[simp] theorem cStr_cStr (s : String) : cStr (cStr s) = cStr s :=
  cStr_of_nulFree (cStr_nulFree s)

/-- The same of a text of bytes. -/
def cString (s : List UInt8) : List UInt8 := s.takeWhile (· != 0)

theorem cString_eq_self_iff {s : List UInt8} : cString s = s ↔ 0 ∉ s := by
  rw [cString, List.takeWhile_eq_self_iff]
  constructor
  · intro all member
    simpa using all 0 member
  · intro free c member
    have other : c ≠ 0 := fun same => free (same ▸ member)
    simpa using other

theorem cString_isPrefix (s : List UInt8) : cString s <+: s := List.takeWhile_prefix _

theorem zero_notMem_cString (s : List UInt8) : 0 ∉ cString s := by
  intro member
  have inside := List.mem_takeWhile_imp member
  simp at inside

/-! ## `size_t` -/

/-- A sum or a count as a 64-bit `size_t` holds it. -/
def sizeT (n : Nat) : Nat := n % 2 ^ 64

/-- `size_t` subtraction, which wraps below zero. -/
def sizeTSub (a b : Nat) : Nat := sizeT (a + 2 ^ 64 - b)

theorem sizeT_of_lt {n : Nat} (small : n < 2 ^ 64) : sizeT n = n := Nat.mod_eq_of_lt small

theorem sizeTSub_of_le {a b : Nat} (le : b ≤ a) (small : a < 2 ^ 64) : sizeTSub a b = a - b := by
  unfold sizeTSub sizeT
  rw [show a + 2 ^ 64 - b = (a - b) + 2 ^ 64 by omega, Nat.add_mod_right]
  exact Nat.mod_eq_of_lt (by omega)

/-! ## 32-bit integers -/

/-- A value stored in an `unsigned int`. -/
def uint32 (n : Int) : Nat := (n % 2 ^ 32).toNat

/-- A value stored in an `int`. -/
def int32 (n : Int) : Int := Int.bmod n (2 ^ 32)

theorem uint32_of_lt {n : Nat} (small : n < 2 ^ 32) : uint32 n = n := by
  unfold uint32
  omega

theorem int32_range (n : Int) : -2 ^ 31 ≤ int32 n ∧ int32 n < 2 ^ 31 := by
  simp only [int32, Int.bmod]
  split <;> omega

theorem int32_of_range {n : Int} (low : -2 ^ 31 ≤ n) (high : n < 2 ^ 31) : int32 n = n := by
  simp only [int32, Int.bmod]
  split <;> omega

/-! ## 64-bit integers -/

/-- A value stored in an `int64_t` or a `long`. -/
def int64 (n : Int) : Int := Int.bmod n (2 ^ 64)

theorem int64_of_range {n : Int} (low : -2 ^ 63 ≤ n) (high : n < 2 ^ 63) : int64 n = n := by
  simp only [int64, Int.bmod]
  split <;> omega

/-! ## Raw buffers -/

/-- A byte of memory; `none` until something has been stored in it. -/
abbrev Cell := Option UInt8

/-- A pointer to the start of a buffer, or `nullptr`. -/
abbrev Pointer := Option (List Cell)

/-- `new uint8_t[n]`: `n` bytes, none of them initialised. -/
def newBytes (n : Nat) : Pointer := some (List.replicate n none)

/-- `memcpy(&buffer[index], data, n)`.  Copying nothing touches nothing. -/
def memcpy (buffer : Pointer) (index : Nat) (data : List UInt8) (n : Nat) :
    Except Failure Pointer :=
  if n = 0 then .ok buffer
  else
    match buffer with
    | none => .error .outOfBounds
    | some cells =>
        if index + n ≤ cells.length ∧ n ≤ data.length then
          .ok (some (cells.take index ++ (data.take n).map some ++ cells.drop (index + n)))
        else .error .outOfBounds

end ChargerStack.Cxx
