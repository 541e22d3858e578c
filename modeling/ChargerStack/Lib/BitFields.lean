/-
# Lib.BitFields -- a number laid out in fields of fixed widths

A number is read as a row of fields, the first in the lowest place.  The layout is a list of
widths; every field is a bit vector of its own width, so a value that does not fit cannot be
written down.

* `unpack_pack`: the fields are read back from the number;
* `pack_unpack`: the number is put together again from its fields, as far as they reach;
* `pack_lt`: a number of `n` bits in all is below `2 ^ n`.
-/
import Mathlib.Data.BitVec

namespace ChargerStack.Lib.BitFields

set_option autoImplicit false

/-- A width, and so many bits. -/
abbrev Field := Σ width : Nat, BitVec width

/-- The number that has these fields, the first in the lowest place. -/
def pack : List Field → Nat
  | [] => 0
  | ⟨width, bits⟩ :: fields => bits.toNat + 2 ^ width * pack fields

/-- The fields of these widths. -/
def unpack : List Nat → Nat → List Field
  | [], _ => []
  | width :: widths, n => ⟨width, BitVec.ofNat width n⟩ :: unpack widths (n / 2 ^ width)

variable {n : Nat}

@[simp] theorem pack_nil : pack [] = 0 := rfl

@[simp] theorem pack_cons (width : Nat) (bits : BitVec width) (fields : List Field) :
    pack (⟨width, bits⟩ :: fields) = bits.toNat + 2 ^ width * pack fields := rfl

@[simp] theorem unpack_nil : unpack [] n = [] := rfl

@[simp] theorem unpack_cons (width : Nat) (widths : List Nat) (n : Nat) :
    unpack (width :: widths) n = ⟨width, BitVec.ofNat width n⟩ :: unpack widths (n / 2 ^ width) :=
  rfl

@[simp] theorem unpack_widths (widths : List Nat) (n : Nat) :
    (unpack widths n).map Sigma.fst = widths := by
  induction widths generalizing n with
  | nil => rfl
  | cons width widths ih => rw [unpack_cons, List.map_cons, ih]

/-- The fields fill the bits of their widths and no more. -/
theorem pack_lt (fields : List Field) : pack fields < 2 ^ (fields.map Sigma.fst).sum := by
  induction fields with
  | nil => exact Nat.one_pos
  | cons field fields ih =>
      obtain ⟨width, bits⟩ := field
      have low := bits.isLt
      rw [pack_cons, List.map_cons, List.sum_cons, Nat.pow_add]
      calc bits.toNat + 2 ^ width * pack fields
          < 2 ^ width + 2 ^ width * pack fields := Nat.add_lt_add_right low _
        _ = 2 ^ width * (pack fields + 1) := by rw [Nat.mul_add, Nat.mul_one, Nat.add_comm]
        _ ≤ 2 ^ width * 2 ^ (fields.map Sigma.fst).sum := Nat.mul_le_mul_left _ ih

/-- Fields behind others are shifted by the widths of these. -/
theorem pack_append (fields fields' : List Field) :
    pack (fields ++ fields') = pack fields + 2 ^ (fields.map Sigma.fst).sum * pack fields' := by
  induction fields with
  | nil => rw [List.nil_append, pack_nil, List.map_nil, List.sum_nil, Nat.zero_add, Nat.pow_zero,
      Nat.one_mul]
  | cons field fields ih =>
      obtain ⟨width, bits⟩ := field
      rw [List.cons_append, pack_cons, pack_cons, ih, List.map_cons, List.sum_cons, Nat.pow_add,
        Nat.mul_add, Nat.mul_assoc, Nat.add_assoc]

/-- **The fields are read back.** -/
theorem unpack_pack (fields : List Field) : unpack (fields.map Sigma.fst) (pack fields) = fields := by
  induction fields with
  | nil => rfl
  | cons field fields ih =>
      obtain ⟨width, bits⟩ := field
      have low : BitVec.ofNat width (bits.toNat + 2 ^ width * pack fields) = bits := by
        apply BitVec.eq_of_toNat_eq
        rw [BitVec.toNat_ofNat, Nat.add_mul_mod_self_left, Nat.mod_eq_of_lt bits.isLt]
      have high : (bits.toNat + 2 ^ width * pack fields) / 2 ^ width = pack fields := by
        rw [Nat.add_mul_div_left _ _ (Nat.two_pow_pos width), Nat.div_eq_of_lt bits.isLt,
          Nat.zero_add]
      rw [pack_cons, List.map_cons, unpack_cons, low, high, ih]

/-- **The number is put together again.** -/
theorem pack_unpack (widths : List Nat) (n : Nat) :
    pack (unpack widths n) = n % 2 ^ widths.sum := by
  induction widths generalizing n with
  | nil => rw [unpack_nil, pack_nil, List.sum_nil, Nat.pow_zero, Nat.mod_one]
  | cons width widths ih =>
      rw [unpack_cons, pack_cons, ih, BitVec.toNat_ofNat, List.sum_cons, Nat.pow_add, Nat.mod_mul]

end ChargerStack.Lib.BitFields
