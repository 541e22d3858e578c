/-
# Cxx.Memory -- how an unsigned integer stands in memory

The bytes of an object in the order of their addresses, on a host of either byte order, and the
conversion of <arpa/inet.h> to the order of the network.

* `valueOf_bytesOf` and `bytesOf_valueOf`: a number and its bytes determine each other;
* `bytesOf_htonl`: the result of `htonl` stands in memory with its highest byte first.
-/
import ChargerStack.Lib.BitFields

namespace ChargerStack.Cxx

open ChargerStack.Lib.BitFields

set_option autoImplicit false

/-- Which byte of a number stands first. -/
inductive ByteOrder where
  | little
  | big
  deriving DecidableEq, Repr

/-- A byte as a field of a number. -/
def byteField (byte : UInt8) : Field := ⟨8, byte.toBitVec⟩

/-- The bytes of a number, the lowest first. -/
def bytesFromLow (size n : Nat) : List UInt8 :=
  (unpack (List.replicate size 8) n).map fun field => UInt8.ofNat field.2.toNat

/-- The number of which these are the bytes, the lowest first. -/
def valueFromLow (bytes : List UInt8) : Nat := pack (bytes.map byteField)

/-- The bytes as the order has them: a list that begins with the lowest byte, or the reverse. -/
def ByteOrder.arrange (order : ByteOrder) (bytes : List UInt8) : List UInt8 :=
  match order with
  | .little => bytes
  | .big => bytes.reverse

/-- An unsigned integer of so many bytes, in memory. -/
def bytesOf (order : ByteOrder) (size n : Nat) : List UInt8 := order.arrange (bytesFromLow size n)

/-- The unsigned integer that stands in memory. -/
def valueOf (order : ByteOrder) (bytes : List UInt8) : Nat := valueFromLow (order.arrange bytes)

/-- `htonl`. -/
def htonl (host : ByteOrder) (hostlong : UInt32) : UInt32 :=
  UInt32.ofNat (valueOf host (bytesOf .big 4 hostlong.toNat))

variable {order : ByteOrder} {size n : Nat} {bytes : List UInt8}

@[simp] theorem arrange_arrange (order : ByteOrder) (bytes : List UInt8) :
    order.arrange (order.arrange bytes) = bytes := by
  cases order with
  | little => rfl
  | big => exact List.reverse_reverse bytes

@[simp] theorem length_arrange : (order.arrange bytes).length = bytes.length := by
  cases order with
  | little => rfl
  | big => exact List.length_reverse

@[simp] theorem length_bytesFromLow (size n : Nat) : (bytesFromLow size n).length = size := by
  have widths := congrArg List.length (unpack_widths (List.replicate size 8) n)
  rw [List.length_map, List.length_replicate] at widths
  rw [bytesFromLow, List.length_map, widths]

@[simp] theorem length_bytesOf : (bytesOf order size n).length = size := by
  rw [bytesOf, length_arrange, length_bytesFromLow]

theorem ofNat_byteField (byte : UInt8) : UInt8.ofNat (byteField byte).2.toNat = byte :=
  UInt8.ofNat_toNat

theorem byteField_ofNat (bits : BitVec 8) : byteField (UInt8.ofNat bits.toNat) = ⟨8, bits⟩ := by
  have same : (UInt8.ofNat bits.toNat).toBitVec = bits := by
    rw [UInt8.toBitVec_ofNat', BitVec.ofNat_toNat, BitVec.setWidth_eq]
  rw [byteField, same]

theorem fields_bytesFromLow (size n : Nat) :
    (bytesFromLow size n).map byteField = unpack (List.replicate size 8) n := by
  induction size generalizing n with
  | zero => rfl
  | succ size ih =>
      have rest := ih (n / 2 ^ 8)
      rw [bytesFromLow] at rest ⊢
      rw [List.replicate_succ, unpack_cons, List.map_cons, List.map_cons, byteField_ofNat, rest]

theorem widths_byteField (bytes : List UInt8) :
    (bytes.map byteField).map Sigma.fst = List.replicate bytes.length 8 := by
  rw [List.map_map, ← List.map_const']
  rfl

theorem sum_widths (size : Nat) : (List.replicate size 8).sum = 8 * size := by
  rw [List.sum_replicate_nat, Nat.mul_comm]

theorem valueFromLow_bytesFromLow (size n : Nat) :
    valueFromLow (bytesFromLow size n) = n % 2 ^ (8 * size) := by
  rw [valueFromLow, fields_bytesFromLow, pack_unpack, sum_widths]

theorem bytesFromLow_valueFromLow (bytes : List UInt8) :
    bytesFromLow bytes.length (valueFromLow bytes) = bytes := by
  rw [bytesFromLow, valueFromLow, ← widths_byteField, unpack_pack, List.map_map]
  exact (List.map_congr_left fun byte _ => ofNat_byteField byte).trans (List.map_id bytes)

theorem valueFromLow_lt (bytes : List UInt8) : valueFromLow bytes < 2 ^ (8 * bytes.length) := by
  have bound := pack_lt (bytes.map byteField)
  rwa [widths_byteField, sum_widths] at bound

/-- **A number is read back from its bytes.** -/
theorem valueOf_bytesOf (small : n < 2 ^ (8 * size)) : valueOf order (bytesOf order size n) = n := by
  rw [valueOf, bytesOf, arrange_arrange, valueFromLow_bytesFromLow, Nat.mod_eq_of_lt small]

/-- **The bytes of a number are those it was read from.** -/
theorem bytesOf_valueOf (order : ByteOrder) (bytes : List UInt8) :
    bytesOf order bytes.length (valueOf order bytes) = bytes := by
  have whole := bytesFromLow_valueFromLow (order.arrange bytes)
  rw [length_arrange] at whole
  rw [bytesOf, valueOf, whole, arrange_arrange]

/-- `htonl` gives the number whose bytes in memory are in the order of the network. -/
theorem bytesOf_htonl (host : ByteOrder) (hostlong : UInt32) :
    bytesOf host 4 (htonl host hostlong).toNat = bytesOf .big 4 hostlong.toNat := by
  have four : (bytesOf .big 4 hostlong.toNat).length = 4 := length_bytesOf
  have small : valueOf host (bytesOf .big 4 hostlong.toNat) < 2 ^ 32 := by
    have bound := valueFromLow_lt (host.arrange (bytesOf .big 4 hostlong.toNat))
    rwa [length_arrange, four] at bound
  have whole := bytesOf_valueOf host (bytesOf .big 4 hostlong.toNat)
  rw [four] at whole
  rw [htonl, UInt32.toNat_ofNat_of_lt' small, whole]

end ChargerStack.Cxx
