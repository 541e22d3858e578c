/-
# Utils.ByteOrder -- convert_byte_order of utils/utils.c

The bytes of an object are to be brought from the order of the host into the one that is asked
for.  They are exchanged in place, the first with the last and so on to the middle, unless the
host and the order asked for are both big-endian; that both may be little-endian is not looked
at.

* `reversed_in_place`: the loop reverses the bytes and touches nothing behind them;
* `converts_iff`: exactly when the bytes come out in the order that was asked for; done twice,
  the conversion always restores them.
-/
import Mathlib.Data.List.Induction
import ChargerStack.Cxx.Basic
import ChargerStack.Cxx.Memory

namespace ChargerStack.Utils.ByteOrder

open ChargerStack.Cxx

set_option autoImplicit false

/-! ## The code -/

/-- `is_little_endian`: the byte at the address of a `uint16_t` that holds 1. -/
def isLittleEndian (host : ByteOrder) : Bool := (bytesOf host 2 0x01).head? == some 0x01

/-- One turn of the loop: the bytes at `i` and as far from the end are exchanged. -/
def swapEnds (size : Nat) (tmp : List UInt8) (i : Nat) : Except Failure (List UInt8) :=
  match tmp[i]?, tmp[size - 1 - i]? with
  | some c, some d => .ok ((tmp.set i d).set (size - 1 - i) c)
  | _, _ => .error .outOfBounds

/-- `convert_byte_order`, on the object that `src` points into, `none` for `NULL`. -/
def convertByteOrder (host : ByteOrder) (src : Option (List UInt8)) (size : Nat)
    (bigEndian : Bool) : Except Failure (Option (List UInt8)) :=
  match src with
  | none => .ok none
  | some tmp =>
      if size = 0 then .ok (some tmp)
      else if !isLittleEndian host && bigEndian then .ok (some tmp)
      else ((List.range' 0 (size / 2)).foldlM (swapEnds size) tmp).map some

/-! ## What is promised -/

/-- The order that is asked for. -/
def requested (bigEndian : Bool) : ByteOrder := if bigEndian then .big else .little

/-- The bytes of the host in the order that is asked for. -/
def inOrder (host : ByteOrder) (bigEndian : Bool) (bytes : List UInt8) : List UInt8 :=
  if requested bigEndian = host then bytes else bytes.reverse

/-- The bytes are converted once, and twice, and nothing behind them is touched. -/
structure Converts (host : ByteOrder) (bigEndian : Bool) (bytes rest : List UInt8) : Prop where
  once : convertByteOrder host (some (bytes ++ rest)) bytes.length bigEndian =
    .ok (some (inOrder host bigEndian bytes ++ rest))
  twice : ((convertByteOrder host (some (bytes ++ rest)) bytes.length bigEndian).bind fun src =>
    convertByteOrder host src bytes.length bigEndian) = .ok (some (bytes ++ rest))

/-! ## The loop -/

variable {host : ByteOrder} {bigEndian : Bool}

theorem isLittleEndian_iff : isLittleEndian host = true ↔ host = .little := by
  cases host <;> decide

theorem swapEnds_ends (front middle back : List UInt8) (a b : UInt8) :
    swapEnds (front.length + (middle.length + 2) + front.length)
        (front ++ a :: (middle ++ [b]) ++ back) front.length =
      .ok (front ++ [b] ++ middle ++ a :: back) := by
  have right : front.length + (middle.length + 2) + front.length - 1 - front.length =
      front.length + (middle.length + 1) := by omega
  unfold swapEnds
  rw [right]
  simp

/-- **The loop reverses what is left between its two ends.**  The induction takes a byte off each
end of it. -/
theorem foldlM_swapEnds (middle front back : List UInt8) :
    (List.range' front.length (middle.length / 2)).foldlM
        (swapEnds (front.length + middle.length + front.length)) (front ++ middle ++ back) =
      .ok (front ++ middle.reverse ++ back) := by
  induction middle using List.bidirectionalRec generalizing front back with
  | nil => rfl
  | singleton a =>
      have turns : [a].length / 2 = 0 := by rw [List.length_singleton]
      rw [turns, List.reverse_singleton]
      rfl
  | cons_append a middle b ih =>
      have turns : (a :: (middle ++ [b])).length / 2 = middle.length / 2 + 1 := by
        rw [List.length_cons, List.length_append, List.length_singleton]
        omega
      have ends : front.length + (a :: (middle ++ [b])).length + front.length =
          front.length + (middle.length + 2) + front.length := by
        rw [List.length_cons, List.length_append, List.length_singleton]
      have next := ih (front ++ [b]) (a :: back)
      have inner : (front ++ [b]).length + middle.length + (front ++ [b]).length =
          front.length + (middle.length + 2) + front.length := by
        rw [List.length_append, List.length_singleton]
        omega
      rw [inner, List.length_append, List.length_singleton] at next
      rw [turns, ends, List.range'_succ, List.foldlM_cons, swapEnds_ends]
      refine next.trans ?_
      simp

theorem reversed_in_place (bytes rest : List UInt8) :
    (List.range' 0 (bytes.length / 2)).foldlM (swapEnds bytes.length) (bytes ++ rest) =
      .ok (bytes.reverse ++ rest) := by
  have whole := foldlM_swapEnds bytes [] rest
  simpa using whole

/-! ## The conversion -/

/-- The bytes stay only where the host and the order asked for are both big-endian. -/
theorem convertByteOrder_eq (host : ByteOrder) (bigEndian : Bool) (bytes rest : List UInt8) :
    convertByteOrder host (some (bytes ++ rest)) bytes.length bigEndian =
      .ok (some ((if host = .big ∧ bigEndian = true then bytes else bytes.reverse) ++ rest)) := by
  have test : (!isLittleEndian host && bigEndian) = true ↔ host = .big ∧ bigEndian = true := by
    rw [Bool.and_eq_true, Bool.not_eq_true', ← Bool.not_eq_true, isLittleEndian_iff]
    cases host <;> simp
  unfold convertByteOrder
  dsimp only
  by_cases empty : bytes.length = 0
  · rw [if_pos empty]
    obtain rfl := List.length_eq_zero_iff.1 empty
    rw [List.reverse_nil, ite_self]
  · rw [if_neg empty]
    by_cases same : host = .big ∧ bigEndian = true
    · rw [if_pos (test.2 same), if_pos same]
    · rw [if_neg (mt test.1 same), if_neg same, reversed_in_place]
      rfl

/-- Whatever is done to the bytes, done again it restores them. -/
theorem converted_twice (host : ByteOrder) (bigEndian : Bool) (bytes rest : List UInt8) :
    ((convertByteOrder host (some (bytes ++ rest)) bytes.length bigEndian).bind fun src =>
      convertByteOrder host src bytes.length bigEndian) = .ok (some (bytes ++ rest)) := by
  rw [convertByteOrder_eq]
  by_cases same : host = .big ∧ bigEndian = true
  · rw [if_pos same]
    show convertByteOrder host (some (bytes ++ rest)) bytes.length bigEndian = _
    rw [convertByteOrder_eq, if_pos same]
  · rw [if_neg same]
    show convertByteOrder host (some (bytes.reverse ++ rest)) bytes.length bigEndian = _
    rw [← List.length_reverse, convertByteOrder_eq, if_neg same, List.reverse_reverse]

/-- **When the bytes come out in the order that was asked for**: exactly when not both the host
and that order are little-endian, or the bytes read the same from both ends. -/
theorem converts_iff (host : ByteOrder) (bigEndian : Bool) (bytes rest : List UInt8) :
    (Converts host bigEndian bytes rest ↔
        host = .big ∨ bigEndian = true ∨ bytes.reverse = bytes) ∧
      ((convertByteOrder host (some (bytes ++ rest)) bytes.length bigEndian).bind fun src =>
        convertByteOrder host src bytes.length bigEndian) = .ok (some (bytes ++ rest)) ∧
      ∀ size, convertByteOrder host none size bigEndian = .ok none := by
  refine ⟨?_, converted_twice host bigEndian bytes rest, fun _ => rfl⟩
  have once : convertByteOrder host (some (bytes ++ rest)) bytes.length bigEndian =
        .ok (some (inOrder host bigEndian bytes ++ rest)) ↔
      (if host = .big ∧ bigEndian = true then bytes else bytes.reverse) =
        inOrder host bigEndian bytes := by
    rw [convertByteOrder_eq, Except.ok.injEq, Option.some.injEq, List.append_cancel_right_eq]
  constructor
  · intro converts
    have same := once.1 converts.once
    unfold inOrder at same
    cases host with
    | big => exact .inl rfl
    | little =>
        cases bigEndian with
        | true => exact .inr (.inl rfl)
        | false => exact .inr (.inr same)
  · intro condition
    refine ⟨once.2 ?_, converted_twice host bigEndian bytes rest⟩
    unfold inOrder
    cases host with
    | big => cases bigEndian <;> rfl
    | little =>
        cases bigEndian with
        | true => rfl
        | false =>
            rcases condition with impossible | impossible | palindrome
            · cases impossible
            · cases impossible
            · exact palindrome

/-- On a little-endian host, two bytes that are to be in little-endian order are turned round. -/
theorem little_turned_round :
    convertByteOrder .little (some [1, 2]) 2 false = .ok (some [2, 1]) ∧
      ¬ Converts .little false [1, 2] [] := by
  refine ⟨rfl, fun converts => ?_⟩
  have same := converts.once
  revert same
  decide

end ChargerStack.Utils.ByteOrder
