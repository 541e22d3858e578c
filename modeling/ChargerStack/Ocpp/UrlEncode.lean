/-
# Ocpp.UrlEncode -- the stream of Url::encode, and decoding

`Url::encode` writes into one stream.  The base and the case of the digits are set once and
stay, the width is set before each number and is over with it, and the fill stays where it was
set.  None of it reaches a byte that is written as it is.

* `encodeStream_eq`: what the stream holds is the encoding of each byte on its own.
* `percentDecode_encode`: it is decoded to what was encoded.
* `encodeStream_percent`: alphabet, decoding and concatenation together.
-/
import Mathlib.Data.Nat.Digits.Defs
import ChargerStack.Ocpp.Url

namespace ChargerStack.Ocpp.Url

set_option autoImplicit false

/-! ## The stream -/

/-- A `std::stringstream`, with the flags that its output depends on. -/
structure Stream where
  str : List UInt8 := []
  width : Nat := 0
  fill : UInt8 := 32
  hex : Bool := false
  uppercase : Bool := false

/-- A digit of a number, in the case that the stream has. -/
def digitChar (uppercase : Bool) (d : Nat) : UInt8 :=
  if d < 10 then 48 + UInt8.ofNat d else (if uppercase then 55 else 87) + UInt8.ofNat d

namespace Stream

/-- Every formatted output is filled up on the left to the width, and takes the width back. -/
def put (text : List UInt8) (s : Stream) : Stream :=
  { s with str := s.str ++ List.replicate (s.width - text.length) s.fill ++ text, width := 0 }

/-- `<<` of a character. -/
def putChar (c : UInt8) (s : Stream) : Stream := s.put [c]

/-- `<<` of an `int` that is not negative. -/
def putInt (n : Nat) (s : Stream) : Stream :=
  let digits := if n = 0 then [0] else (Nat.digits (if s.hex then 16 else 10) n).reverse
  s.put (digits.map (digitChar s.uppercase))

def setw (n : Nat) (s : Stream) : Stream := { s with width := n }

def setfill (c : UInt8) (s : Stream) : Stream := { s with fill := c }

end Stream

/-- The body of the loop. -/
def encodeStep (encoded : Stream) (c : UInt8) : Stream :=
  if shouldEncode c then
    (((encoded.putChar 37).setw 2).setfill 48).putInt c.toNat
  else encoded.putChar c

/-- `Url::encode`, by its stream. -/
def encodeStream (str : List UInt8) : List UInt8 :=
  (str.foldl encodeStep { hex := true, uppercase := true }).str

/-! ## What is written -/

variable {s t : List UInt8} {encoded : Stream} {c : UInt8}

/-- The stream between two characters. -/
structure Ready (encoded : Stream) : Prop where
  width : encoded.width = 0
  hex : encoded.hex = true
  uppercase : encoded.uppercase = true

theorem digitChar_hex {d : Nat} (small : d < 16) : digitChar true d = hexDigit (UInt8.ofNat d) := by
  have value : (UInt8.ofNat d).toNat = d := by
    rw [UInt8.toNat_ofNat']
    omega
  have same : UInt8.ofNat d < 10 ↔ d < 10 := by
    rw [UInt8.lt_iff_toNat_lt, value]
    rfl
  simp only [digitChar, hexDigit, same, if_true]

/-- A byte has one digit or two. -/
theorem digits_byte {n : Nat} (nonzero : n ≠ 0) (small : n < 256) :
    Nat.digits 16 n = if n < 16 then [n] else [n % 16, n / 16] := by
  split
  · next short => exact Nat.digits_of_lt 16 n nonzero short
  · next long =>
      rw [Nat.digits_def' (by decide) (by omega),
        Nat.digits_of_lt 16 (n / 16) (by omega) (by omega)]

theorem ofNat_div (c : UInt8) : UInt8.ofNat (c.toNat / 16) = c / 16 := by
  have small := c.toNat_lt
  apply UInt8.toNat_inj.1
  rw [UInt8.toNat_ofNat', UInt8.toNat_div]
  exact Nat.mod_eq_of_lt (by omega)

theorem ofNat_mod (c : UInt8) : UInt8.ofNat (c.toNat % 16) = c % 16 := by
  have small := c.toNat_lt
  apply UInt8.toNat_inj.1
  rw [UInt8.toNat_ofNat', UInt8.toNat_mod]
  exact Nat.mod_eq_of_lt (by omega)

/-- A number is written with two digits, whatever it is. -/
theorem putInt_str (ready : Ready encoded) (c : UInt8) :
    (((encoded.setw 2).setfill 48).putInt c.toNat).str =
      encoded.str ++ [hexDigit (c / 16), hexDigit (c % 16)] := by
  have small := c.toNat_lt
  have high := digitChar_hex (d := c.toNat / 16) (by omega)
  have low := digitChar_hex (d := c.toNat % 16) (by omega)
  rw [ofNat_div] at high
  rw [ofNat_mod] at low
  have zero : digitChar true 0 = 48 := rfl
  simp only [Stream.putInt, Stream.setw, Stream.setfill, ready.hex, ready.uppercase, if_true]
  by_cases nothing : c.toNat = 0
  · rw [nothing] at high low
    simp [Stream.put, nothing, ← high, ← low, zero]
  · rw [if_neg nothing, digits_byte nothing small]
    split
    · next short =>
        rw [Nat.div_eq_of_lt short] at high
        rw [Nat.mod_eq_of_lt short] at low
        simp [Stream.put, ← high, ← low, zero]
    · simp [Stream.put, high, low]

/-- **One character**: its encoding is written, and the stream is ready again. -/
theorem encodeStep_spec (ready : Ready encoded) (c : UInt8) :
    (encodeStep encoded c).str = encoded.str ++ encodeByte c ∧ Ready (encodeStep encoded c) := by
  unfold encodeStep encodeByte
  split
  · have ready' : Ready (encoded.putChar 37) := ⟨rfl, ready.hex, ready.uppercase⟩
    refine ⟨?_, rfl, ready.hex, ready.uppercase⟩
    rw [putInt_str ready' c]
    simp [Stream.putChar, Stream.put, ready.width]
  · refine ⟨?_, rfl, ready.hex, ready.uppercase⟩
    simp [Stream.putChar, Stream.put, ready.width]

theorem foldl_encodeStep (ready : Ready encoded) (s : List UInt8) :
    (s.foldl encodeStep encoded).str = encoded.str ++ encode s := by
  induction s generalizing encoded with
  | nil => simp [encode]
  | cons c s ih =>
      obtain ⟨written, ready'⟩ := encodeStep_spec ready c
      rw [List.foldl_cons, ih ready', written]
      simp [encode]

/-- **The flags of the stream do not get mixed up.** -/
theorem encodeStream_eq (s : List UInt8) : encodeStream s = encode s :=
  foldl_encodeStep ⟨rfl, rfl, rfl⟩ s

/-! ## Decoding -/

/-- The value of a hexadecimal digit of either case. -/
def hexValue (c : UInt8) : Option UInt8 :=
  if 48 ≤ c ∧ c ≤ 57 then some (c - 48)
  else if 65 ≤ c ∧ c ≤ 70 then some (c - 55)
  else if 97 ≤ c ∧ c ≤ 102 then some (c - 87)
  else none

/-- Percent-decoding: a percent sign and two digits are a byte, any other byte is itself. -/
def percentDecode : List UInt8 → Option (List UInt8)
  | [] => some []
  | 37 :: high :: low :: rest =>
      (hexValue high).bind fun x => (hexValue low).bind fun y =>
      (percentDecode rest).map fun decoded => (16 * x + y) :: decoded
  | c :: t => if c = 37 then none else (percentDecode t).map (c :: ·)

/-- A letter, a digit or one of `-`, `.`, `_` and `~`. -/
def Unreserved (c : UInt8) : Prop :=
  (97 ≤ c ∧ c ≤ 122) ∨ (65 ≤ c ∧ c ≤ 90) ∨ (48 ≤ c ∧ c ≤ 57) ∨
    c = 45 ∨ c = 46 ∨ c = 95 ∨ c = 126

/-- A hexadecimal digit in upper case. -/
def UpperHex (c : UInt8) : Prop := (48 ≤ c ∧ c ≤ 57) ∨ (65 ≤ c ∧ c ≤ 70)

/-- Unreserved characters, and percent signs with two digits each. -/
inductive PercentEncoded : List UInt8 → Prop where
  | nil : PercentEncoded []
  | unreserved {c : UInt8} {t : List UInt8} (stays : Unreserved c) (rest : PercentEncoded t) :
      PercentEncoded (c :: t)
  | escaped {high low : UInt8} {t : List UInt8} (first : UpperHex high) (second : UpperHex low)
      (rest : PercentEncoded t) : PercentEncoded (37 :: high :: low :: t)

theorem unreserved_iff : Unreserved c ↔ shouldEncode c = false := by
  simp only [Unreserved, shouldEncode, isalnum, unreservedChar, Bool.and_eq_false_iff,
    Bool.not_eq_false', Bool.or_eq_true, decide_eq_true_eq, List.contains_iff_mem, List.mem_cons,
    List.not_mem_nil, or_false]
  tauto

/-- The sixteen digits, one by one. -/
theorem hexDigit_spec {n : UInt8} (small : n < 16) :
    UpperHex (hexDigit n) ∧ hexValue (hexDigit n) = some n := by
  have nibble : ∀ m : Fin 16, UpperHex (hexDigit (UInt8.ofNat m)) ∧
      hexValue (hexDigit (UInt8.ofNat m)) = some (UInt8.ofNat m) := by
    unfold UpperHex
    decide
  have all := nibble ⟨n.toNat, small⟩
  simpa using all

theorem high_lt (c : UInt8) : c / 16 < 16 := by
  have small := c.toNat_lt
  rw [UInt8.lt_iff_toNat_lt, UInt8.toNat_div]
  exact Nat.div_lt_of_lt_mul small

theorem low_lt (c : UInt8) : c % 16 < 16 := by
  rw [UInt8.lt_iff_toNat_lt, UInt8.toNat_mod]
  exact Nat.mod_lt _ (by decide)

theorem halves (c : UInt8) : 16 * (c / 16) + c % 16 = c := by
  have small := c.toNat_lt
  apply UInt8.toNat_inj.1
  simp only [UInt8.toNat_add, UInt8.toNat_mul, UInt8.toNat_div, UInt8.toNat_mod,
    UInt8.reduceToNat]
  omega

theorem percentDecode_encodeByte (c : UInt8) (t : List UInt8) :
    percentDecode (encodeByte c ++ t) = (percentDecode t).map (c :: ·) := by
  unfold encodeByte
  split
  · have high := (hexDigit_spec (high_lt c)).2
    have low := (hexDigit_spec (low_lt c)).2
    simp only [List.cons_append, List.nil_append, percentDecode, high, low, Option.bind_some,
      halves]
  · next kept =>
      have other : c ≠ 37 := by
        rintro rfl
        exact kept rfl
      rw [List.singleton_append, percentDecode, if_neg other]
      rintro high low rest rfl
      exact absurd rfl other

/-- **Decoding gives back what was encoded.** -/
theorem percentDecode_encode (s : List UInt8) : percentDecode (encode s) = some s := by
  induction s with
  | nil => rfl
  | cons c s ih =>
      have first : encode (c :: s) = encodeByte c ++ encode s := List.flatMap_cons
      rw [first, percentDecode_encodeByte, ih]
      rfl

theorem encode_injective : Function.Injective encode := by
  intro s t same
  have decoded := congrArg percentDecode same
  rw [percentDecode_encode, percentDecode_encode] at decoded
  exact Option.some.inj decoded

theorem percentEncoded_encodeByte (rest : PercentEncoded t) (c : UInt8) :
    PercentEncoded (encodeByte c ++ t) := by
  unfold encodeByte
  split
  · exact .escaped (hexDigit_spec (high_lt c)).1 (hexDigit_spec (low_lt c)).1 rest
  · next kept => exact .unreserved (unreserved_iff.2 (by simpa using kept)) rest

theorem percentEncoded_encode (s : List UInt8) : PercentEncoded (encode s) := by
  induction s with
  | nil => exact .nil
  | cons c s ih =>
      have first : encode (c :: s) = encodeByte c ++ encode s := List.flatMap_cons
      rw [first]
      exact percentEncoded_encodeByte ih c

theorem encode_append (s t : List UInt8) : encode (s ++ t) = encode s ++ encode t :=
  List.flatMap_append

/-- **The encoding**: it is made of unreserved characters and escaped bytes, decoding gives back
what was encoded, no two texts have one encoding, and texts can be encoded piece by piece. -/
theorem encodeStream_percent (s t : List UInt8) :
    PercentEncoded (encodeStream s) ∧ percentDecode (encodeStream s) = some s ∧
      Function.Injective encodeStream ∧
      encodeStream (s ++ t) = encodeStream s ++ encodeStream t := by
  have same : encodeStream = encode := funext encodeStream_eq
  rw [same]
  exact ⟨percentEncoded_encode s, percentDecode_encode s, encode_injective, encode_append s t⟩

end ChargerStack.Ocpp.Url
