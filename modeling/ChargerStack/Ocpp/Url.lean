/-
# Ocpp.Url -- the percent-encoding of ocpp/tool/url/Url.cpp

`Url::encode` works on bytes: a letter, a digit or one of four marks stays, any other
byte becomes a percent sign and its two hexadecimal digits.
-/
import Mathlib.Data.List.Basic

namespace ChargerStack.Ocpp.Url

set_option autoImplicit false

/-- `isalnum`, in the C locale. -/
def isalnum (c : UInt8) : Bool :=
  decide (48 ≤ c ∧ c ≤ 57) || decide (65 ≤ c ∧ c ≤ 90) || decide (97 ≤ c ∧ c ≤ 122)

/-- `'-', '_', '.', '~'`. -/
def unreservedChar : List UInt8 := [45, 95, 46, 126]

def shouldEncode (c : UInt8) : Bool := !isalnum c && !unreservedChar.contains c

/-- A digit as `std::uppercase << std::hex` prints it. -/
def hexDigit (n : UInt8) : UInt8 := if n < 10 then 48 + n else 55 + n

def encodeByte (c : UInt8) : List UInt8 :=
  if shouldEncode c then [37, hexDigit (c / 16), hexDigit (c % 16)] else [c]

/-- `Url::encode`. -/
def encode (str : List UInt8) : List UInt8 := str.flatMap encodeByte

example : encode [68, 101, 47, 195, 182] = [68, 101, 37, 50, 70, 37, 67, 51, 37, 66, 54] := by decide

end ChargerStack.Ocpp.Url
