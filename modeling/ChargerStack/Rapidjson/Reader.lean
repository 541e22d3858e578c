/-
# Rapidjson.Reader -- `GenericReader`

`Document::Parse` of a C string, with the flags it has by default: no comments, no trailing commas,
nothing behind the document, and doubles in normal precision.  The reader is a scanner on what is
left of the stream; every error is `none`.

The arithmetic that makes a double of a literal is a parameter, which is `none` where the number is
too big.
-/
import ChargerStack.Lib.Scanner
import ChargerStack.Rapidjson.Value

namespace ChargerStack.Rapidjson.Reader

open Cxx Lib Lib.Scanner

set_option autoImplicit false

/-! ## Strings -/

/-- What `SkipWhitespace` skips. -/
def isSpace (c : Char) : Bool := c = ' ' || c = '\n' || c = '\r' || c = '\t'

/-- One round of `ParseHex4`. -/
def hexDigit? (c : Char) : Option Nat :=
  if '0' ≤ c ∧ c ≤ '9' then some (c.toNat - '0'.toNat)
  else if 'A' ≤ c ∧ c ≤ 'F' then some (c.toNat - ('A'.toNat - 10))
  else if 'a' ≤ c ∧ c ≤ 'f' then some (c.toNat - ('a'.toNat - 10))
  else none

def hexValue (digits : List Nat) : Nat := digits.foldl (fun codepoint d => codepoint * 16 + d) 0

def parseHex4 : Scanner Char Nat
  | a :: b :: c :: d :: s => ([a, b, c, d].mapM hexDigit?).map fun digits => (hexValue digits, s)
  | _ => none

/-- The table `escape`. -/
def escape? : Char → Option Char
  | '"' => some '"'
  | '/' => some '/'
  | '\\' => some '\\'
  | 'b' => some '\x08'
  | 'f' => some '\x0c'
  | 'n' => some '\n'
  | 'r' => some '\r'
  | 't' => some '\t'
  | _ => none

/-- The code point of a surrogate pair. -/
def surrogates (codepoint codepoint2 : Nat) : Nat :=
  ((codepoint - 0xD800) <<< 10 ||| (codepoint2 - 0xDC00)) + 0x10000

/-- Behind `\u`. -/
def parseUnicode : Scanner Char Char := fun s => do
  let (codepoint, s) ← parseHex4 s
  if 0xD800 ≤ codepoint ∧ codepoint ≤ 0xDFFF then
    if codepoint ≤ 0xDBFF then
      let s ← consume '\\' s
      let s ← consume 'u' s
      let (codepoint2, s) ← parseHex4 s
      if codepoint2 < 0xDC00 ∨ 0xDFFF < codepoint2 then none
      else some (Char.ofNat (surrogates codepoint codepoint2), s)
    else none
  else some (Char.ofNat codepoint, s)

/-- Behind a backslash. -/
def parseEscape : Scanner Char Char
  | [] => none
  | e :: s =>
      match escape? e with
      | some c => some (c, s)
      | none => if e = 'u' then parseUnicode s else none

/-- One round of `ParseStringToStream`. -/
def parseChar : Scanner Char Char
  | [] => none
  | c :: s => if c = '\\' then parseEscape s else if c.toNat < 0x20 then none else some (c, s)

/-- `ParseString`, whose loop has fuel `n`. -/
def parseString (n : Nat) : Scanner Char String := fun s => do
  let s ← consume '"' s
  let (cs, rest) ← closed '"' parseChar n s
  some (String.ofList cs, rest)

/-! ## Numbers -/

/-- A loop over digits that leaves before the number goes beyond `10 * limit + last`, and says
whether it did. -/
def accumulate (limit : Nat) (last : Char) : Nat → List Char → Nat × Bool × List Char
  | i, [] => (i, false, [])
  | i, c :: s =>
      if c.isDigit then
        if limit ≤ i ∧ (i ≠ limit ∨ last < c) then (i, true, c :: s)
        else accumulate limit last (10 * i + (c.toNat - '0'.toNat)) s
      else (i, false, c :: s)

/-- The loop on an `unsigned`, and behind it the one on an `uint64_t`; `none` where a double has to
do. -/
def parseDigits (limit32 : Nat) (last32 : Char) (limit64 : Nat) (last64 : Char) (i : Nat)
    (s : List Char) : Option Nat × List Char :=
  let (i, use64bit, s) := accumulate limit32 last32 i s
  if use64bit then
    let (i64, useDouble, s) := accumulate limit64 last64 i s
    if useDouble then (none, s.dropWhile Char.isDigit) else (some i64, s)
  else (some i, s)

/-- The integer of a number. -/
def parseInteger (minus : Bool) : List Char → Option (Option Nat × List Char)
  | [] => none
  | c :: s =>
      if c = '0' then some (some 0, s)
      else if '1' ≤ c ∧ c ≤ '9' then
        let i := c.toNat - '0'.toNat
        if minus then some (parseDigits 214748364 '8' 0x0CCCCCCCCCCCCCCC '8' i s)
        else some (parseDigits 429496729 '5' 0x1999999999999999 '5' i s)
      else none

/-- `1*DIGIT`. -/
def skipDigits (s : List Char) : Option (List Char) :=
  if s.takeWhile Char.isDigit = [] then none else some (s.dropWhile Char.isDigit)

/-- The fraction, and whether there is one. -/
def parseFraction (s : List Char) : Option (Bool × List Char) :=
  match consume '.' s with
  | none => some (false, s)
  | some s => (skipDigits s).map fun rest => (true, rest)

def parseSign (s : List Char) : List Char :=
  match consume '+' s with
  | some s => s
  | none => (consume '-' s).getD s

def parseExponent (s : List Char) : Option (Bool × List Char) :=
  match (consume 'e' s).or (consume 'E' s) with
  | none => some (false, s)
  | some s => (skipDigits (parseSign s)).map fun rest => (true, rest)

def parseNumber (strtod : List Char → Option Rat) : Scanner Char Value := fun s => do
  let minus := (consume '-' s).isSome
  let (integer, t) ← parseInteger minus ((consume '-' s).getD s)
  let (fraction, t) ← parseFraction t
  let (exponent, rest) ← parseExponent t
  match integer, fraction || exponent with
  | some i, false => some (.int (if minus then -i else i), rest)
  | _, _ => (strtod (s.take (s.length - rest.length))).map fun d => (.double d, rest)

/-! ## Values -/

def elements : Marks Char where
  blank := isSpace
  sep := ','
  close := ']'
  sep_solid := rfl
  close_solid := rfl
  apart := by decide

def members : Marks Char where
  blank := isSpace
  sep := ','
  close := '}'
  sep_solid := rfl
  close_solid := rfl
  apart := by decide

/-- The loop of `ParseArray`, behind its bracket. -/
def parseArray (value : Scanner Char Value) (n : Nat) : Scanner Char Value := fun s =>
  (listed elements value n s).map fun (xs, rest) => (.array xs, rest)

def parseObject (value : Scanner Char Value) (n : Nat) : Scanner Char Value := fun s =>
  (listed members (paired isSpace ':' (parseString n) value) n s).map fun (ms, rest) =>
    (.object ms, rest)

/-- `ParseValue`; a value has less than `n` characters. -/
def parseValue (strtod : List Char → Option Rat) : Nat → Scanner Char Value
  | 0, _ => none
  | _ + 1, [] => none
  | n + 1, c :: s =>
      if c = 'n' then expect .null ['u', 'l', 'l'] s
      else if c = 't' then expect (.bool true) ['r', 'u', 'e'] s
      else if c = 'f' then expect (.bool false) ['a', 'l', 's', 'e'] s
      else if c = '"' then (parseString n (c :: s)).map fun (t, rest) => (.string t, rest)
      else if c = '{' then parseObject (parseValue strtod n) n s
      else if c = '[' then parseArray (parseValue strtod n) n s
      else parseNumber strtod (c :: s)

/-- `Document::Parse`. -/
def parse (strtod : List Char → Option Rat) : Parser := fun text => do
  let s := (cStr text).toList.dropWhile isSpace
  let (v, rest) ← parseValue strtod (s.length + 1) s
  if rest.dropWhile isSpace = [] then some v else none

end ChargerStack.Rapidjson.Reader
