/-
# Rapidjson.Value -- JSON values and RapidJSON's checked accessors

The part of `rapidjson::Value` the OCPP code uses.  A value is a tree; a string
may hold NUL (the parser accepts the escape `\u0000`), an object is its member
list in document order, and names may repeat.

Every accessor that RapidJSON guards with `RAPIDJSON_ASSERT` returns an `Except`:
`.error .rapidjson` is the failed assertion (an `abort`, or a `parse_exception`
where `ocpp_json_minimal.h` is included first), and nothing after it runs.

`GetString` gives a `const char *`: wherever the source builds a `std::string`
from it the text ends at the first NUL (`Cxx.cStr`).
-/
import ChargerStack.Cxx.Basic
import Mathlib.Data.Rat.Defs

namespace ChargerStack.Rapidjson

open Cxx

set_option autoImplicit false

/-! ## Values -/

/-- A JSON value.  An integer literal that fits 64 bits is an `int`, any other
number a (finite) `double`. -/
inductive Value where
  | null
  | bool (b : Bool)
  | int (i : Int)
  | double (d : Rat)
  | string (s : String)
  | array (elements : List Value)
  | object (members : List (String × Value))

/-- `rapidjson::Type`: `true` and `false` are two types, all numbers are one. -/
inductive Kind where
  | null | false | true | object | array | string | number
  deriving DecidableEq, Repr

namespace Value

def getType : Value → Kind
  | .null => .null
  | .bool b => if b then .true else .false
  | .int _ => .number
  | .double _ => .number
  | .string _ => .string
  | .array _ => .array
  | .object _ => .object

def isArray : Value → Bool
  | .array _ => true
  | _ => false

def isObject : Value → Bool
  | .object _ => true
  | _ => false

def isString : Value → Bool
  | .string _ => true
  | _ => false

def isBool : Value → Bool
  | .bool _ => true
  | _ => false

/-- `IsInt`: an integer that fits `int`. -/
def isInt : Value → Bool
  | .int i => decide (-2 ^ 31 ≤ i ∧ i < 2 ^ 31)
  | _ => false

/-- `IsUint`: an integer that fits `unsigned`. -/
def isUint : Value → Bool
  | .int i => decide (0 ≤ i ∧ i < 2 ^ 32)
  | _ => false

/-- `IsDouble`: a number stored as a `double`. -/
def isDouble : Value → Bool
  | .double _ => true
  | _ => false

/-- `Size`, which asserts `IsArray`. -/
def size : Value → Except Failure Nat
  | .array xs => .ok xs.length
  | _ => .error .rapidjson

/-- `operator[](SizeType)`, which asserts `IsArray` and the bound. -/
def at_ : Value → Nat → Except Failure Value
  | .array xs, i =>
      match xs[i]? with
      | some v => .ok v
      | none => .error .rapidjson
  | _, _ => .error .rapidjson

/-- `GetInt`, which asserts `IsInt`. -/
def getInt (v : Value) : Except Failure Int :=
  match v with
  | .int i => if v.isInt then .ok i else .error .rapidjson
  | _ => .error .rapidjson

/-- `GetUint`, which asserts `IsUint`. -/
def getUint (v : Value) : Except Failure Nat :=
  match v with
  | .int i => if v.isUint then .ok i.toNat else .error .rapidjson
  | _ => .error .rapidjson

/-- `GetDouble`, which asserts a number.  An integer is given as it is, where the source
rounds those beyond 53 bits. -/
def getDouble : Value → Except Failure Rat
  | .double d => .ok d
  | .int i => .ok i
  | _ => .error .rapidjson

def getBool : Value → Except Failure Bool
  | .bool b => .ok b
  | _ => .error .rapidjson

/-- `GetString`, read as the C string it is. -/
def getString : Value → Except Failure String
  | .string s => .ok (cStr s)
  | _ => .error .rapidjson

/-- The first member of that name, as `FindMember` walks the member list. -/
def findMember (name : String) : List (String × Value) → Option Value
  | [] => none
  | m :: rest => if m.1 = name then some m.2 else findMember name rest

/-- `HasMember`, which asserts `IsObject`. -/
def hasMember (v : Value) (name : String) : Except Failure Bool :=
  match v with
  | .object ms => .ok (findMember name ms).isSome
  | _ => .error .rapidjson

/-- `operator[](name)`, which asserts `IsObject` and that the member is there. -/
def member (v : Value) (name : String) : Except Failure Value :=
  match v with
  | .object ms =>
      match findMember name ms with
      | some x => .ok x
      | none => .error .rapidjson
  | _ => .error .rapidjson

theorem isString_iff {v : Value} : v.isString = true ↔ ∃ s, v = .string s := by
  cases v <;> simp [isString]

theorem isObject_iff {v : Value} : v.isObject = true ↔ ∃ ms, v = .object ms := by
  cases v <;> simp [isObject]

/-- `SetString`/`PushBack` of a `const char *`: the value stops at the NUL. -/
def ofCStr (s : String) : Value := .string (cStr s)

end Value

/-- `Document::Parse` on a C string, `none` on a parse error.  The parser itself
is not modelled: it is a parameter of what reads messages. -/
abbrev Parser := String → Option Value

end ChargerStack.Rapidjson
