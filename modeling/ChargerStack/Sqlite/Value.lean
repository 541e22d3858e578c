/-
# Sqlite.Value -- what SQLite does to a bound value

The storage classes the code can produce, the two column affinities its tables
use, and the getters of `Database::Query`.  Where SQLite converts between text and
number by rules of its own the conversion is a field of `Engine`; integers become
text in decimal.

A bound text is a C string: `sqlite3_bind_text` is called with length `-1`.
-/
import ChargerStack.Cxx.Basic
import Mathlib.Data.Rat.Defs

namespace ChargerStack.Sqlite

open Cxx

set_option autoImplicit false

/-- A stored value. -/
inductive Value where
  | null
  | integer (n : Int)
  | real (q : Rat)
  | text (s : String)
  deriving DecidableEq

/-- Column affinity: `VARCHAR` columns have the first, `INT`, `INTEGER` and `BIGINT`
columns the second. -/
inductive Affinity where
  | text
  | integer
  deriving DecidableEq, Repr

/-- The conversions SQLite decides. -/
structure Engine where
  /-- A text stored in a column of INTEGER affinity. -/
  numeric : String → Value
  /-- `sqlite3_column_int64` of a text. -/
  intOfText : String → Int
  /-- A real as text. -/
  textOfReal : Rat → String

def decimal (n : Int) : String := toString n

/-- `bind` of a C or C++ string. -/
def bindText (s : String) : Value := .text (cStr s)

namespace Engine

variable (engine : Engine)

/-- The value a column of that affinity keeps, and the one it is compared with. -/
def convert : Affinity → Value → Value
  | .text, .integer n => .text (decimal n)
  | .text, .real q => .text (engine.textOfReal q)
  | .integer, .text s => engine.numeric s
  | _, v => v

/-- `getInt64`; `getUInt32` is its cast. -/
def getInt64 : Value → Int
  | .null => 0
  | .integer n => n
  | .real q => q.num.tdiv q.den
  | .text s => engine.intOfText s

/-- `getString`: `NULL` is the empty string. -/
def getString : Value → String
  | .null => ""
  | .integer n => decimal n
  | .real q => engine.textOfReal q
  | .text s => cStr s

@[simp] theorem convert_text_bindText (s : String) :
    engine.convert .text (bindText s) = .text (cStr s) := rfl

@[simp] theorem convert_integer_integer (n : Int) :
    engine.convert .integer (.integer n) = .integer n := rfl

@[simp] theorem getInt64_integer (n : Int) : engine.getInt64 (.integer n) = n := rfl

end Engine

end ChargerStack.Sqlite
