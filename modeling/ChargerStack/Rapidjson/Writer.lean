/-
# Rapidjson.Writer -- `Writer` and `PrettyWriter`

Both are handlers of events with a stack of levels that count the values put so far, and an
assertion for every event that does not fit.  They differ in what stands before a value and before
a closing bracket (`Layout`).  `GenericValue::Accept` sends a value as events.  The text of a
double, which is never an infinity here, is a parameter.

* `text`: the text of a value at a depth, without the events;
* `accept_eq`: the events of a value run into no assertion, and put its text.
-/
import ChargerStack.Rapidjson.Path

namespace ChargerStack.Rapidjson.Writer

open Cxx Value

set_option autoImplicit false

/-! ## Texts of leaves -/

/-- The table `escape`. -/
def escape? (c : Char) : Option Char :=
  if c = '\x08' then some 'b'
  else if c = '\t' then some 't'
  else if c = '\n' then some 'n'
  else if c = '\x0c' then some 'f'
  else if c = '\r' then some 'r'
  else if c.toNat < 0x20 then some 'u'
  else if c = '"' then some '"'
  else if c = '\\' then some '\\'
  else none

def hexDigits : List Char :=
  ['0', '1', '2', '3', '4', '5', '6', '7', '8', '9', 'A', 'B', 'C', 'D', 'E', 'F']

def hexDigit (n : Nat) : Char := hexDigits.getD n '0'

def writeChar (c : Char) : List Char :=
  match escape? c with
  | none => [c]
  | some e =>
      '\\' :: e ::
        (if e = 'u' then ['0', '0', hexDigit (c.toNat >>> 4), hexDigit (c.toNat &&& 0xF)] else [])

def writeString (s : String) : List Char := '"' :: (s.toList.flatMap writeChar ++ ['"'])

def writeBool (b : Bool) : List Char :=
  if b then ['t', 'r', 'u', 'e'] else ['f', 'a', 'l', 's', 'e']

/-- `WriteInt`, `WriteUint`, `WriteInt64` and `WriteUint64`. -/
def writeInt (i : Int) : List Char :=
  if i < 0 then '-' :: Nat.toDigits 10 i.natAbs else Nat.toDigits 10 i.natAbs

/-! ## Events -/

structure Level where
  valueCount : Nat := 0
  inArray : Bool

/-- What has been put, the levels with the inmost first, and whether there is a root. -/
structure State where
  os : List Char := []
  levelStack : List Level := []
  hasRoot : Bool := false

/-- What stands before a value of a level, and before its closing bracket, at a size of the stack. -/
structure Layout where
  before : Level → Nat → List Char
  ending : Level → Nat → List Char

/-- `Writer::Prefix`. -/
def compact : Layout where
  before level _ :=
    if 0 < level.valueCount then
      if level.inArray then [','] else if level.valueCount % 2 = 0 then [','] else [':']
    else []
  ending _ _ := []

def writeIndent (size : Nat) : List Char := List.replicate (size * 4) ' '

/-- `PrettyWriter::PrettyPrefix`, `EndObject` and `EndArray`. -/
def pretty : Layout where
  before level size :=
    if level.inArray then (if 0 < level.valueCount then [','] else []) ++ '\n' :: writeIndent size
    else
      (if 0 < level.valueCount then
        if level.valueCount % 2 = 0 then [',', '\n'] else [':', ' ']
      else ['\n']) ++
        (if level.valueCount % 2 = 0 then writeIndent size else [])
  ending level size := if level.valueCount = 0 then [] else '\n' :: writeIndent size

section Events

variable (layout : Layout) (dtoa : Rat → List Char)

/-- The assertions before a value: one root, and names that are strings. -/
def fits (type : Kind) (w : State) : Bool :=
  match w.levelStack with
  | [] => !w.hasRoot
  | level :: _ => level.inArray || level.valueCount % 2 ≠ 0 || type = .string

/-- A value is entered in its level. -/
def enter (w : State) : State :=
  match w.levelStack with
  | [] => { w with hasRoot := true }
  | level :: levels =>
      { w with
        os := w.os ++ layout.before level (levels.length + 1)
        levelStack := { level with valueCount := level.valueCount + 1 } :: levels }

def prefix_ (type : Kind) (w : State) : Except Failure State :=
  if fits type w then .ok (enter layout w) else .error .rapidjson

def put (text : List Char) (w : State) : State := { w with os := w.os ++ text }

def withLevels (levels : List Level) (w : State) : State := { w with levelStack := levels }

def null (w : State) : Except Failure State := do
  let w ← prefix_ layout .null w
  return put ['n', 'u', 'l', 'l'] w

def bool (b : Bool) (w : State) : Except Failure State := do
  let w ← prefix_ layout (if b then .true else .false) w
  return put (writeBool b) w

def int (i : Int) (w : State) : Except Failure State := do
  let w ← prefix_ layout .number w
  return put (writeInt i) w

def double (d : Rat) (w : State) : Except Failure State := do
  let w ← prefix_ layout .number w
  return put (dtoa d) w

/-- `String` and `Key`. -/
def string (s : String) (w : State) : Except Failure State := do
  let w ← prefix_ layout .string w
  return put (writeString s) w

def opening (inArray : Bool) : Char := if inArray then '[' else '{'

def closing (inArray : Bool) : Char := if inArray then ']' else '}'

/-- `StartArray` and `StartObject`. -/
def start (inArray : Bool) (w : State) : Except Failure State := do
  let w ← prefix_ layout (if inArray then .array else .object) w
  return withLevels ({ inArray } :: w.levelStack) (put [opening inArray] w)

/-- `EndArray` and `EndObject`. -/
def finish (inArray : Bool) (w : State) : Except Failure State :=
  match w.levelStack with
  | [] => .error .rapidjson
  | level :: levels =>
      if level.inArray = inArray ∧ (inArray = false → level.valueCount % 2 = 0) then
        .ok (withLevels levels (put (layout.ending level levels.length ++ [closing inArray]) w))
      else .error .rapidjson

mutual

def accept : Value → State → Except Failure State
  | .null, w => null layout w
  | .bool b, w => bool layout b w
  | .int i, w => int layout i w
  | .double d, w => double layout dtoa d w
  | .string s, w => string layout s w
  | .array xs, w => do
      let w ← start layout true w
      let w ← acceptElements xs w
      finish layout true w
  | .object ms, w => do
      let w ← start layout false w
      let w ← acceptMembers ms w
      finish layout false w

def acceptElements : List Value → State → Except Failure State
  | [], w => .ok w
  | x :: xs, w => do
      let w ← accept x w
      acceptElements xs w

def acceptMembers : Members → State → Except Failure State
  | [], w => .ok w
  | (name, v) :: ms, w => do
      let w ← string layout name w
      let w ← accept v w
      acceptMembers ms w

end

/-- What a fresh writer has put behind the events of a value. -/
def write (v : Value) : Except Failure (List Char) := (accept layout dtoa v {}).map State.os

/-! ## The text of a value -/

mutual

def text (size : Nat) : Value → List Char
  | .null => ['n', 'u', 'l', 'l']
  | .bool b => writeBool b
  | .int i => writeInt i
  | .double d => dtoa d
  | .string s => writeString s
  | .array xs => '[' :: (textElements (size + 1) 0 xs ++ (layout.ending ⟨xs.length, true⟩ size ++ [']']))
  | .object ms =>
      '{' :: (textMembers (size + 1) 0 ms ++ (layout.ending ⟨2 * ms.length, false⟩ size ++ ['}']))

/-- Behind `count` values of the array. -/
def textElements (size count : Nat) : List Value → List Char
  | [] => []
  | x :: xs => layout.before ⟨count, true⟩ size ++ (text size x ++ textElements size (count + 1) xs)

def textMembers (size count : Nat) : Members → List Char
  | [] => []
  | (name, v) :: ms =>
      layout.before ⟨count, false⟩ size ++ (writeString name ++
        (layout.before ⟨count + 1, false⟩ size ++ (text size v ++ textMembers size (count + 2) ms)))

end

end Events

/-! ## The events put the text -/

variable {layout : Layout} {dtoa : Rat → List Char}

/-- A value of any type may come. -/
def Open (w : State) : Prop := ∀ type, fits type w = true

theorem prefix_of_fits {type : Kind} {w : State} (fit : fits type w = true) :
    prefix_ layout type w = .ok (enter layout w) := if_pos fit

theorem start_of_open {w : State} (open_ : Open w) (inArray : Bool) :
    start layout inArray w =
      .ok (withLevels ({ inArray } :: (enter layout w).levelStack)
        (put [opening inArray] (enter layout w))) := by
  rw [start, prefix_of_fits (open_ _)]
  rfl

/-- The elements of an array. -/
theorem acceptElements_eq {xs : List Value}
    (each : ∀ x ∈ xs, ∀ w, Open w →
      accept layout dtoa x w = .ok (put (text layout dtoa w.levelStack.length x) (enter layout w)))
    (w : State) (count : Nat) (levels : List Level) (top : w.levelStack = ⟨count, true⟩ :: levels) :
    acceptElements layout dtoa xs w =
      .ok (withLevels (⟨count + xs.length, true⟩ :: levels)
        (put (textElements layout dtoa (levels.length + 1) count xs) w)) := by
  induction xs generalizing w count with
  | nil =>
      cases w
      cases top
      simp [acceptElements, withLevels, put, textElements]
  | cons x xs ih =>
      have open_ : Open w := by
        intro type
        rw [fits, top]
        rfl
      have entered : enter layout w =
          { w with
            os := w.os ++ layout.before ⟨count, true⟩ (levels.length + 1)
            levelStack := ⟨count + 1, true⟩ :: levels } := by
        rw [enter, top]
      have later := ih (fun y inside => each y (List.mem_cons_of_mem x inside))
        (put (text layout dtoa w.levelStack.length x) (enter layout w)) (count + 1)
        (by rw [entered]; rfl)
      rw [acceptElements, each x List.mem_cons_self w open_]
      show acceptElements layout dtoa xs _ = _
      rw [later, entered]
      simp [withLevels, put, textElements, top, Nat.add_comm, Nat.add_left_comm]

/-- The members of an object. -/
theorem acceptMembers_eq {ms : Members}
    (each : ∀ m ∈ ms, ∀ w, Open w → accept layout dtoa m.2 w =
      .ok (put (text layout dtoa w.levelStack.length m.2) (enter layout w)))
    (w : State) (count : Nat) (even : count % 2 = 0) (levels : List Level)
    (top : w.levelStack = ⟨count, false⟩ :: levels) :
    acceptMembers layout dtoa ms w =
      .ok (withLevels (⟨count + 2 * ms.length, false⟩ :: levels)
        (put (textMembers layout dtoa (levels.length + 1) count ms) w)) := by
  induction ms generalizing w count with
  | nil =>
      cases w
      cases top
      simp [acceptMembers, withLevels, put, textMembers]
  | cons m ms ih =>
      obtain ⟨name, v⟩ := m
      have named : string layout name w =
          .ok { w with
                os := w.os ++ layout.before ⟨count, false⟩ (levels.length + 1) ++ writeString name
                levelStack := ⟨count + 1, false⟩ :: levels } := by
        have fit : fits .string w = true := by
          rw [fits, top]
          simp
        rw [string, prefix_of_fits fit]
        simp [enter, top, put, bind, Except.bind, pure, Except.pure]
      generalize keyed : ({ w with
        os := w.os ++ layout.before ⟨count, false⟩ (levels.length + 1) ++ writeString name
        levelStack := ⟨count + 1, false⟩ :: levels } : State) = w' at named
      have top' : w'.levelStack = ⟨count + 1, false⟩ :: levels := by rw [← keyed]
      have open_ : Open w' := by
        intro type
        rw [fits, top']
        have odd : (count + 1) % 2 = 1 := by omega
        simp [odd]
      have entered : enter layout w' =
          { w' with
            os := w'.os ++ layout.before ⟨count + 1, false⟩ (levels.length + 1)
            levelStack := ⟨count + 2, false⟩ :: levels } := by
        rw [enter, top']
      have valued := each (name, v) List.mem_cons_self w' open_
      have later := ih (fun n inside => each n (List.mem_cons_of_mem _ inside))
        (put (text layout dtoa w'.levelStack.length v) (enter layout w')) (count + 2) (by omega)
        (by rw [entered]; rfl)
      rw [acceptMembers, named]
      show (accept layout dtoa v w' >>= _) = _
      rw [valued]
      show acceptMembers layout dtoa ms _ = _
      rw [later, entered, ← keyed]
      have counted : count + 2 + 2 * ms.length = count + 2 * (ms.length + 1) := by omega
      simp [withLevels, put, textMembers, counted]

theorem levelStack_enter (w : State) :
    (enter layout w).levelStack.length = w.levelStack.length := by
  unfold enter
  cases w.levelStack with
  | nil => rfl
  | cons level levels => rfl

/-- **The events of a value** put its text, wherever a value may come. -/
theorem accept_eq (v : Value) (w : State) (open_ : Open w) :
    accept layout dtoa v w = .ok (put (text layout dtoa w.levelStack.length v) (enter layout w)) := by
  induction v using byParts generalizing w with
  | leaf v object array =>
      cases v with
      | null =>
          rw [accept, null, prefix_of_fits (open_ _), text]
          rfl
      | bool b =>
          rw [accept, bool, prefix_of_fits (open_ _), text]
          rfl
      | int i =>
          rw [accept, int, prefix_of_fits (open_ _), text]
          rfl
      | double d =>
          rw [accept, double, prefix_of_fits (open_ _), text]
          rfl
      | string s =>
          rw [accept, string, prefix_of_fits (open_ _), text]
          rfl
      | array xs => cases array
      | object ms => cases object
  | array xs ih =>
      have inside := acceptElements_eq ih
        (withLevels (⟨0, true⟩ :: (enter layout w).levelStack) (put ['['] (enter layout w))) 0
        (enter layout w).levelStack rfl
      rw [accept, start_of_open open_]
      show (acceptElements layout dtoa xs (withLevels _ (put ['['] _)) >>= _) = _
      rw [inside]
      simp [bind, Except.bind, finish, withLevels, put, text, closing, levelStack_enter]
  | object ms ih =>
      have inside := acceptMembers_eq ih
        (withLevels (⟨0, false⟩ :: (enter layout w).levelStack) (put ['\x7b'] (enter layout w))) 0 rfl
        (enter layout w).levelStack rfl
      rw [accept, start_of_open open_]
      show (acceptMembers layout dtoa ms (withLevels _ (put ['\x7b'] _)) >>= _) = _
      rw [inside]
      simp [bind, Except.bind, finish, withLevels, put, text, closing, levelStack_enter]

/-- A writer puts the text of a value. -/
theorem write_eq (layout : Layout) (dtoa : Rat → List Char) (v : Value) :
    write layout dtoa v = .ok (text layout dtoa 0 v) := by
  rw [write, accept_eq v {} fun _ => rfl]
  rfl

end ChargerStack.Rapidjson.Writer
