/-
# Ocpp.Message -- the frame gate `validateOCPPMessage`

An OCPP-J frame is one of three arrays (`Message.toValue`).  Every text the
central system sends passes through `validateOCPPMessage` (`common/Connon.cpp`)
before anything else reads it.

The gate parses the text into a local document and then checks the shape of the
caller's document instead.  `parseMessage` hands it a default-constructed one,
which is `null`, so the first `Size()` of the shape check is a failed assertion:

* `validateOCPPMessage_null_of_named`: a text that gets as far as the shape check
  ends in that assertion;
* `gate_correct_iff_not_named`: the gate does what it is for exactly on the texts
  that never reach the shape check;
* `validateOCPPMessage_same`: the shape check itself is right, it accepts exactly
  the three frames when the two documents are one.
-/
import ChargerStack.Rapidjson.Value

namespace ChargerStack.Ocpp

open Cxx Rapidjson

set_option autoImplicit false

/-- `enum class MessageType`. -/
inductive MessageType where
  | call | callResult | callError | invalid
  deriving DecidableEq, Repr

def MessageType.toInt : MessageType → Int
  | .call => 2
  | .callResult => 3
  | .callError => 4
  | .invalid => 5

/-- The three frames of OCPP-J. -/
inductive Message where
  | call (uniqueId action : String) (payload : List (String × Value))
  | callResult (uniqueId : String) (payload : List (String × Value))
  | callError (uniqueId errorCode errorDescription : String) (errorDetails : List (String × Value))

namespace Message

def type : Message → MessageType
  | .call .. => .call
  | .callResult .. => .callResult
  | .callError .. => .callError

def uniqueId : Message → String
  | .call uniqueId .. => uniqueId
  | .callResult uniqueId .. => uniqueId
  | .callError uniqueId .. => uniqueId

/-- The array a frame is on the wire. -/
def toValue : Message → Value
  | .call uniqueId action payload =>
      .array [.int 2, .string uniqueId, .string action, .object payload]
  | .callResult uniqueId payload => .array [.int 3, .string uniqueId, .object payload]
  | .callError uniqueId code description details =>
      .array [.int 4, .string uniqueId, .string code, .string description, .object details]

/-- The frame an array is, if it has the exact shape of one. -/
def ofValue? : Value → Option Message
  | .array [.int t, .string uniqueId, .string action, .object payload] =>
      if t = 2 then some (.call uniqueId action payload) else none
  | .array [.int t, .string uniqueId, .object payload] =>
      if t = 3 then some (.callResult uniqueId payload) else none
  | .array [.int t, .string uniqueId, .string code, .string description, .object details] =>
      if t = 4 then some (.callError uniqueId code description details) else none
  | _ => none

@[simp] theorem ofValue?_toValue (m : Message) : ofValue? m.toValue = some m := by
  cases m <;> rfl

theorem toValue_of_ofValue? {v : Value} {m : Message} (read : ofValue? v = some m) :
    m.toValue = v := by
  unfold ofValue? at read
  split at read <;> simp only [Option.ite_none_right_eq_some, Option.some.injEq, reduceCtorEq] at read
  all_goals
    obtain ⟨rfl, rfl⟩ := read
    rfl

theorem ofValue?_eq_some_iff {v : Value} {m : Message} :
    ofValue? v = some m ↔ v = m.toValue :=
  ⟨fun read => (toValue_of_ofValue? read).symm, fun same => same ▸ ofValue?_toValue m⟩

end Message

/-! ## The gate, as written -/

/-- What a call of `validateOCPPMessage` leaves: its result and its two
out-parameters.  `type` is the integer under the enumeration, because
`static_cast<MessageType>` stores whatever the text said. -/
structure Validated where
  ret : Bool
  type : Int
  document : Value

/-- The `Call` block: `[_, string, string, object]`. -/
def checkCall (document : Value) : Except Failure Bool := do
  if (← document.size) ≠ 4 then return false
  else if ¬ (← document.at_ 1).isString then return false
  else if ¬ (← document.at_ 2).isString then return false
  else if ¬ (← document.at_ 3).isObject then return false
  else return true

/-- The `CallResult` block: `[_, string, object]`. -/
def checkCallResult (document : Value) : Except Failure Bool := do
  if (← document.size) ≠ 3 then return false
  else if ¬ (← document.at_ 1).isString then return false
  else if ¬ (← document.at_ 2).isObject then return false
  else return true

/-- The `CallError` block: `[_, string, string, string, object]`. -/
def checkCallError (document : Value) : Except Failure Bool := do
  if (← document.size) ≠ 5 then return false
  else if ¬ (← document.at_ 1).isString then return false
  else if ¬ (← document.at_ 2).isString then return false
  else if ¬ (← document.at_ 3).isString then return false
  else if ¬ (← document.at_ 4).isObject then return false
  else return true

/-- `validateOCPPMessage`.  `doc` is the local document, `document` and `type` the
caller's. -/
def validateOCPPMessage (parse : Parser) (jsonMessage : String) (type : Int) (document : Value) :
    Except Failure Validated :=
  match parse (cStr jsonMessage) with
  | none => .ok ⟨false, type, document⟩
  | some doc => do
      if ¬ doc.isArray then return ⟨false, type, document⟩
      else if (← doc.size) < 3 then return ⟨false, type, document⟩
      else if ¬ (← doc.at_ 0).isInt then return ⟨false, type, document⟩
      else
        let type ← (← doc.at_ 0).getInt
        if type < MessageType.call.toInt ∨ MessageType.callError.toInt < type then
          return ⟨false, type, document⟩
        -- From here on the source reads `document`, not `doc`.
        else if type = MessageType.call.toInt then return ⟨← checkCall document, type, document⟩
        else if type = MessageType.callResult.toInt then
          return ⟨← checkCallResult document, type, document⟩
        else if type = MessageType.callError.toInt then
          return ⟨← checkCallError document, type, document⟩
        else return ⟨false, type, document⟩

/-! ## The condition: the text names a message type -/

/-- An array of at least three elements that starts with the integer 2, 3 or 4:
everything the gate asks of its local document. -/
def NamesType (v : Value) : Prop :=
  ∃ t rest, v = .array (.int t :: rest) ∧ 2 ≤ rest.length ∧ 2 ≤ t ∧ t ≤ 4

theorem namesType_toValue (m : Message) : NamesType m.toValue := by
  cases m with
  | call uniqueId action payload => exact ⟨2, _, rfl, by simp, by omega, by omega⟩
  | callResult uniqueId payload => exact ⟨3, _, rfl, by simp, by omega, by omega⟩
  | callError uniqueId code description details => exact ⟨4, _, rfl, by simp, by omega, by omega⟩

/-- The text reaches the shape check: it parses to a value that names its type. -/
def ReachesShapeCheck (parse : Parser) (text : String) : Prop :=
  ∃ v, parse (cStr text) = some v ∧ NamesType v

/-- The block of the shape check that belongs to a message type. -/
def checkShape (type : Int) (document : Value) : Except Failure Bool :=
  if type = 2 then checkCall document
  else if type = 3 then checkCallResult document
  else checkCallError document

theorem validateOCPPMessage_of_named {parse : Parser} {text : String} {t : Int}
    {rest : List Value} (type : Int) (document : Value)
    (parsed : parse (cStr text) = some (.array (.int t :: rest)))
    (long : 2 ≤ rest.length) (low : 2 ≤ t) (high : t ≤ 4) :
    validateOCPPMessage parse text type document =
      (checkShape t document).map fun ret => ⟨ret, t, document⟩ := by
  have short : ¬ rest.length + 1 < 3 := by omega
  have fits : -2147483648 ≤ t ∧ t < 2147483648 := by omega
  have inRange : ¬ (t < 2 ∨ 4 < t) := by omega
  simp only [validateOCPPMessage, parsed, Value.isArray, Value.size, Value.at_, Value.isInt,
    Value.getInt, bind, Except.bind, pure, Except.pure, List.length_cons, List.getElem?_cons_zero,
    MessageType.toInt, checkShape]
  simp only [not_true, if_false, short, Int.reducePow, Int.reduceNeg, fits, and_self, decide_true,
    if_true, inRange]
  by_cases two : t = 2
  · subst two
    cases checkCall document <;> rfl
  · by_cases three : t = 3
    · subst three
      cases checkCallResult document <;> rfl
    · have four : t = 4 := by omega
      subst four
      cases checkCallError document <;> rfl

theorem validateOCPPMessage_of_not_named {parse : Parser} {text : String} (type : Int)
    (document : Value) (unnamed : ¬ ReachesShapeCheck parse text) :
    ∃ left, validateOCPPMessage parse text type document = .ok ⟨false, left, document⟩ := by
  unfold validateOCPPMessage
  cases parsed : parse (cStr text) with
  | none => exact ⟨type, rfl⟩
  | some v =>
      cases v with
      | array xs =>
          simp only [Value.isArray, Value.size, bind, Except.bind, pure, Except.pure, not_true,
            if_false]
          by_cases short : xs.length < 3
          · exact ⟨type, by simp [short]⟩
          · cases xs with
            | nil => simp at short
            | cons head rest =>
                simp only [short, if_false, Value.at_, List.getElem?_cons_zero]
                by_cases int : head.isInt = true
                · cases head with
                  | int t =>
                      have outside : t < 2 ∨ 4 < t := by
                        by_contra inside
                        refine unnamed ⟨_, parsed, t, rest, rfl, ?_, by omega, by omega⟩
                        simp only [List.length_cons] at short
                        omega
                      refine ⟨t, ?_⟩
                      simp only [int, not_true, if_false, Value.getInt, if_true, MessageType.toInt]
                      exact if_pos outside
                  | _ => simp [Value.isInt] at int
                · exact ⟨type, by simp [int]⟩
      | _ => exact ⟨type, rfl⟩

/-- **The defect.**  A text that gets to the shape check ends in a RapidJSON
assertion: the document checked is the caller's, and that one is `null`. -/
theorem validateOCPPMessage_null_of_named {parse : Parser} {text : String} (type : Int)
    (reaches : ReachesShapeCheck parse text) :
    validateOCPPMessage parse text type .null = .error .rapidjson := by
  obtain ⟨_, parsed, t, rest, rfl, long, low, high⟩ := reaches
  rw [validateOCPPMessage_of_named type .null parsed long low high]
  unfold checkShape
  split
  · rfl
  · split <;> rfl

/-! ## What the gate owes for one text -/

/-- The gate's contract for one text, with the caller's document default
constructed: it ends without an assertion, it accepts exactly the frames, and an
accepted text leaves its own document and message type in the out-parameters. -/
def GateCorrect (parse : Parser) (text : String) (type : Int) : Prop :=
  ∃ left, validateOCPPMessage parse text type .null = .ok left ∧
    (left.ret = true ↔ ∃ m : Message, parse (cStr text) = some m.toValue) ∧
    (left.ret = true → ∃ m : Message, parse (cStr text) = some m.toValue ∧
      left.type = m.type.toInt ∧ left.document = m.toValue)

/-- **The gate keeps its contract exactly on the texts that never reach the shape
check**: those that do not parse to an array of three or more elements headed by
2, 3 or 4.  In particular it accepts no frame at all. -/
theorem gate_correct_iff_not_named (parse : Parser) (text : String) (type : Int) :
    GateCorrect parse text type ↔ ¬ ReachesShapeCheck parse text := by
  constructor
  · rintro ⟨left, ran, -, -⟩ reaches
    rw [validateOCPPMessage_null_of_named type reaches] at ran
    cases ran
  · intro unnamed
    obtain ⟨left, ran⟩ := validateOCPPMessage_of_not_named type .null unnamed
    refine ⟨_, ran, ⟨?_, ?_⟩, ?_⟩
    · intro accepted; cases accepted
    · rintro ⟨m, parsed⟩
      exact absurd ⟨_, parsed, namesType_toValue m⟩ unnamed
    · intro accepted; cases accepted

/-- The smallest CallResult, an array of 3, `"a"` and the empty object, is a frame
the gate does not survive. -/
theorem gate_fails_on_smallest_result :
    ¬ GateCorrect (fun _ => some (.array [.int 3, .string "a", .object []]))
      "[3,\"a\",\x7b\x7d]" 0 := by
  rintro ⟨left, ran, -, -⟩
  rw [validateOCPPMessage_null_of_named 0
    ⟨_, rfl, 3, _, rfl, by simp, by omega, by omega⟩] at ran
  cases ran

/-! ## The shape check on the right document -/

theorem checkCall_array (h : Value) (rest : List Value) :
    checkCall (.array (h :: rest)) = .ok true ↔
      ∃ u a p, rest = [.string u, .string a, .object p] := by
  match rest with
  | [x, y, z] =>
      have computed : checkCall (.array [h, x, y, z]) =
          .ok (x.isString && y.isString && z.isObject) := by
        cases hx : x.isString <;> cases hy : y.isString <;> cases hz : z.isObject <;>
          simp [checkCall, Value.size, Value.at_, bind, Except.bind, pure, Except.pure, hx, hy, hz]
      simp only [computed, Except.ok.injEq, Bool.and_eq_true, Value.isString_iff,
        Value.isObject_iff, List.cons.injEq, and_true]
      grind
  | [] | [_] | [_, _] | _ :: _ :: _ :: _ :: _ =>
      simp [checkCall, Value.size, bind, Except.bind, pure, Except.pure]

theorem checkCallResult_array (h : Value) (rest : List Value) :
    checkCallResult (.array (h :: rest)) = .ok true ↔ ∃ u p, rest = [.string u, .object p] := by
  match rest with
  | [x, y] =>
      have computed : checkCallResult (.array [h, x, y]) = .ok (x.isString && y.isObject) := by
        cases hx : x.isString <;> cases hy : y.isObject <;>
          simp [checkCallResult, Value.size, Value.at_, bind, Except.bind, pure, Except.pure, hx, hy]
      simp only [computed, Except.ok.injEq, Bool.and_eq_true, Value.isString_iff,
        Value.isObject_iff, List.cons.injEq, and_true]
      grind
  | [] | [_] | _ :: _ :: _ :: _ =>
      simp [checkCallResult, Value.size, bind, Except.bind, pure, Except.pure]

theorem checkCallError_array (h : Value) (rest : List Value) :
    checkCallError (.array (h :: rest)) = .ok true ↔
      ∃ u c d p, rest = [.string u, .string c, .string d, .object p] := by
  match rest with
  | [w, x, y, z] =>
      have computed : checkCallError (.array [h, w, x, y, z]) =
          .ok (w.isString && x.isString && y.isString && z.isObject) := by
        cases hw : w.isString <;> cases hx : x.isString <;> cases hy : y.isString <;>
          cases hz : z.isObject <;>
          simp [checkCallError, Value.size, Value.at_, bind, Except.bind, pure, Except.pure, hw, hx,
            hy, hz]
      simp only [computed, Except.ok.injEq, Bool.and_eq_true, Value.isString_iff,
        Value.isObject_iff, List.cons.injEq, and_true]
      grind
  | [] | [_] | [_, _] | [_, _, _] | _ :: _ :: _ :: _ :: _ :: _ =>
      simp [checkCallError, Value.size, bind, Except.bind, pure, Except.pure]

/-- The block chosen by the head accepts exactly the frames with that head. -/
theorem checkShape_accepts_iff {t : Int} {rest : List Value} (low : 2 ≤ t) (high : t ≤ 4) :
    checkShape t (.array (.int t :: rest)) = .ok true ↔
      ∃ m : Message, .array (.int t :: rest) = m.toValue := by
  obtain rfl | rfl | rfl : t = 2 ∨ t = 3 ∨ t = 4 := by omega
  · refine (checkCall_array _ _).trans ⟨?_, ?_⟩
    · rintro ⟨u, a, p, rfl⟩
      exact ⟨.call u a p, rfl⟩
    · rintro ⟨m, same⟩
      cases m <;> simp_all [Message.toValue]
  · refine (checkCallResult_array _ _).trans ⟨?_, ?_⟩
    · rintro ⟨u, p, rfl⟩
      exact ⟨.callResult u p, rfl⟩
    · rintro ⟨m, same⟩
      cases m <;> simp_all [Message.toValue]
  · refine (checkCallError_array _ _).trans ⟨?_, ?_⟩
    · rintro ⟨u, c, d, p, rfl⟩
      exact ⟨.callError u c d p, rfl⟩
    · rintro ⟨m, same⟩
      cases m <;> simp_all [Message.toValue]

/-- **The shape check is right where it is given the parsed document**: handed the
document the text parses to, the gate accepts exactly the three frames. -/
theorem validateOCPPMessage_same {parse : Parser} {text : String} {doc : Value} (type : Int)
    (parsed : parse (cStr text) = some doc) :
    (∃ left, validateOCPPMessage parse text type doc = .ok ⟨true, left, doc⟩) ↔
      ∃ m : Message, doc = m.toValue := by
  by_cases reaches : ReachesShapeCheck parse text
  · obtain ⟨v, again, t, rest, rfl, long, low, high⟩ := reaches
    obtain rfl : doc = _ := Option.some.inj (parsed.symm.trans again)
    rw [validateOCPPMessage_of_named type _ parsed long low high, ← checkShape_accepts_iff low high]
    cases checkShape t (.array (.int t :: rest)) <;> simp [Except.map]
  · obtain ⟨left, ran⟩ := validateOCPPMessage_of_not_named type doc reaches
    rw [ran]
    constructor
    · rintro ⟨other, impossible⟩
      cases impossible
    · rintro ⟨m, rfl⟩
      exact absurd ⟨_, parsed, namesType_toValue m⟩ reaches

end ChargerStack.Ocpp
