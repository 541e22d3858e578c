/-
# Ocpp.Client -- what every part of `OCPPClient` shares

The connector queues, the frames the client writes, and the code it is linked
with.  The three senders build their frame the same way: a JSON array from
`const char *` texts and a copied payload, written by RapidJSON and taken back
as a C string.
-/
import ChargerStack.Ocpp.Message

namespace ChargerStack.Ocpp

open Cxx Rapidjson

set_option autoImplicit false

/-- RapidJSON's parser and writer and the schema validator, as the client calls
them. -/
structure Linked where
  parse : Parser
  /-- `ocppMsg.Accept(writer)`. -/
  write : Value → String
  validateRequest : String → Value → Bool
  validateResponse : String → Value → Bool

/-- `ConnectorContext`: the two queues a send thread serves and its flag. -/
structure ConnectorContext where
  txQueue : List String := []
  nonTxQueue : List String := []
  running : Bool := true
  deriving DecidableEq, Repr

namespace ConnectorContext

/-- `isTx ? ctx.txQueue.push(raw) : ctx.nonTxQueue.push(raw)`. -/
def push (ctx : ConnectorContext) (isTx : Bool) (raw : String) : ConnectorContext :=
  if isTx then { ctx with txQueue := ctx.txQueue ++ [raw] }
  else { ctx with nonTxQueue := ctx.nonTxQueue ++ [raw] }

/-- Everything waiting in the two queues. -/
def frames (ctx : ConnectorContext) : List String := ctx.txQueue ++ ctx.nonTxQueue

/-- The choice of `sendThread`: the transaction queue first. -/
def pop (ctx : ConnectorContext) : Option (String × ConnectorContext) :=
  match ctx.txQueue, ctx.nonTxQueue with
  | msg :: rest, _ => some (msg, { ctx with txQueue := rest })
  | [], msg :: rest => some (msg, { ctx with nonTxQueue := rest })
  | [], [] => none

theorem mem_frames_push {ctx : ConnectorContext} {isTx : Bool} {raw text : String} :
    text ∈ (ctx.push isTx raw).frames ↔ text ∈ ctx.frames ∨ text = raw := by
  cases isTx <;> simp only [push, frames, List.mem_append, List.mem_singleton, if_true, if_false,
    Bool.false_eq_true] <;> tauto

theorem mem_frames_of_pop {ctx rest : ConnectorContext} {msg text : String}
    (popped : ctx.pop = some (msg, rest)) (waiting : text ∈ rest.frames) : text ∈ ctx.frames := by
  unfold pop at popped
  split at popped <;> simp only [Option.some.injEq, Prod.mk.injEq, reduceCtorEq] at popped
  all_goals
    obtain ⟨rfl, rfl⟩ := popped
    simp only [frames, List.mem_append] at waiting ⊢
    grind

end ConnectorContext

/-! ## Frames -/

variable (linked : Linked)

/-- `[2, uniqueId, action, payload]` as `sendCall` writes it. -/
def callText (uniqueId action : String) (payload : Value) : String :=
  cStr (linked.write
    (.array [.int MessageType.call.toInt, .ofCStr uniqueId, .ofCStr action, payload]))

/-- `[3, uniqueId, payload]` as `sendCallResult` writes it. -/
def callResultText (uniqueId : String) (payload : Value) : String :=
  cStr (linked.write (.array [.int MessageType.callResult.toInt, .ofCStr uniqueId, payload]))

/-- `[4, uniqueId, errorCode, errorDescription, errorDetails]` as `sendCallError`
writes it. -/
def callErrorText (uniqueId errorCode errorDescription : String) (errorDetails : Value) : String :=
  cStr (linked.write (.array [.int MessageType.callError.toInt, .ofCStr uniqueId,
    .ofCStr errorCode, .ofCStr errorDescription, errorDetails]))

end ChargerStack.Ocpp
