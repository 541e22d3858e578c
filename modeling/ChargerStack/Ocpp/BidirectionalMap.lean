/-
# Ocpp.BidirectionalMap -- enumerations and their names

`BidirectionalMap` keeps one list of pairs in two maps; its constructor throws on a
repeated name or value, so a map that exists has neither, and the two lookups are
inverse to each other on it.  The maps of `EnumStrMappings.h` the model reads are at
the end.
-/
import Mathlib.Data.List.Nodup

namespace ChargerStack.Ocpp

set_option autoImplicit false

structure BidirectionalMap (E : Type) where
  pairs : List (String × E)
  strings : (pairs.map Prod.fst).Nodup
  values : (pairs.map Prod.snd).Nodup

namespace BidirectionalMap

variable {E : Type}

/-- `toEnum(str, defaultValue)`. -/
def toEnum (m : BidirectionalMap E) (str : String) (defaultValue : E) : E :=
  ((m.pairs.find? fun p => p.1 = str).map Prod.snd).getD defaultValue

/-- `toString(enumVal, defaultValue)`. -/
def toString [DecidableEq E] (m : BidirectionalMap E) (enumVal : E) (defaultValue : String) : String :=
  ((m.pairs.find? fun p => p.2 = enumVal).map Prod.fst).getD defaultValue

theorem find?_fst {pairs : List (String × E)} (strings : (pairs.map Prod.fst).Nodup)
    {p : String × E} (member : p ∈ pairs) : pairs.find? (fun q => q.1 = p.1) = some p := by
  induction pairs with
  | nil => cases member
  | cons q rest ih =>
      rw [List.map_cons, List.nodup_cons] at strings
      rcases List.mem_cons.1 member with rfl | inRest
      · simp
      · have apart : q.1 ≠ p.1 := fun same =>
          strings.1 (same ▸ List.mem_map_of_mem inRest)
        rw [List.find?_cons_of_neg (by simpa using apart)]
        exact ih strings.2 inRest

/-- **A value that has a name comes back from it.** -/
theorem toEnum_toString [DecidableEq E] (m : BidirectionalMap E) {e : E}
    (named : e ∈ m.pairs.map Prod.snd) (str : String) (d : E) : m.toEnum (m.toString e str) d = e := by
  obtain ⟨p, member, rfl⟩ := List.mem_map.1 named
  cases found : m.pairs.find? (fun q => q.2 = p.2) with
  | none => simpa using List.find?_eq_none.1 found p member
  | some q =>
      have same : q.2 = p.2 := by simpa using List.find?_some found
      have back := find?_fst m.strings (List.mem_of_find?_eq_some found)
      simp [toString, toEnum, found, back, same]

end BidirectionalMap

/-! ## The maps -/

/-- `enum class ChargePointStatus`. -/
inductive ChargePointStatus where
  | available | preparing | charging | suspendedEVSE | suspendedEV | finishing | reserved
  | unavailable | faulted
  deriving DecidableEq, Repr

def chargePointStatusMap : BidirectionalMap ChargePointStatus where
  pairs :=
    [("Available", .available), ("Preparing", .preparing), ("Charging", .charging),
      ("SuspendedEVSE", .suspendedEVSE), ("SuspendedEV", .suspendedEV), ("Finishing", .finishing),
      ("Reserved", .reserved), ("Unavailable", .unavailable), ("Faulted", .faulted)]
  strings := by decide
  values := by decide

theorem chargePointStatusMap_named (s : ChargePointStatus) :
    s ∈ chargePointStatusMap.pairs.map Prod.snd := by
  cases s <;> decide

/-- `enum class AuthorizationStatus`. -/
inductive AuthorizationStatus where
  | accepted | blocked | expired | invalid | concurrentTx | other
  deriving DecidableEq, Repr

/-- `static_cast<uint32_t>`. -/
def AuthorizationStatus.toInt : AuthorizationStatus → Int
  | .accepted => 0
  | .blocked => 1
  | .expired => 2
  | .invalid => 3
  | .concurrentTx => 4
  | .other => 5

theorem AuthorizationStatus.toInt_injective {s t : AuthorizationStatus}
    (same : s.toInt = t.toInt) : s = t := by
  cases s <;> cases t <;> simp_all [AuthorizationStatus.toInt]

def authorizationStatusMap : BidirectionalMap AuthorizationStatus where
  pairs :=
    [("Accepted", .accepted), ("Blocked", .blocked), ("Expired", .expired), ("Invalid", .invalid),
      ("ConcurrentTx", .concurrentTx), ("Other", .other)]
  strings := by decide
  values := by decide

/-- `enum class UpdateStatus`. -/
inductive UpdateStatus where
  | accepted | failed | notSupported | versionMismatch
  deriving DecidableEq, Repr

def updateStatusMap : BidirectionalMap UpdateStatus where
  pairs :=
    [("Accepted", .accepted), ("Failed", .failed), ("NotSupported", .notSupported),
      ("VersionMismatch", .versionMismatch)]
  strings := by decide
  values := by decide

end ChargerStack.Ocpp
