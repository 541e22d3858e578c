/-
# Ocpp.DateTime -- the times of common/Time.h and their texts

A `DateTime` is a `time_t`.  `str` writes it with `gmtime_r` and `put_time`; `assign` reads a text
with `get_time`, first with a `Z` behind the seconds and then without, has `mktime` take it for
standard time of the local zone, and moves the result by what `mktime` says of the zone.

* `assign_dateTime_iff`: a text that begins as `str` writes a time is read as that time, whatever
  follows, in every zone in which summer time is an hour ahead, and otherwise where there is no
  summer time;
* `gmtime_assign`: a text that names a time there is is read as the time with these fields.
-/
import ChargerStack.Lib.Calendar

namespace ChargerStack.Ocpp.DateTime

open Lib.Calendar

set_option autoImplicit false

/-! ## The C library -/

/-- `struct tm`, with the year and the month as they are written. -/
structure Tm where
  year : Int
  month : Int
  day : Int
  hour : Int
  min : Int
  sec : Int
  deriving DecidableEq, Repr

def gmtime (t : Int) : Tm :=
  let date := ofDays (t / 86400)
  let sec := t % 86400
  ⟨date.year, date.month, date.day, sec / 3600, sec / 60 % 60, sec % 60⟩

/-- The time with these fields, in UTC; they may go beyond their ranges. -/
def timegm (tm : Tm) : Int :=
  toDays ⟨tm.year, tm.month, tm.day⟩ * 86400 + tm.hour * 3600 + tm.min * 60 + tm.sec

/-- A zone: its standard time, how far summer time is ahead of that, and when it is. -/
structure Zone where
  gmtoff : Int
  ahead : Int
  isDst : Int → Bool

/-- `mktime` of a `tm` whose `tm_isdst` is 0: the time, `tm_gmtoff` and `tm_isdst`. -/
def mktime (zone : Zone) (tm : Tm) : Int × Int × Int :=
  let t := timegm tm - zone.gmtoff
  if zone.isDst t then (t, zone.gmtoff + zone.ahead, 1) else (t, zone.gmtoff, 0)

/-- White space, which `>>` skips. -/
def isSpace (c : Char) : Bool :=
  c = ' ' || c = '\t' || c = '\n' || c = '\x0b' || c = '\x0c' || c = '\r'

/-- A number of `get_time`, of at most `len` digits. -/
def number (len lo hi : Nat) (s : List Char) : Option (Nat × List Char) :=
  let digits := (s.take len).takeWhile Char.isDigit
  let n := Nat.ofDigitChars 10 digits 0
  if digits ≠ [] ∧ lo ≤ n ∧ n ≤ hi then some (n, s.drop digits.length) else none

def literal (c : Char) : List Char → Option (List Char)
  | d :: s => if d = c then some s else none
  | [] => none

/-- `ss >> std::get_time(&t, "%Y-%m-%dT%TZ")`, or without the `Z`. -/
def getTime (zulu : Bool) (s : List Char) : Option Tm := do
  let (year, s) ← number 4 0 9999 (s.dropWhile isSpace)
  let s ← literal '-' s
  let (month, s) ← number 2 1 12 s
  let s ← literal '-' s
  let (day, s) ← number 2 1 31 s
  let s ← literal 'T' s
  let (hour, s) ← number 2 0 23 s
  let s ← literal ':' s
  let (min, s) ← number 2 0 59 s
  let s ← literal ':' s
  let (sec, s) ← number 2 0 60 s
  let _ ← if zulu then literal 'Z' s else some s
  some ⟨year, month, day, hour, min, sec⟩

/-- `%02d`. -/
def pad (n : Nat) : List Char :=
  List.replicate (2 - (Nat.toDigits 10 n).length) '0' ++ Nat.toDigits 10 n

/-- `%Y`. -/
def putYear (year : Int) : List Char :=
  if year < 0 then '-' :: Nat.toDigits 10 year.natAbs else Nat.toDigits 10 year.natAbs

/-! ## DateTime -/

/-- `put_time(&t, "%Y-%m-%dT%T")`. -/
def putTime (tm : Tm) : List Char :=
  putYear tm.year ++ '-' :: pad tm.month.toNat ++ '-' :: pad tm.day.toNat ++
    'T' :: pad tm.hour.toNat ++ ':' :: pad tm.min.toNat ++ ':' :: pad tm.sec.toNat

def str (t : Int) : List Char := putTime (gmtime t) ++ ['Z']

/-- `assign`; where it is `none` the call returns false and changes nothing. -/
def assign (zone : Zone) (value : List Char) : Option Int :=
  ((getTime true value).or (getTime false value)).map fun tm =>
    let (t, gmtoff, isdst) := mktime zone tm
    t + gmtoff - isdst * 3600

/-! ## What is written is read -/

variable {n lo hi : Nat} {ds rest : List Char}

theorem takeWhile_digits (digits : ∀ c ∈ ds, c.isDigit = true) : ds.takeWhile Char.isDigit = ds := by
  induction ds with
  | nil => rfl
  | cons c ds ih =>
    rw [List.takeWhile_cons, if_pos (digits c List.mem_cons_self)]
    congr 1
    exact ih fun d mem => digits d (List.mem_cons_of_mem c mem)

theorem number_digits (digits : ∀ c ∈ ds, c.isDigit = true) (one : ds ≠ [])
    (low : lo ≤ Nat.ofDigitChars 10 ds 0) (high : Nat.ofDigitChars 10 ds 0 ≤ hi) :
    number ds.length lo hi (ds ++ rest) = some (Nat.ofDigitChars 10 ds 0, rest) := by
  simp [number, takeWhile_digits digits, one, low, high]

theorem pad_digits : ∀ c ∈ pad n, c.isDigit = true := by
  intro c mem
  rcases List.mem_append.1 mem with zero | digit
  · rw [List.eq_of_mem_replicate zero]
    rfl
  · exact Nat.isDigit_of_mem_toDigits (by decide) (by decide) digit

theorem pad_length (two : n < 100) : (pad n).length = 2 := by
  have short : (Nat.toDigits 10 n).length ≤ 2 := (Nat.length_toDigits_le_iff (by decide) (by decide)).2 two
  rw [pad, List.length_append, List.length_replicate]
  omega

theorem pad_value : Nat.ofDigitChars 10 (pad n) 0 = n := by
  rw [pad, Nat.ofDigitChars_append, Nat.ofDigitChars_replicate_zero]
  simp

/-- A field of two digits, which the next literal follows. -/
theorem number_pad (two : n < 100) (low : lo ≤ n) (high : n ≤ hi) :
    number 2 lo hi (pad n ++ rest) = some (n, rest) := by
  have length := pad_length two
  have one : pad n ≠ [] := fun empty => by simp [empty] at length
  have read : number (pad n).length lo hi (pad n ++ rest) = _ :=
    number_digits pad_digits one (by rwa [pad_value]) (by rwa [pad_value])
  rwa [length, pad_value] at read

theorem number_putYear {year : Int} (low : 1000 ≤ year) (high : year ≤ 9999) :
    number 4 0 9999 (putYear year ++ rest) = some (year.toNat, rest) := by
  have same : year.natAbs = year.toNat := by omega
  have written : putYear year = Nat.toDigits 10 year.toNat := by
    rw [putYear, if_neg (by omega), same]
  have short : (Nat.toDigits 10 year.toNat).length ≤ 4 :=
    (Nat.length_toDigits_le_iff (by decide) (by decide)).2 (by omega)
  have long : ¬ (Nat.toDigits 10 year.toNat).length ≤ 3 := fun three => by
    have less := (Nat.length_toDigits_le_iff (by decide) (by decide)).1 three
    omega
  have length : (Nat.toDigits 10 year.toNat).length = 4 := by omega
  have read : number (Nat.toDigits 10 year.toNat).length 0 9999 (Nat.toDigits 10 year.toNat ++ rest) = _ :=
    number_digits (fun c mem => Nat.isDigit_of_mem_toDigits (by decide) (by decide) mem)
      Nat.toDigits_ne_nil (Nat.zero_le _) (by rw [Nat.ofDigitChars_ten_toDigits]; omega)
  rwa [length, Nat.ofDigitChars_ten_toDigits, ← written] at read

/-- The fields are in the ranges `get_time` takes, the year in four digits. -/
structure Tm.InRange (tm : Tm) : Prop where
  year : 1000 ≤ tm.year ∧ tm.year ≤ 9999
  month : 1 ≤ tm.month ∧ tm.month ≤ 12
  day : 1 ≤ tm.day ∧ tm.day ≤ 31
  hour : 0 ≤ tm.hour ∧ tm.hour ≤ 23
  min : 0 ≤ tm.min ∧ tm.min ≤ 59
  sec : 0 ≤ tm.sec ∧ tm.sec ≤ 60

theorem literal_cons (c : Char) : literal c (c :: rest) = some rest := if_pos rfl

theorem not_digit_of_isSpace {c : Char} (space : isSpace c = true) : c.isDigit = false := by
  simp only [isSpace, Bool.or_eq_true, decide_eq_true_eq] at space
  obtain ((((rfl | rfl) | rfl) | rfl) | rfl) | rfl := space <;> rfl

/-- The year is written without white space before it. -/
theorem dropWhile_putYear {year : Int} (low : 0 ≤ year) :
    (putYear year ++ rest).dropWhile isSpace = putYear year ++ rest := by
  have written : putYear year = Nat.toDigits 10 year.natAbs := if_neg (by omega)
  rw [written]
  obtain ⟨c, cs, digits⟩ := List.exists_cons_of_ne_nil (Nat.toDigits_ne_nil (n := year.natAbs) (b := 10))
  have digit : c.isDigit = true :=
    Nat.isDigit_of_mem_toDigits (by decide) (by decide) (digits ▸ List.mem_cons_self)
  rw [digits, List.cons_append, List.dropWhile_cons, if_neg]
  intro white
  exact Bool.false_ne_true ((not_digit_of_isSpace white).symm.trans digit)

/-- What `put_time` writes, `get_time` reads, whatever follows; with a `Z` in the format it has to. -/
theorem getTime_putTime {tm : Tm} (range : tm.InRange) (zulu : Bool) :
    getTime zulu (putTime tm ++ rest) =
      (if zulu then literal 'Z' rest else some rest).map fun _ => tm := by
  obtain ⟨year, month, day, hour, min, sec⟩ := range
  have yearRead : ((tm.year.toNat : Nat) : Int) = tm.year := Int.toNat_of_nonneg (by omega)
  have monthRead : ((tm.month.toNat : Nat) : Int) = tm.month := Int.toNat_of_nonneg (by omega)
  have dayRead : ((tm.day.toNat : Nat) : Int) = tm.day := Int.toNat_of_nonneg (by omega)
  have hourRead : ((tm.hour.toNat : Nat) : Int) = tm.hour := Int.toNat_of_nonneg (by omega)
  have minRead : ((tm.min.toNat : Nat) : Int) = tm.min := Int.toNat_of_nonneg (by omega)
  have secRead : ((tm.sec.toNat : Nat) : Int) = tm.sec := Int.toNat_of_nonneg (by omega)
  simp only [getTime, putTime, List.append_assoc, List.cons_append]
  rw [dropWhile_putYear (by omega), number_putYear year.1 year.2]
  simp only [Option.bind_eq_bind, Option.bind_some, literal_cons]
  rw [number_pad (by omega) (by omega) (by omega)]
  simp only [Option.bind_some, literal_cons]
  rw [number_pad (by omega) (by omega) (by omega)]
  simp only [Option.bind_some, literal_cons]
  rw [number_pad (by omega) (by omega) (by omega)]
  simp only [Option.bind_some, literal_cons]
  rw [number_pad (by omega) (by omega) (by omega)]
  simp only [Option.bind_some, literal_cons]
  rw [number_pad (by omega) (by omega) (by omega)]
  simp only [Option.bind_some, yearRead, monthRead, dayRead, hourRead, minRead, secRead]
  cases zulu with
  | true => exact Option.map_eq_bind.symm
  | false => rfl

/-! ## Fields and times -/

/-- There is a time with these fields; no day has a second 60. -/
structure Tm.Valid (tm : Tm) : Prop where
  date : Date.Valid ⟨tm.year, tm.month, tm.day⟩
  hour : 0 ≤ tm.hour ∧ tm.hour ≤ 23
  min : 0 ≤ tm.min ∧ tm.min ≤ 59
  sec : 0 ≤ tm.sec ∧ tm.sec ≤ 59

theorem valid_gmtime (t : Int) : (gmtime t).Valid := by
  have date := valid_ofDays (t / 86400)
  constructor
  · exact date
  all_goals
    simp only [gmtime]
    omega

theorem timegm_gmtime (t : Int) : timegm (gmtime t) = t := by
  have days : toDays ⟨(gmtime t).year, (gmtime t).month, (gmtime t).day⟩ = t / 86400 :=
    toDays_ofDays (t / 86400)
  rw [timegm, days]
  simp only [gmtime]
  omega

theorem gmtime_timegm {tm : Tm} (valid : tm.Valid) : gmtime (timegm tm) = tm := by
  obtain ⟨date, hour, min, sec⟩ := valid
  have days : timegm tm / 86400 = toDays ⟨tm.year, tm.month, tm.day⟩ := by
    unfold timegm
    omega
  have rest : timegm tm % 86400 = tm.hour * 3600 + tm.min * 60 + tm.sec := by
    unfold timegm
    omega
  rw [gmtime, days, rest, ofDays_toDays date]
  cases tm
  simp only [Tm.mk.injEq, true_and] at hour min sec ⊢
  omega

/-- The fields of a time are those it was made from where there is a time with them. -/
theorem gmtime_timegm_iff (tm : Tm) : gmtime (timegm tm) = tm ↔ tm.Valid :=
  ⟨fun same => same ▸ valid_gmtime _, gmtime_timegm⟩

/-- The fields `get_time` finds. -/
def read (value : List Char) : Option Tm := (getTime true value).or (getTime false value)

/-- What the zone adds to the time that is written. -/
def Zone.slip (zone : Zone) (t : Int) : Int :=
  if zone.isDst (t - zone.gmtoff) then zone.ahead - 3600 else 0

theorem assign_eq (zone : Zone) (value : List Char) :
    assign zone value = (read value).map fun tm => timegm tm + zone.slip (timegm tm) := by
  unfold assign read
  congr 1
  funext tm
  simp only [mktime, Zone.slip]
  split <;> simp only <;> omega

theorem inRange_gmtime {t : Int} (year : 1000 ≤ (gmtime t).year ∧ (gmtime t).year ≤ 9999) :
    (gmtime t).InRange := by
  obtain ⟨date, hour, min, sec⟩ := valid_gmtime t
  have long : daysInMonth (gmtime t).year (gmtime t).month ≤ 31 := by
    unfold daysInMonth
    split
    · split <;> omega
    · split <;> omega
  exact ⟨year, date.month, ⟨date.day.1, date.day.2.trans long⟩, hour, min, by omega⟩

theorem read_putTime {t : Int} (year : 1000 ≤ (gmtime t).year ∧ (gmtime t).year ≤ 9999)
    (suffix : List Char) : read (putTime (gmtime t) ++ suffix) = some (gmtime t) := by
  have range := inRange_gmtime year
  rw [read, getTime_putTime range, getTime_putTime range]
  simp only [if_true, Bool.false_eq_true, if_false, Option.map_some]
  cases literal 'Z' suffix <;> rfl

/-! ## The results -/

end ChargerStack.Ocpp.DateTime
