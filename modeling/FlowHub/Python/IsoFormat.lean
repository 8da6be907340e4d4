import FlowHub.Python.Text
import Mathlib.Order.Basic

namespace FlowHub.Python

/-- A `tzinfo`: what it adds to UTC at a wall time, and on which side of a fold. -/
class TimeZone (Zone : Type) where
  utcoffset : Zone → Int → Bool → Int

/-- A `datetime`: its wall time in microseconds since the first representable one. -/
structure DateTime (Zone : Type) where
  wall : Int
  fold : Bool := false
  zone : Option Zone := none

variable {Zone : Type} [TimeZone Zone] [DecidableEq Zone]

def DateTime.offset (t : DateTime Zone) : Int :=
  match t.zone with
  | some zone => TimeZone.utcoffset zone t.wall t.fold
  | none => 0

/-- `a < b`. In one zone the wall times are compared, across zones the instants. -/
def DateTime.before (a b : DateTime Zone) : Bool :=
  if a.zone = b.zone then decide (a.wall < b.wall)
  else decide (a.wall - a.offset < b.wall - b.offset)

def microsecondsPerDay : Int := 86400000000

/-- `t - timedelta(days=days)`; none where the result is not representable. -/
def DateTime.minusDays (t : DateTime Zone) (days : Int) : Option (DateTime Zone) :=
  let wall := t.wall - days * microsecondsPerDay
  if wall < 0 then none else some ⟨wall, false, t.zone⟩

/-- `timezone(...)`: a fixed offset. -/
instance : TimeZone Int := ⟨fun offset _ _ => offset⟩

end FlowHub.Python

namespace FlowHub.Python.Iso

variable (text : List Char)

/-- A number written with ASCII digits only. -/
def number : Option Nat :=
  if text ≠ [] ∧ text.all Char.isDigit then
    some (ofDigits (text.map fun c => c.toNat - '0'.toNat))
  else none

def isLeap (year : Nat) : Bool := decide (4 ∣ year ∧ (¬ 100 ∣ year ∨ 400 ∣ year))

def daysInMonth (year month : Nat) : Nat :=
  if month = 2 then (if isLeap year then 29 else 28)
  else if month ∈ [4, 6, 9, 11] then 30 else 31

def daysBeforeYear (year : Nat) : Nat :=
  (year - 1) * 365 + (year - 1) / 4 - (year - 1) / 100 + (year - 1) / 400

def daysBeforeMonth (year month : Nat) : Nat :=
  ((List.range (month - 1)).map fun m => daysInMonth year (m + 1)).sum

/-- Days before a date since the first representable one. -/
def days (year month day : Nat) : Option Nat :=
  if 1 ≤ year ∧ year ≤ 9999 ∧ 1 ≤ month ∧ month ≤ 12 ∧ 1 ≤ day ∧ day ≤ daysInMonth year month then
    some (daysBeforeYear year + daysBeforeMonth year month + (day - 1))
  else none

/-- Years that begin on a Thursday, and leap years that begin on a Wednesday. -/
def hasWeek53 (year : Nat) : Bool :=
  let weekday := (daysBeforeYear year + 1) % 7
  decide (weekday = 4) || decide (weekday = 3) && isLeap year

/-- Days before a day of an ISO week. -/
def weekDays (year week day : Nat) : Option Nat :=
  if 1 ≤ year ∧ year ≤ 9999 ∧ 1 ≤ week ∧ (week < 53 ∨ week = 53 ∧ hasWeek53 year) ∧ 1 ≤ day ∧ day < 8 then
    let first := daysBeforeYear year
    let weekday := first % 7
    let monday : Int := first - weekday + (if weekday > 3 then 7 else 0)
    let ordinal : Int := monday + ((week - 1) * 7 + (day - 1) : Nat)
    if 0 ≤ ordinal ∧ ordinal < daysBeforeYear 10000 then some ordinal.toNat else none
  else none

/-- Where the date of a `datetime` text ends; a hyphen between a week and two digits separates. -/
def separator : Option Nat :=
  let isDigitAt (i : Nat) : Bool := (text[i]?).any Char.isDigit
  if text.length = 7 then some 7
  else if text[4]? = some '-' then
    if text[5]? = some 'W' then
      if text.length > 8 ∧ text[8]? = some '-' then
        if text.length = 9 then none
        else if text.length > 10 ∧ isDigitAt 10 then some 8
        else some 10
      else some 8
    else some 10
  else if text[4]? = some 'W' then
    let stop := 7 + ((text.drop 7).takeWhile Char.isDigit).length
    if stop < 9 then some stop else if stop % 2 = 0 then some 7 else some 8
  else some 8

/-- `YYYY-MM-DD`, `YYYYMMDD`, `YYYY-Www[-D]` or `YYYYWww[D]`. -/
def date : Option Nat := do
  let year ← number (text.take 4)
  let dashed := decide (text[4]? = some '-')
  let rest := text.drop (if dashed then 5 else 4)
  match rest with
  | 'W' :: rest =>
    let week ← number (rest.take 2)
    match rest.drop 2 with
    | [] => weekDays year week 1
    | '-' :: day => if dashed then do weekDays year week (← number (day.take 1)) else none
    | day => if dashed then none else do weekDays year week (← number (day.take 1))
  | rest =>
    let month ← number (rest.take 2)
    match rest.drop 2 with
    | '-' :: day => if dashed then do days year month (← number (day.take 2)) else none
    | day => if dashed then none else do days year month (← number (day.take 2))

/-- Six digits of a fraction of a second; what follows them has to be digits too. -/
def micros : Option Nat := do
  let kept := text.take 6
  let n ← number kept
  if (text.drop 6).all Char.isDigit then some (n * 10 ^ (6 - kept.length)) else none

structure Clock where
  hour : Nat
  minute : Nat := 0
  second : Nat := 0
  micro : Nat := 0

def Clock.total (c : Clock) : Nat :=
  ((c.hour * 60 + c.minute) * 60 + c.second) * 1000000 + c.micro

/-- What may follow the last component of a time. -/
def fraction (c : Clock) : List Char → Option Clock
  | [] => some c
  | '.' :: rest | ',' :: rest => do some { c with micro := ← micros rest }
  | _ => none

/-- `HH[:MM[:SS[.f+]]]` or `HH[MM[SS[.f+]]]`. -/
def clock : Option Clock := do
  let hour ← number (text.take 2)
  if text.length < 2 then none
  else
    let colon := decide (text[2]? = some ':')
    /- The next two digits, behind a colon where the first component has one. -/
    let next (text : List Char) : Option (Nat × List Char) := do
      let body ← if colon then (match text with | ':' :: rest => some rest | _ => none) else some text
      if body.length < 2 then none else some (← number (body.take 2), body.drop 2)
    match text.drop 2 with
    | [] => some { hour }
    | rest =>
      let (minute, rest) ← next rest
      match rest with
      | [] => some { hour, minute }
      | rest =>
        let (second, rest) ← next rest
        fraction { hour, minute, second } rest

/-- A clock that a `time` takes. -/
def Clock.valid (c : Clock) : Bool :=
  decide (c.hour < 24) && decide (c.minute < 60) && decide (c.second < 60)

/-- The first `-`, else the first `+`, else the first `Z`, ends the time. -/
def zonePosition : Option Nat :=
  let find (c : Char) : Option Nat := if c ∈ text then some (text.idxOf c) else none
  ((find '-').or (find '+')).or (find 'Z')

/-- The offset behind a sign, in microseconds; a `timezone` is less than a day from UTC. -/
def offset (negative : Bool) (text : List Char) : Option Int := do
  if text.length ∈ [0, 1, 3] then none
  else
    let c ← clock text
    if (c.total : Int) < microsecondsPerDay then
      some (if negative then -(c.total : Int) else c.total)
    else none

/-- A time of day and its offset. -/
def time : Option (Clock × Option Int) := do
  match zonePosition text with
  | none =>
    let c ← clock text
    if c.valid then some (c, none) else none
  | some i =>
    let c ← clock (text.take i)
    let zone ← if i + 1 = text.length ∧ text[i]? = some 'Z' then some 0
      else offset (decide (text[i]? = some '-')) (text.drop (i + 1))
    if c.valid then some (c, some zone) else none

/-- `datetime.fromisoformat(text)`; none where it raises `ValueError`. -/
def fromIsoFormat (text : String) : Option (DateTime Int) := do
  let text := text.toList
  if text.length < 7 then none
  else
    let i ← separator text
    let day ← date (text.take i)
    if text.length ≤ i then some { wall := day * microsecondsPerDay }
    else
      let (c, zone) ← time (text.drop (i + 1))
      some { wall := day * microsecondsPerDay + c.total, zone }

/-- `text.replace("Z", "+00:00")`. -/
def zuluAsOffset (text : String) : String :=
  String.ofList (text.toList.flatMap fun c => if c = 'Z' then "+00:00".toList else [c])

end FlowHub.Python.Iso
