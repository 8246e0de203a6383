/-! # Dates and times

A day lies in one of the years 1 to 9999, counted back from today's calendar
without a break. Times are exact to the microsecond and may say how far they are
from universal time. Each is shown as the call that makes it, where parts that
are zero at its end are left out.
-/

namespace Linewise

def isLeapYear (year : Nat) : Bool :=
  year % 4 = 0 && (year % 100 ≠ 0 || year % 400 = 0)

/-- The number of days in a month; what is none of the twelve months has no day. -/
def daysIn (year : Nat) : Nat → Nat
  | 1 | 3 | 5 | 7 | 8 | 10 | 12 => 31
  | 4 | 6 | 9 | 11 => 30
  | 2 => if isLeapYear year then 29 else 28
  | _ => 0

structure Date where
  year : Nat
  month : Nat
  day : Nat
  year_pos : 0 < year
  year_lt : year < 10000
  day_pos : 0 < day
  day_le : day ≤ daysIn year month
deriving DecidableEq, Repr

def Date.ofNumbers? (year month day : Nat) : Option Date :=
  if h : (0 < year ∧ year < 10000) ∧ 0 < day ∧ day ≤ daysIn year month then
    some ⟨year, month, day, h.1.1, h.1.2, h.2.1, h.2.2⟩
  else none

structure ClockTime where
  hour : Fin 24
  minute : Fin 60
  second : Fin 60
  microsecond : Fin 1000000
deriving DecidableEq, Repr

structure Offset where
  /-- West of the meridian, local time is behind. -/
  isWest : Bool
  minutes : Fin 1440
deriving DecidableEq, Repr

def call (function : String) (arguments : List String) : String :=
  function ++ "(" ++ ", ".intercalate arguments ++ ")"

def Date.arguments (date : Date) : List String :=
  [toString date.year, toString date.month, toString date.day]

/-- The hour and the minute, and what stands up to the last part that is not zero. -/
def ClockTime.arguments (time : ClockTime) : List String :=
  let seconds :=
    if time.microsecond.val ≠ 0 then [time.second.val, time.microsecond.val]
    else if time.second.val ≠ 0 then [time.second.val]
    else []
  ([time.hour.val, time.minute.val] ++ seconds).map toString

/-- An offset is shown by its days and seconds, of which only the days may be negative. -/
def Offset.render (offset : Offset) : String :=
  let seconds := 60 * offset.minutes.val
  if seconds = 0 then "datetime.timezone.utc"
  else
    let arguments :=
      if offset.isWest then ["days=-1", "seconds=" ++ toString (86400 - seconds)]
      else ["seconds=" ++ toString seconds]
    call "datetime.timezone" [call "datetime.timedelta" arguments]

def Date.render (date : Date) : String :=
  call "datetime.date" date.arguments

def ClockTime.render (time : ClockTime) : String :=
  call "datetime.time" time.arguments

/-- A day with a time, which is local where no offset is given. -/
def renderDateTime (date : Date) (time : ClockTime) (offset : Option Offset) : String :=
  let zone := offset.toList.map fun o => "tzinfo=" ++ o.render
  call "datetime.datetime" (date.arguments ++ time.arguments ++ zone)

end Linewise
