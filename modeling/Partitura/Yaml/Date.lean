import Partitura.Fault

/-!
# Dates and times

A date, perhaps with a time of day and a zone. It is read by its form alone; whether there is
such a day is another question.
-/

namespace Partitura.Yaml

open Number

/-- A time of day, and the minutes its zone is ahead, if that is given in figures. -/
structure Clock where
  hour : Nat
  minute : Nat
  second : Nat
  offset : Option Int := none

structure Stamp where
  year : Nat
  month : Nat
  day : Nat
  clock : Option Clock := none

/-! ## Reading -/

def isFigure09 (c : Char) : Bool := '0' ≤ c && c ≤ '9'

/-- From `low` to `high` digits in front: their value, and the rest. -/
def takeNumber (low high : Nat) (cs : List Char) : Option (Nat × List Char) :=
  let ds := (cs.take high).takeWhile isFigure09
  if low ≤ ds.length then
    some (ds.foldl (fun n c => 10 * n + (c.toNat - '0'.toNat)) 0, cs.drop ds.length)
  else none

def takeChar (c : Char) : List Char → Option (List Char)
  | d :: cs => if d = c then some cs else none
  | [] => none

/-- The zone behind a time, or nothing: whether the text is one, and the minutes ahead. -/
def zone? (cs : List Char) : Option (Option Int) :=
  match cs.dropWhile fun c => c == ' ' || c == '\t' with
  | [] => if cs.isEmpty then some none else none
  | ['Z'] => some none
  | sign :: rest =>
    if sign = '+' ∨ sign = '-' then do
      let (hours, rest) ← takeNumber 1 2 rest
      let minutes ← match rest with
        | [] => some 0
        | ':' :: more =>
          match takeNumber 2 2 more with
          | some (m, []) => some m
          | _ => none
        | _ => none
      let ahead : Int := 60 * hours + minutes
      return some (if sign = '-' then -ahead else ahead)
    else none

/-- A time, its fraction and zone. -/
def clock? (cs : List Char) : Option Clock := do
  let (hour, cs) ← takeNumber 1 2 cs
  let (minute, cs) ← takeNumber 2 2 (← takeChar ':' cs)
  let (second, cs) ← takeNumber 2 2 (← takeChar ':' cs)
  let cs := match cs with
    | '.' :: rest => rest.dropWhile isFigure09
    | cs => cs
  return { hour, minute, second, offset := ← zone? cs }

/-- What separates a date from its time, dropped. -/
def dropGap : List Char → Option (List Char)
  | 'T' :: cs => some cs
  | 't' :: cs => some cs
  | ' ' :: cs => some (cs.dropWhile fun c => c == ' ' || c == '\t')
  | '\t' :: cs => some (cs.dropWhile fun c => c == ' ' || c == '\t')
  | _ => none

namespace Stamp

def ofChars? (cs : List Char) : Option Stamp := do
  let (year, cs) ← takeNumber 4 4 cs
  let (month, cs) ← takeNumber 1 2 (← takeChar '-' cs)
  let (day, cs) ← takeNumber 1 2 (← takeChar '-' cs)
  if cs.isEmpty then return { year, month, day }
  return { year, month, day, clock := some (← clock? (← dropGap cs)) }

/-! ## Checking -/

def isLeap (year : Nat) : Bool := year % 4 == 0 && (year % 100 != 0 || year % 400 == 0)

def daysIn (year month : Nat) : Nat :=
  if month = 2 then if isLeap year then 29 else 28
  else if month ∈ [4, 6, 9, 11] then 30
  else 31

/-- A length of time in a message: days and seconds, each if it is not zero. -/
def lengthText (minutes : Int) : String :=
  let days := minutes.fdiv 1440
  let seconds := 60 * minutes.fmod 1440
  let parts := (if days = 0 then [] else ["days=" ++ decimal days])
    ++ (if seconds = 0 then [] else ["seconds=" ++ decimal seconds])
  "datetime.timedelta(" ++ ", ".intercalate parts ++ ")"

def checkDate (s : Stamp) : Except Fault Unit := do
  if s.year = 0 then throw (.badYear s.year)
  if s.month = 0 ∨ 12 < s.month then throw .badMonth
  if s.day = 0 ∨ daysIn s.year s.month < s.day then throw .badDay

/-- Whether there is such a day and such a time. A zone is less than a day ahead or behind. -/
def check (s : Stamp) : Except Fault Unit := do
  match s.clock with
  | none => s.checkDate
  | some t =>
    match t.offset with
    | some minutes => if 1440 ≤ minutes.natAbs then throw (.badOffset (lengthText minutes))
    | none => pure ()
    s.checkDate
    if 23 < t.hour then throw .badHour
    if 59 < t.minute then throw .badMinute
    if 59 < t.second then throw .badSecond

end Stamp

end Partitura.Yaml
