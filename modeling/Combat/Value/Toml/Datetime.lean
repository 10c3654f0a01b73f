/-!
Dates and times as TOML writes them. They are kept as texts in one form: `T` between date and time,
no trailing zeros in the fraction of a second.
-/

namespace Combat.Value.Toml

/-- So many digits at the front, and their number. -/
def fixedDigits? (n : Nat) (cs : List Char) : Option (Nat × List Char) :=
  let ds := cs.take n
  if ds.length = n && ds.all Char.isDigit then
    some (ds.foldl (fun m c => m * 10 + (c.toNat - '0'.toNat)) 0, cs.drop n)
  else none

/-- Two digits up to a bound. -/
def twoDigits? (low high : Nat) (cs : List Char) : Option (Nat × List Char) := do
  let (n, rest) ← fixedDigits? 2 cs
  if low ≤ n ∧ n ≤ high then return (n, rest) else none

def expect? (c : Char) : List Char → Option (List Char)
  | d :: rest => if c = d then some rest else none
  | [] => none

def daysIn (year month : Nat) : Nat :=
  if month = 2 then
    if year % 4 = 0 ∧ (year % 100 ≠ 0 ∨ year % 400 = 0) then 29 else 28
  else if month = 4 ∨ month = 6 ∨ month = 9 ∨ month = 11 then 30
  else 31

def padded (width n : Nat) : String :=
  let ds := Nat.toDigits 10 n
  String.ofList (List.replicate (width - ds.length) '0' ++ ds)

def date? (cs : List Char) : Option (String × List Char) := do
  let (year, cs) ← fixedDigits? 4 cs
  let (month, cs) ← twoDigits? 1 12 (← expect? '-' cs)
  let (day, cs) ← twoDigits? 1 (daysIn year month) (← expect? '-' cs)
  return (padded 4 year ++ "-" ++ padded 2 month ++ "-" ++ padded 2 day, cs)

/-- The fraction of a second, cut to nine digits and written without trailing zeros. -/
def fractionText (ds : List Char) : String :=
  match ((ds.take 9).reverse.dropWhile (· = '0')).reverse with
  | [] => ""
  | ds => "." ++ String.ofList ds

def time? (cs : List Char) : Option (String × List Char) := do
  let (hour, cs) ← twoDigits? 0 23 cs
  let (minute, cs) ← twoDigits? 0 59 (← expect? ':' cs)
  let (second, cs) ← twoDigits? 0 60 (← expect? ':' cs)
  let text := padded 2 hour ++ ":" ++ padded 2 minute ++ ":" ++ padded 2 second
  match cs with
  | '.' :: rest =>
    match rest.takeWhile Char.isDigit with
    | [] => none
    | ds => return (text ++ fractionText ds, rest.dropWhile Char.isDigit)
  | _ => return (text, cs)

/-- `Z`, or hours and minutes with a sign; nothing for a local time. No difference is written with
a plus. -/
def offset? (cs : List Char) : Option (String × List Char) :=
  match cs with
  | 'Z' :: rest | 'z' :: rest => some ("Z", rest)
  | '+' :: rest | '-' :: rest => do
    let (hour, rest) ← twoDigits? 0 23 rest
    let (minute, rest) ← twoDigits? 0 59 (← expect? ':' rest)
    let sign := if cs.head? = some '-' ∧ (hour ≠ 0 ∨ minute ≠ 0) then "-" else "+"
    return (sign ++ padded 2 hour ++ ":" ++ padded 2 minute, rest)
  | _ => some ("", cs)

/-- A date with a time if one follows, or a time alone. -/
def datetime? (cs : List Char) : Option (String × List Char) :=
  match date? cs with
  | none => time? cs
  | some (date, rest) =>
    let time := match rest with
      | 'T' :: cs | 't' :: cs | ' ' :: cs => time? cs
      | _ => none
    match time with
    | none => some (date, rest)
    | some (time, rest) => do
      let (offset, rest) ← offset? rest
      return (date ++ "T" ++ time ++ offset, rest)

end Combat.Value.Toml
