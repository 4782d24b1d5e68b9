import ConversationSearch.Text.Cutting
import ConversationSearch.Text.Digits
import ConversationSearch.Time.Calendar
import ConversationSearch.Time.Instant

/-!
# Timestamps

An instant is written as its date and time of day in UTC, with a fixed number of places for the
fraction of the second. Years outside 0 to 9999 are written with a sign and at least four digits.

A text is read as an instant when it is a date and time of day with an offset, as RFC 3339 has it,
or a bare date, which stands for midnight UTC. Blanks around the text do not count, and what is
below a millisecond is dropped.
-/

namespace ConversationSearch.Time

/-- The seconds of a day. -/
def secondsPerDay : Int := 86400

/-- A year: four digits, or a sign and at least four digits. -/
def yearText (year : Int) : List Char :=
  if 0 ≤ year ∧ year ≤ 9999 then Text.padded 4 year.toNat
  else (if year < 0 then '-' else '+') :: Text.atLeast 4 year.natAbs

namespace Instant

/-- The day in UTC. -/
def date (t : Instant) : Date :=
  Date.ofDays (t.seconds / secondsPerDay)

/-- The seconds since midnight UTC. -/
def secondOfDay (t : Instant) : Nat :=
  (t.seconds % secondsPerDay).toNat

/-- Whether the instant lies in a leap second. -/
def isLeap (t : Instant) : Bool :=
  nanosPerSecond ≤ t.nanos

/-- The nanoseconds since the start of the second, a leap second being a second of its own. -/
def nanosOfSecond (t : Instant) : Nat :=
  if t.isLeap then t.nanos - nanosPerSecond else t.nanos

/-- The instant with the given number of places, at most nine, for the fraction of the second. -/
def textWithPlaces (places : Nat) (t : Instant) : List Char :=
  let d := t.date
  let s := t.secondOfDay
  let second := s % 60 + if t.isLeap then 1 else 0
  yearText d.year ++ '-' :: Text.padded 2 d.month ++ '-' :: Text.padded 2 d.day ++
    'T' :: Text.padded 2 (s / 3600) ++ ':' :: Text.padded 2 (s / 60 % 60) ++
    ':' :: Text.padded 2 second ++
    (if places = 0 then []
      else '.' :: Text.padded places (t.nanosOfSecond / Nat.pow 10 (9 - places))) ++ ['Z']

/-- The instant to the millisecond, as the index stores it. -/
def text (t : Instant) : String :=
  String.ofList (t.textWithPlaces 3)

/-- The places that show the whole fraction: none, three, six or nine. -/
def neededPlaces (t : Instant) : Nat :=
  let n := t.nanosOfSecond
  if n = 0 then 0
  else if n % 1000000 = 0 then 3
  else if n % 1000 = 0 then 6
  else 9

/-- The instant with its whole fraction. -/
def fullText (t : Instant) : String :=
  String.ofList (t.textWithPlaces t.neededPlaces)

end Instant

/-- Exactly the given number of digits, and what follows them. -/
def takeDigits : (width : Nat) → List Char → Option (Nat × List Char)
  | width, cs =>
    let ds := cs.take width
    if ds.length = width ∧ ds.all Text.isDigit then some (Text.number ds, cs.drop width) else none

/-- The given character, and what follows it. -/
def takeChar (c : Char) : List Char → Option (List Char)
  | [] => none
  | d :: rest => if c = d then some rest else none

/-- The first nine digits of a fraction, as nanoseconds. -/
def fractionNanos (ds : List Char) : Nat :=
  Text.number ((ds ++ List.replicate 9 '0').take 9)

/-- The fraction of a second, which needs at least one digit where there is a point. -/
def takeFraction : List Char → Option (Nat × List Char)
  | '.' :: rest =>
    match Text.spanDigits rest with
    | ([], _) => none
    | (ds, rest) => some (fractionNanos ds, rest)
  | rest => some (0, rest)

/-- The minutes that local time is ahead of UTC: `Z`, or a sign, hours and minutes. -/
def takeOffset : List Char → Option (Int × List Char)
  | [] => none
  | c :: rest =>
    if c = 'Z' ∨ c = 'z' then some (0, rest)
    else if c = '+' ∨ c = '-' ∨ c = '−' then do
      let (hours, rest) ← takeDigits 2 rest
      let rest ← takeChar ':' rest
      let (minutes, rest) ← takeDigits 2 rest
      if hours ≤ 23 ∧ minutes ≤ 59 then
        let ahead : Int := 60 * hours + minutes
        some (if c = '+' then ahead else -ahead, rest)
      else none
    else none

/-- A date and time of day with an offset. -/
def readDateTime (cs : List Char) : Option Instant := do
  let (year, cs) ← takeDigits 4 cs
  let cs ← takeChar '-' cs
  let (month, cs) ← takeDigits 2 cs
  let cs ← takeChar '-' cs
  let (day, cs) ← takeDigits 2 cs
  let cs ← match cs with
    | 'T' :: cs | 't' :: cs | ' ' :: cs => some cs
    | _ => none
  let (hour, cs) ← takeDigits 2 cs
  let cs ← takeChar ':' cs
  let (minute, cs) ← takeDigits 2 cs
  let cs ← takeChar ':' cs
  let (second, cs) ← takeDigits 2 cs
  let (nanos, cs) ← takeFraction cs
  let (ahead, cs) ← takeOffset cs
  let date : Date := ⟨year, month, day⟩
  if cs.isEmpty ∧ date.isReal ∧ hour ≤ 23 ∧ minute ≤ 59 ∧ second ≤ 60 then
    let time : Int := 3600 * hour + 60 * minute + (min second 59 : Nat)
    Instant.of? (date.toDays * secondsPerDay + time - 60 * ahead)
      (if second = 60 then nanos + nanosPerSecond else nanos)
  else none

/-- The year of a bare date: up to four digits, or a sign and any number of digits. -/
def takeYear (cs : List Char) : Option (Int × List Char) :=
  match Text.trimStart cs with
  | '-' :: rest =>
    match Text.spanDigits rest with
    | ([], _) => none
    | (ds, rest) => some (-(Text.number ds : Int), rest)
  | '+' :: rest =>
    match Text.spanDigits rest with
    | ([], _) => none
    | (ds, rest) => some (Text.number ds, rest)
  | cs =>
    match (cs.take 4).takeWhile Text.isDigit with
    | [] => none
    | ds => some (Text.number ds, cs.drop ds.length)

/-- The month or day of a bare date: one or two digits, perhaps after blanks. -/
def takePart (cs : List Char) : Option (Nat × List Char) :=
  let cs := Text.trimStart cs
  match (cs.take 2).takeWhile Text.isDigit with
  | [] => none
  | ds => some (Text.number ds, cs.drop ds.length)

/-- A bare date, as midnight UTC. -/
def readDate (cs : List Char) : Option Instant := do
  let (year, cs) ← takeYear cs
  let cs ← takeChar '-' cs
  let (month, cs) ← takePart cs
  let cs ← takeChar '-' cs
  let (day, cs) ← takePart cs
  let date : Date := ⟨year, month, day⟩
  if cs.isEmpty ∧ date.isReal then Instant.of? (date.toDays * secondsPerDay) 0 else none

/-- A text that is no timestamp, without the blanks around it. -/
structure BadStamp where
  text : String
  deriving DecidableEq, Repr

/-- The wording of the refusal. -/
def BadStamp.message (e : BadStamp) : String :=
  "invalid timestamp '" ++ e.text ++ "': expected RFC 3339 or YYYY-MM-DD"

/-- The instant that a text names, to the millisecond. -/
def parse (s : String) : Except BadStamp Instant :=
  let trimmed := Text.trim s
  let cs := trimmed.toList
  match readDateTime cs with
  | some t => .ok t.toMillis
  | none =>
    match readDate cs with
    | some t => .ok t
    | none => .error ⟨trimmed⟩

end ConversationSearch.Time
