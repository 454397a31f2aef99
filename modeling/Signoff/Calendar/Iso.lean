import Signoff.Calendar.Moment
import Signoff.Text.Kinds

/-! # ISO 8601 texts

Dates `YYYY-MM-DD`, `YYYYMMDD`, `YYYY-Www`, `YYYY-Www-D`, `YYYYWww` and `YYYYWwwD`, after any one
separator a time `HH[:MM[:SS[.f]]]` with or without colons, and an offset `Z`, `+HH:MM` and the
like. A time with an offset is taken to UTC, and one without is UTC already.
-/

namespace Signoff

namespace Iso

/-- Reads `count` digits in front of `cs`. -/
def digits? : Nat → Nat → List Char → Option (Nat × List Char)
  | 0, value, cs => some (value, cs)
  | count + 1, value, c :: cs => (Text.asciiDigit? c).bind fun d => digits? count (10 * value + d) cs
  | _ + 1, _, [] => none

/-- The length of the date in front: the position of the separator, if there is one. -/
def dateLength (cs : List Char) : Nat :=
  let digitAt (i : Nat) : Bool := (cs[i]?).any fun c => (Text.asciiDigit? c).isSome
  if cs.length = 7 then 7
  else if cs[4]? = some '-' then
    if cs[5]? = some 'W' then
      if cs[8]? = some '-' then (if 10 < cs.length && digitAt 10 then 8 else 10) else 8
    else 10
  else if cs[4]? = some 'W' then
    let digits := ((cs.drop 7).takeWhile fun c => (Text.asciiDigit? c).isSome).length
    let stop := 7 + digits
    if stop < 9 then stop else if stop % 2 = 0 then 7 else 8
  else 8

/-- A date that fills the text. -/
def date? (cs : List Char) : Option Date := do
  let (year, rest) ← digits? 4 0 cs
  let dashed := rest.head? == some '-'
  let rest := if dashed then rest.drop 1 else rest
  if rest.head? == some 'W' then
    let (week, rest) ← digits? 2 0 (rest.drop 1)
    match rest with
    | [] => Date.ofWeek? year week 1
    | c :: more =>
      if dashed && c != '-' then none
      else
        let (weekday, after) ← digits? 1 0 (if dashed then more else rest)
        if after.isEmpty then Date.ofWeek? year week weekday else none
  else
    let (month, rest) ← digits? 2 0 rest
    if dashed && rest.head? != some '-' then none
    else
      let (day, after) ← digits? 2 0 (if dashed then rest.drop 1 else rest)
      if after.isEmpty then Date.ofCivil? year month day else none

/-- Hour, minute, second and microsecond of a time, and whether something is left behind it. -/
structure Time where
  hour : Nat := 0
  minute : Nat := 0
  second : Nat := 0
  micro : Nat := 0
  rest : Bool := false

/-- Is something left that counts? A null character ends the text. -/
def isLeft (cs : List Char) : Bool := cs.head?.any fun c => c != '\x00'

/-- A fraction of a second: six digits count, and further ones are passed over. -/
def fraction? (time : Time) (cs : List Char) : Option Time := do
  let count := min 6 cs.length
  let (value, after) ← digits? count 0 cs
  let after := after.dropWhile fun c => (Text.asciiDigit? c).isSome
  pure { time with micro := value * Nat.pow 10 (6 - count), rest := isLeft after }

/-- Writes the part of a time with the given place. -/
def Time.put (time : Time) (place value : Nat) : Time :=
  match place with
  | 0 => { time with hour := value }
  | 1 => { time with minute := value }
  | _ => { time with second := value }

/-- The parts of a time from the given place on (`left` of them), then a fraction. `colons` tells
whether the hour was followed by a colon, and `follow` is what stands behind the time. One character may
be left behind a part if it is a single byte. -/
def parts? (follow : List Char) (colons : Bool) : Nat → Nat → Time → List Char → Option Time
  | 0, _, time, cs => fraction? time cs
  | left + 1, place, time, cs => do
    let (value, rest) ← digits? 2 0 cs
    let time := time.put place value
    match rest with
    | [] => pure { time with rest := !follow.isEmpty }
    | [c] => if c.toNat < 128 then pure { time with rest := isLeft rest } else none
    | c :: more =>
      let colons := if place = 0 then c == ':' else colons
      if colons && c == ':' then parts? follow colons left (place + 1) time more
      else if c = '.' ∨ c = ',' then fraction? time more
      else if !colons then parts? follow colons left (place + 1) time rest
      else none

/-- A time in front of `follow`. -/
def time? (cs follow : List Char) : Option Time := parts? follow true 3 0 {} cs

/-- Does the character begin an offset? -/
def beginsOffset (c : Char) : Bool := c == '+' || c == '-' || c == 'Z'

/-- An offset from UTC in microseconds; below one day. -/
def offset? : List Char → Option Int
  | [] => none
  | c :: rest =>
    if c = 'Z' then (if isLeft rest then none else some 0)
    else do
      let time ← time? rest []
      if time.rest then none
      else
        let seconds := (time.hour * 60 + time.minute) * 60 + time.second
        let size : Int := if seconds = 0 then 0 else (seconds * 1000000 + time.micro : Nat)
        if size < Moment.dayMicros then some (if c = '-' then -size else size) else none

/-- What a text says: a wall-clock time, and its offset from UTC if it gives one. -/
structure Reading where
  wall : Moment
  offset : Option Int
deriving DecidableEq, Repr

/-- The date and time of a text. -/
def read? (s : String) : Option Reading := do
  let cs := s.toList
  if cs.length < 7 then none
  else
    let cut := dateLength cs
    let day ← date? (cs.take cut)
    match cs.drop cut with
    | [] => pure ⟨Moment.ofDate day, none⟩
    | _ :: body =>
      let clock := body.takeWhile fun c => !beginsOffset c
      let follow := body.dropWhile fun c => !beginsOffset c
      let time ← time? clock follow
      let wall ← Moment.ofParts? day time.hour time.minute time.second time.micro
      if follow.isEmpty then (if time.rest then none else pure ⟨wall, none⟩)
      else
        let offset ← offset? follow
        pure ⟨wall, some offset⟩

/-- The moment in UTC, if it lies within the calendar. -/
def Reading.utc? (r : Reading) : Option Moment :=
  match r.offset with
  | none => some r.wall
  | some offset => r.wall.add? (-offset)

end Iso

/-- The moment of a text, white space around it aside. A final `Z` stands for the offset zero. -/
def Moment.ofText? (s : String) : Option Moment :=
  let cs := Text.trimList s.toList
  let cs := if cs.getLast? = some 'Z' then cs.dropLast ++ "+00:00".toList else cs
  (Iso.read? (String.ofList cs)).bind Iso.Reading.utc?

end Signoff
