import ScriptLowering.Numeral

/-!
# Dates and times of a TOML text

* `Toml.isDate`, `Toml.isTime`, `Toml.isOffsetTime` — a date, a time of day, and a time of day that may have
  its distance from the common one;
* `Toml.isMoment` — a date, a time or both.
-/

namespace ScriptLowering.Toml

/-- The number of days of a month. -/
def daysOf (year month : Nat) : Nat :=
  if month = 2 then
    if year % 4 = 0 ∧ (year % 100 ≠ 0 ∨ year % 400 = 0) then 29 else 28
  else if month = 4 ∨ month = 6 ∨ month = 9 ∨ month = 11 then 30 else 31

/-- Whether the text is a date. -/
def isDate : List Char → Bool
  | [y1, y2, y3, y4, '-', m1, m2, '-', d1, d2] =>
    [y1, y2, y3, y4, m1, m2, d1, d2].all Char.isDigit &&
      (let month := Numeral.value [m1, m2]
        let day := Numeral.value [d1, d2]
        1 ≤ month && month ≤ 12 && 1 ≤ day && day ≤ daysOf (Numeral.value [y1, y2, y3, y4]) month)
  | _ => false

/-- Whether the text is hours and minutes. -/
def isHourMinute : List Char → Bool
  | [h1, h2, ':', m1, m2] =>
    [h1, h2, m1, m2].all Char.isDigit && Numeral.value [h1, h2] ≤ 23 && Numeral.value [m1, m2] ≤ 59
  | _ => false

/-- Whether the text is a time of day. -/
def isTime (text : List Char) : Bool :=
  isHourMinute (text.take 5) &&
    match text.drop 5 with
    | ':' :: s1 :: s2 :: fraction =>
      [s1, s2].all Char.isDigit && Numeral.value [s1, s2] ≤ 60 &&
        (match fraction with
          | [] => true
          | mark :: digits => mark = '.' && Numeral.isDigits digits)
    | _ => false

/-- Whether the text is the distance of a time from the common one, or empty. -/
def isOffset : List Char → Bool
  | [] => true
  | ['Z'] => true
  | ['z'] => true
  | '+' :: distance => isHourMinute distance
  | '-' :: distance => isHourMinute distance
  | _ => false

/-- Whether a character begins the distance of a time. -/
def isOffsetMark (c : Char) : Bool := c = 'Z' || c = 'z' || c = '+' || c = '-'

/-- Whether the text is a time of day with a distance. -/
def isOffsetTime (text : List Char) : Bool :=
  isTime (text.takeWhile (!isOffsetMark ·)) && isOffset (text.dropWhile (!isOffsetMark ·))

/-- Whether the text is a date, a time or both. -/
def isMoment (text : List Char) : Bool :=
  isDate text || isTime text ||
    (isDate (text.take 10) &&
      match text.drop 10 with
      | mark :: time => (mark = 'T' || mark = 't' || mark = ' ') && isOffsetTime time
      | [] => false)

end ScriptLowering.Toml
