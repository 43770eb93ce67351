/-
Python's `datetime.fromisoformat(text).timestamp()`.

The receiver takes `expires_at` as a Unix timestamp or as a text it hands to
`fromisoformat`, which accepts more than RFC 3339: calendar and week dates, with or
without separators, any character between date and time, and offsets down to the
microsecond. `fromisoformat` below follows the C parser of Python 3.11, which the
package runs, position by position over the UTF-8 bytes of the text.

The C parser is not the Python source of the library, and it is kept with its
oddities, because the receiver has them too. It reads the NUL that ends its buffer as
a byte. Where a component is followed by one more byte before the end, it looks at
that byte and no further, so `19691231T000Z` is midnight. A fraction may follow the
hours or the minutes, a colon may stand in for its point, and after six digits
further digits are skipped. An offset of no whole seconds is UTC, whatever its
fraction says. A lone surrogate is taken for the separator and for nothing else.

A timestamp is a `float`, so the exact quotient is rounded to the nearest double.
-/
import F2bguard.PyText
import Mathlib.Data.Rat.Floor

set_option autoImplicit false

namespace F2bguard.Datetime

open F2bguard.PyText

/-! ## Doubles

Instants are rational numbers here. Only the rounding is modelled, and only in the range the dates
reach, far from the largest double. -/

/-- Round to an integer, ties to even. -/
def round_half_even (q : ℚ) : ℤ :=
  if q - ⌊q⌋ < 1 / 2 then ⌊q⌋
  else if 1 / 2 < q - ⌊q⌋ then ⌊q⌋ + 1
  else if ⌊q⌋ % 2 = 0 then ⌊q⌋
  else ⌊q⌋ + 1

/-- The exponent `e` with `2 ^ e ≤ q < 2 ^ (e + 1)`, for a positive `q`. The logarithms of
numerator and denominator give it up to one. -/
def binary_exponent (q : ℚ) : ℤ :=
  let e : ℤ := (q.num.natAbs.log2 : ℤ) - (q.den.log2 : ℤ)
  if q < (2 : ℚ) ^ e then e - 1 else e

/-- The double nearest to `q`, which the callers keep far below the overflow threshold. -/
def to_double (q : ℚ) : ℚ :=
  if q = 0 then 0
  else
    let ulp := (2 : ℚ) ^ max (binary_exponent |q| - 52) (-1074)
    round_half_even (q / ulp) * ulp

/-! ## Calendar

The proleptic Gregorian calendar from the year 1 to 9999, and the week dates of ISO 8601 on top of
it. A date is its ordinal, so the two ways to write one meet there. -/

def is_leap (year : ℕ) : Bool := year % 4 = 0 && (year % 100 ≠ 0 || year % 400 = 0)

def days_in_month (year month : ℕ) : ℕ :=
  if month = 2 then (if is_leap year then 29 else 28)
  else if month = 4 ∨ month = 6 ∨ month = 9 ∨ month = 11 then 30
  else 31

def days_before_year (year : ℕ) : ℕ :=
  (year - 1) * 365 + (year - 1) / 4 - (year - 1) / 100 + (year - 1) / 400

def days_before_month (year month : ℕ) : ℕ :=
  ((List.range (month - 1)).map (fun m => days_in_month year (m + 1))).sum

/-- The proleptic ordinal of a date; 0001-01-01 is day 1. -/
def ymd_to_ord (year month day : ℕ) : ℕ :=
  days_before_year year + days_before_month year month + day

/-- The ordinal of the first day of the first ISO week of a year. -/
def iso_week1_monday (year : ℕ) : ℤ :=
  let first_day : ℤ := ymd_to_ord year 1 1
  let first_weekday := (first_day + 6) % 7
  if 3 < first_weekday then first_day - first_weekday + 7 else first_day - first_weekday

/-- The ordinal of 9999-12-31, the last date there is. -/
def max_ord : ℤ := 3652059

/-- The ordinal of a date given by week and weekday, `none` when there is no such date. -/
def iso_to_ord (year week day : ℕ) : Option ℤ :=
  if year < 1 ∨ 9999 < year then none
  else
    let first_weekday := (ymd_to_ord year 1 1 + 6) % 7
    let long := first_weekday = 3 ∨ (first_weekday = 2 ∧ is_leap year)
    if ¬ ((1 ≤ week ∧ week ≤ 52) ∨ (week = 53 ∧ long)) then none
    else if day < 1 ∨ 7 < day then none
    else
      let ord := iso_week1_monday year + (week - 1) * 7 + (day - 1)
      -- the last week of the year 9999 ends in the year 10000
      if max_ord < ord then none else some ord

/-! ## The buffer

The text is turned into UTF-8 once and then read by position. A position beyond the end is the NUL
the buffer ends with, which is no digit and no separator, so the parser stops there by itself. -/

/-- The characters the parser compares bytes with, by their ASCII codes. -/
def code (c : Char) : UInt8 := c.toNat.toUInt8

/-- `dtstr[p]`. The buffer ends with a NUL. -/
def byte (b : List UInt8) (p : ℕ) : UInt8 := b.getD p 0

/-- `is_digit` -/
def is_digit_byte (c : UInt8) : Bool := code '0' ≤ c && c ≤ code '9'

/-- `_sanitize_isoformat_str`: a lone surrogate where a separator can stand becomes a `T`. Only
the first of the three positions that holds one is changed; any other surrogate makes the
conversion fail. -/
def sanitize_isoformat_str (points : List ℕ) : List ℕ :=
  match [7, 8, 10].find? (fun pos => (points[pos]?).any is_surrogate) with
  | some pos => points.set pos ('T'.toNat)
  | none => points

/-- `PyUnicode_AsUTF8AndSize`, `none` for its `UnicodeEncodeError`. -/
def as_utf8 (points : List ℕ) : Option (List UInt8) :=
  if points.any is_surrogate then none
  else some (points.flatMap (fun n => String.utf8EncodeChar (Char.ofNat n)))

/-- The number of bytes of the character a byte leads. -/
def width (lead : UInt8) : ℕ :=
  if lead &&& 0x80 = 0 then 1
  else if lead &&& 0xf0 = 0xe0 then 3
  else if lead &&& 0xf0 = 0xf0 then 4
  else 2

/-! ## Parsing

The parser decides where the date ends before it reads it, by the length and a few bytes. The
parts are then read one by one. -/

/-- Exactly `n` digits from position `p` on: their value and the position after them. -/
def parse_digits (b : List UInt8) (p n : ℕ) : Option (ℕ × ℕ) :=
  let digits := (List.range n).map (fun i => byte b (p + i))
  if digits.all is_digit_byte then
    some (digits.foldl (fun value d => 10 * value + (d - code '0').toNat) 0, p + n)
  else none

/-- `_find_isoformat_datetime_separator`: where the date ends. Calendar dates and week dates are
told apart by the bytes 4 and 5, basic week dates by how many digits follow. -/
def find_isoformat_datetime_separator (b : List UInt8) : Option ℕ :=
  if b.length = 7 then some 7
  else if byte b 4 = code '-' then
    if byte b 5 = code 'W' then
      if b.length < 8 then none
      else if 8 < b.length ∧ byte b 8 = code '-' then
        if b.length = 9 then none
        -- `YYYY-Www-##`: the hyphen is the separator more likely than the digit is
        else if 10 < b.length ∧ is_digit_byte (byte b 10) then some 8
        else some 10
      else some 8
    else some 10
  else if byte b 4 = code 'W' then
    let pos := 7 + ((b.drop 7).takeWhile is_digit_byte).length
    if pos < 9 then some pos
    else if pos % 2 = 0 then some 7
    else some 8
  else some 8

/-- `parse_isoformat_date` with the checks of `new_datetime`: the ordinal of the date in the first
`len` bytes. A week date without a day is the Monday. -/
def parse_isoformat_date (b : List UInt8) (len : ℕ) : Option ℤ := do
  let (year, p) ← parse_digits b 0 4
  let uses_separator := byte b p = code '-'
  let p := if uses_separator then p + 1 else p
  if byte b p = code 'W' then
    let (week, p) ← parse_digits b (p + 1) 2
    if p < len then
      if uses_separator ∧ byte b p ≠ code '-' then none
      else
        let (day, _) ← parse_digits b (if uses_separator then p + 1 else p) 1
        iso_to_ord year week day
    else iso_to_ord year week 1
  else
    let (month, p) ← parse_digits b p 2
    if uses_separator ∧ byte b p ≠ code '-' then none
    else
      let (day, _) ← parse_digits b (if uses_separator then p + 1 else p) 2
      if year < 1 ∨ month < 1 ∨ 12 < month ∨ day < 1 ∨ days_in_month year month < day then none
      else some (ymd_to_ord year month day)

/-- What `parse_hh_mm_ss_ff` leaves. `rest` is its return value 1: a byte that is no NUL follows. -/
structure Components where
  hour : ℕ
  minute : ℕ
  second : ℕ
  microsecond : ℕ
  rest : Bool

/-- The components from those that were read, in order; the others are zero. -/
def components (read : List ℕ) (microsecond : ℕ) (rest : Bool) : Components :=
  ⟨read.getD 0 0, read.getD 1 0, read.getD 2 0, microsecond, rest⟩

/-- The fraction from position `p` on: six digits at most, and the digits after them skipped. -/
def parse_fraction (b : List UInt8) (p_end p : ℕ) (read : List ℕ) : Option Components := do
  let to_parse := min 6 (p_end - p)
  let (value, p) ← parse_digits b p to_parse
  let p := p + ((b.drop p).takeWhile is_digit_byte).length
  some (components read (value * 10 ^ (6 - to_parse)) (byte b p ≠ 0))

/-- The loop of `parse_hh_mm_ss_ff` with `left` turns to go. The byte after the hours decides
whether the components are separated. The loop ends at the end of the part, also one byte before
it, with that byte unread; at a point or comma, with the fraction; or after the third component,
when a colon or nothing stands where the point should. -/
def parse_components (b : List UInt8) (p_end : ℕ) : ℕ → Bool → ℕ → List ℕ → Option Components
  | 0, _, p, read => parse_fraction b p_end p read
  | left + 1, has_separator, p, read => do
      let (value, p) ← parse_digits b p 2
      let c := byte b p
      let has_separator := if read = [] then c = code ':' else has_separator
      let read := read ++ [value]
      if p_end ≤ p + 1 then some (components read 0 (c ≠ 0))
      else if has_separator ∧ c = code ':' then parse_components b p_end left has_separator (p + 1) read
      else if c = code '.' ∨ c = code ',' then parse_fraction b p_end (p + 1) read
      else if has_separator then none
      else parse_components b p_end left has_separator p read

/-- `parse_hh_mm_ss_ff`: `[HH[:?MM[:?SS]]]` and a fraction between two positions. -/
def parse_hh_mm_ss_ff (b : List UInt8) (p p_end : ℕ) : Option Components :=
  parse_components b p_end 3 true p []

def Components.seconds (t : Components) : ℕ := (t.hour * 60 + t.minute) * 60 + t.second

/-- Microseconds of a time of day or of an offset. -/
def Components.microseconds (t : Components) : ℤ := (t.seconds * 1000000 + t.microsecond : ℕ)

def is_zone_mark (c : UInt8) : Bool := c = code '+' || c = code '-' || c = code 'Z'

/-- `parse_isoformat_time` with the checks of `new_datetime` and `new_timezone`: the time of day
in microseconds, and the offset when the text has one. The offset begins at the first plus, minus
or `Z`. A byte that the time left unread is an error only when no offset follows. -/
def parse_isoformat_time (b : List UInt8) (p : ℕ) : Option (ℤ × Option ℤ) := do
  let tzinfo_pos := p + ((b.drop p).takeWhile (fun c => !is_zone_mark c)).length
  let time ← parse_hh_mm_ss_ff b p tzinfo_pos
  if 24 ≤ time.hour ∨ 60 ≤ time.minute ∨ 60 ≤ time.second then none
  else if b.length ≤ tzinfo_pos then
    if time.rest then none else some (time.microseconds, none)
  else if byte b tzinfo_pos = code 'Z' then
    if byte b (tzinfo_pos + 1) ≠ 0 then none else some (time.microseconds, some 0)
  else
    let offset ← parse_hh_mm_ss_ff b (tzinfo_pos + 1) b.length
    if offset.rest then none
    -- the microseconds of an offset of no whole seconds are not looked at
    else if offset.seconds = 0 then some (time.microseconds, some 0)
    -- an offset is strictly between minus and plus one day
    else if 86400 ≤ offset.seconds then none
    else if byte b tzinfo_pos = code '-' then some (time.microseconds, some (-offset.microseconds))
    else some (time.microseconds, some offset.microseconds)

/-- A parsed `datetime`: microseconds since 1970-01-01 as if in UTC, and the offset
of its `tzinfo` in microseconds. -/
structure DateTime where
  local_us : ℤ
  utcoffset : Option ℤ

/-- The ordinal of 1970-01-01. -/
def epoch_ord : ℤ := 719163

/-- `datetime.fromisoformat(text)`, `none` for its `ValueError`. The separator is one character of
any width; a text that ends where the date does is midnight. -/
def fromisoformat (s : Text) : Option DateTime := do
  let points := code_points s
  if points.length < 7 then none
  else
    let b ← as_utf8 (sanitize_isoformat_str points)
    let sep ← find_isoformat_datetime_separator b
    let ord ← parse_isoformat_date b sep
    let day_us := (ord - epoch_ord) * 86400000000
    if b.length ≤ sep then some ⟨day_us, none⟩
    else
      let (time_us, utcoffset) ← parse_isoformat_time b (sep + width (byte b sep))
      some ⟨day_us + time_us, utcoffset⟩

/-- `dt.timestamp()` of a `datetime` with a time zone: the difference from the epoch, exact in
microseconds, and one division. -/
def timestamp (local_us utcoffset : ℤ) : ℚ := to_double ((local_us - utcoffset : ℤ) / 1000000)

end F2bguard.Datetime
