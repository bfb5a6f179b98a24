import SoloDock.Lib.Encoding

/-!
# Instants and their stored text

An instant is a number of nanoseconds since the Unix epoch. `rfc3339` is the text the
`time` crate writes for an instant in UTC: a date, a time of day, the fraction of the
second without its trailing zeros, and `Z`.
-/

namespace SoloDock.Lib

/-- Nanoseconds since the Unix epoch. -/
abbrev Instant := Int

def nanosPerSecond : Int := 1000000000

namespace Instant

def seconds (n : Int) : Int := n * nanosPerSecond

def minutes (n : Int) : Int := seconds (n * 60)

/-- Whole seconds since the epoch, rounded down. -/
def unixTimestamp (t : Instant) : Int := t / nanosPerSecond

/-- The fraction of the second. -/
def nanosecond (t : Instant) : Nat := (t % nanosPerSecond).toNat

end Instant

/-- A day of the Gregorian calendar. -/
structure Date where
  year : Int
  month : Nat
  day : Nat
deriving DecidableEq, Repr

/-- The date of a day, counted from 1970-01-01; `none` before the year -400. Days are
counted from a first of March, so that the leap day is the last day of a year. -/
def dateOfDay (day : Int) : Option Date :=
  if day + 865565 < 0 then none
  else
    let z := (day + 865565).toNat
    let era := z / 146097
    let dayOfEra := z % 146097
    let yearOfEra := (dayOfEra - dayOfEra / 1460 + dayOfEra / 36524 - dayOfEra / 146096) / 365
    let dayOfYear := dayOfEra - (365 * yearOfEra + yearOfEra / 4 - yearOfEra / 100)
    let fromMarch := (5 * dayOfYear + 2) / 153
    let month := if fromMarch < 10 then fromMarch + 3 else fromMarch - 9
    some {
      year := ((era * 400 + yearOfEra : Nat) : Int) - 400 + (if month ≤ 2 then 1 else 0)
      month
      day := dayOfYear - (153 * fromMarch + 2) / 5 + 1 }

/-- The fraction of a second, without trailing zeros; nothing for a whole second. -/
def fractionText (nanosecond : Nat) : List Char :=
  if nanosecond = 0 then []
  else '.' :: ((padded 9 nanosecond).reverse.dropWhile (· = '0')).reverse

/-- The RFC 3339 text of an instant; only the years 0 to 9999 have one. -/
def rfc3339 (t : Instant) : Option String :=
  match dateOfDay (t.unixTimestamp / 86400) with
  | none => none
  | some date =>
    if 0 ≤ date.year ∧ date.year ≤ 9999 then
      let second := (t.unixTimestamp % 86400).toNat
      some (String.ofList (padded 4 date.year.toNat ++ '-' :: padded 2 date.month
        ++ '-' :: padded 2 date.day ++ 'T' :: padded 2 (second / 3600)
        ++ ':' :: padded 2 (second / 60 % 60) ++ ':' :: padded 2 (second % 60)
        ++ fractionText t.nanosecond ++ ['Z']))
    else none

example : rfc3339 1756512000500000000 = some "2025-08-30T00:00:00.5Z" := by decide

end SoloDock.Lib
