import ServerWall.Lib.Text

/-!
# Calendar time

Moments are counted in nanoseconds from 1970. A `DateTime` is a moment the calendar library can
represent; a sum that leaves that range, where the source's `+` panics, is `none`. An `Instant` is
what the clock of the host can read, from 1970 on and before the year 10000.
-/

namespace ServerWall

abbrev TimeDelta := Int

namespace TimeDelta

def second : Int := 1000000000

/-- `TimeDelta::try_seconds`: a span holds at most `i64::MAX` milliseconds. -/
def trySeconds (n : Int) : Option TimeDelta :=
  if -9223372036854775 ≤ n ∧ n ≤ 9223372036854775 then some (n * second) else none

def tryMinutes (n : Int) : Option TimeDelta := trySeconds (n * 60)

def tryHours (n : Int) : Option TimeDelta := trySeconds (n * 3600)

def tryDays (n : Int) : Option TimeDelta := trySeconds (n * 86400)

end TimeDelta

open TimeDelta (second)

/-- A moment of the calendar: `DateTime<Utc>`, from the year -262143 to the
year 262142. -/
@[ext] structure DateTime where
  ns : Int
  lower : -8334601228800 * TimeDelta.second ≤ ns
  upper : ns < 8210266876800 * TimeDelta.second
  deriving DecidableEq

/-- `t + d`; `none` is the panic of a sum outside the calendar. -/
def DateTime.add (t : DateTime) (d : TimeDelta) : Option DateTime :=
  if h : -8334601228800 * TimeDelta.second ≤ t.ns + d ∧ t.ns + d < 8210266876800 * TimeDelta.second then
    some ⟨t.ns + d, h.1, h.2⟩
  else none

structure Instant where
  ns : Nat
  bound : ns < 253402300800 * 1000000000
  deriving DecidableEq

namespace Instant

def toDateTime (t : Instant) : DateTime where
  ns := t.ns
  lower := by
    have h : (0 : Int) ≤ (t.ns : Int) := Int.natCast_nonneg _
    unfold TimeDelta.second
    omega
  upper := by
    have h := t.bound
    unfold TimeDelta.second
    omega

/-- A span of a quarter of a million years, in either direction. -/
def calendarReach : Int := 7956864576000 * TimeDelta.second

/-- Such a span takes no reading of the clock out of the calendar. -/
theorem add_isSome {t : Instant} (hlow : -calendarReach ≤ d) (hh : d ≤ calendarReach) : (t.toDateTime.add d).isSome := by
  have hb := t.bound
  unfold calendarReach second at hlow hh
  have hf : -8334601228800 * second ≤ t.toDateTime.ns + d ∧
      t.toDateTime.ns + d < 8210266876800 * second := by
    unfold second toDateTime
    dsimp only
    omega
  rw [DateTime.add, dif_pos hf]
  rfl

def timestamp (t : Instant) : Nat := t.ns / 1000000000

def timestampMillis (t : Instant) : Nat := t.ns / 1000000

/-- Year, month and day of a day counted from 1970, by the Gregorian calendar
with years that begin in March. -/
def civil (day : Nat) : Nat × Nat × Nat :=
  let z := day + 719468
  let era := z / 146097
  let doe := z % 146097
  let yoe := (doe - doe / 1460 + doe / 36524 - doe / 146096) / 365
  let doy := doe - (365 * yoe + yoe / 4 - yoe / 100)
  let mp := (5 * doy + 2) / 153
  let month := if mp < 10 then mp + 3 else mp - 9
  let year := yoe + era * 400
  (if month ≤ 2 then year + 1 else year, month, doy - (153 * mp + 2) / 5 + 1)

def weekdays : List String := ["Thu", "Fri", "Sat", "Sun", "Mon", "Tue", "Wed"]

def months : List String := ["Jan", "Feb", "Mar", "Apr", "May", "Jun", "Jul", "Aug", "Sep", "Oct", "Nov", "Dec"]

def toRfc2822 (t : Instant) : Text :=
  let day := t.timestamp / 86400
  let sec := t.timestamp % 86400
  let (year, month, dayOfMonth) := civil day
  let two (n : Nat) : Text := Text.zeroPad 2 (Text.dec n)
  Text.fmt [weekdays.getD (day % 7) "", ", ", Text.dec dayOfMonth, " ", months.getD (month - 1) "", " ",
    Text.zeroPad 4 (Text.dec year), " ", two (sec / 3600), ":", two (sec / 60 % 60), ":", two (sec % 60), " +0000"]

example : toRfc2822 ⟨1424301369000000000, by decide⟩ = "Wed, 18 Feb 2015 23:16:09 +0000" := by
  decide +kernel

example : toRfc2822 ⟨0, by decide⟩ = "Thu, 1 Jan 1970 00:00:00 +0000" := by decide +kernel

end Instant

end ServerWall
