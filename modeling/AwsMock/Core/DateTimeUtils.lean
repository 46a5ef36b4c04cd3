import Mathlib.Tactic.Ring

/-! # Conversions of times

A time point counts nanoseconds. A zone says what is added to UTC at an instant, and which of
these offsets `mktime` takes for a local time that is not daylight saving time.
-/

namespace AwsMock.DateTimeUtils

/-- The fields of a `std::tm`; its `tm_isdst` is 0 throughout. -/
structure Tm where
  tm_year : Int
  tm_mon : Int
  tm_mday : Int
  tm_hour : Int
  tm_min : Int
  tm_sec : Int

structure Zone where
  offset : Int → Int
  standardOffset : Int → Int

/-- `std::format` with `{:%FT%TZ}` and `strptime` with `%FT%T`. -/
structure Calendar where
  format : Int → String
  strptime : String → Tm

def timePoint (seconds : Int) : Int := seconds * 1000000000

/-- The days from 1970-01-01 to a date, in years that begin in March. -/
def daysFromCivil (year mon mday : Int) : Int :=
  let y := if mon ≤ 2 then year - 1 else year
  let doy := (153 * (if mon > 2 then mon - 3 else mon + 9) + 2) / 5 + mday - 1
  y * 365 + y / 4 - y / 100 + y / 400 + doy - 719468

/-- The seconds of calendar fields that are taken for UTC. -/
def timegm (t : Tm) : Int :=
  daysFromCivil (t.tm_year + 1900) (t.tm_mon + 1) t.tm_mday * 86400 + t.tm_hour * 3600 +
    t.tm_min * 60 + t.tm_sec

def mktime (zone : Zone) (t : Tm) : Int := timegm t - zone.standardOffset (timegm t)

/-- The local time of `zoned_time` at an instant. -/
def getLocalTime (zone : Zone) (seconds : Int) : Int :=
  timePoint (seconds + zone.offset seconds)

variable (zone : Zone) (calendar : Calendar)

def ToISO8601 (timePoint : Int) : String := calendar.format timePoint

def FromISO8601 (dateString : String) : Int :=
  let t := calendar.strptime dateString
  timePoint (mktime zone { t with tm_hour := t.tm_hour + 1 })

def UnixTimestampMs (timePoint : Int) : Int := timePoint.tdiv 1000000

def UtcOffset (now : Int) : Int := zone.offset now

def FromUnixTimestamp (now timestamp : Int) : Int :=
  timestamp * 1000000 + timePoint (UtcOffset zone now)

def ConvertToUtc (now value : Int) : Int :=
  timePoint (value.tdiv 1000000000 - UtcOffset zone now)

theorem timePoint_inj {a b : Int} : timePoint a = timePoint b ↔ a = b := by
  unfold timePoint
  omega

theorem tdiv_timePoint (seconds : Int) : (timePoint seconds).tdiv 1000000000 = seconds :=
  Int.mul_tdiv_cancel _ (by decide)

theorem timegm_add_hour (t : Tm) :
    timegm { t with tm_hour := t.tm_hour + 1 } = timegm t + 3600 := by
  unfold timegm
  ring

theorem fromISO8601_toISO8601 (t : Int)
    (hcalendar : timegm (calendar.strptime (calendar.format (timePoint t))) = t) :
    FromISO8601 zone calendar (ToISO8601 calendar (timePoint t)) =
      timePoint (t + 3600 - zone.standardOffset (t + 3600)) := by
  unfold FromISO8601 ToISO8601 mktime
  dsimp only
  rw [timegm_add_hour, hcalendar]

theorem fromUnixTimestamp_unixTimestampMs (now t : Int) :
    FromUnixTimestamp zone now (UnixTimestampMs (timePoint t)) =
      timePoint (t + zone.offset now) := by
  have hms : (timePoint t).tdiv 1000000 = t * 1000 := by
    have heq : timePoint t = t * 1000 * 1000000 := by
      unfold timePoint
      omega
    rw [heq]
    exact Int.mul_tdiv_cancel _ (by decide)
  unfold FromUnixTimestamp UnixTimestampMs UtcOffset
  rw [hms]
  unfold timePoint
  omega

theorem convertToUtc_getLocalTime (now t : Int) :
    ConvertToUtc zone now (getLocalTime zone t) =
      timePoint (t + zone.offset t - zone.offset now) := by
  unfold ConvertToUtc getLocalTime UtcOffset
  rw [tdiv_timePoint]

/-- Each conversion gives an instant back at the offset it was written for only. -/
theorem conversions_inverse_iff (now t : Int)
    (hcalendar : timegm (calendar.strptime (calendar.format (timePoint t))) = t) :
    (FromISO8601 zone calendar (ToISO8601 calendar (timePoint t)) = timePoint t ↔
      zone.standardOffset (t + 3600) = 3600) ∧
    (FromUnixTimestamp zone now (UnixTimestampMs (timePoint t)) = timePoint t ↔
      zone.offset now = 0) ∧
    (ConvertToUtc zone now (getLocalTime zone t) = timePoint t ↔
      zone.offset t = zone.offset now) := by
  rw [fromISO8601_toISO8601 zone calendar t hcalendar, fromUnixTimestamp_unixTimestampMs,
    convertToUtc_getLocalTime]
  refine ⟨timePoint_inj.trans ?_, timePoint_inj.trans ?_, timePoint_inj.trans ?_⟩ <;> omega

def noon : Calendar where
  format _ := "2024-07-01T12:00:00.000000000Z"
  strptime _ := ⟨124, 6, 1, 12, 0, 0⟩

def utc : Zone := ⟨fun _ => 0, fun _ => 0⟩

theorem conversions_inverse_iff_noon :
    (FromISO8601 utc noon (ToISO8601 noon (timePoint 1719835200)) = timePoint 1719835200 ↔
      utc.standardOffset (1719835200 + 3600) = 3600) ∧
    (FromUnixTimestamp utc 0 (UnixTimestampMs (timePoint 1719835200)) = timePoint 1719835200 ↔
      utc.offset 0 = 0) ∧
    (ConvertToUtc utc 0 (getLocalTime utc 1719835200) = timePoint 1719835200 ↔
      utc.offset 1719835200 = utc.offset 0) :=
  conversions_inverse_iff utc noon 0 1719835200 (by decide)

/-- In UTC an hour is added. -/
theorem fromISO8601_noon_later :
    FromISO8601 utc noon (ToISO8601 noon (timePoint 1719835200)) ≠ timePoint 1719835200 := by
  decide

end AwsMock.DateTimeUtils
