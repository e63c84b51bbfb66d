import KvClient.Decimal.Digits

/-!
# Durations

A span of time in whole nanoseconds, and its text: the largest unit that is not zero, with as many
places as it takes to be exact.
-/

namespace KvClient

/-- A span of time. -/
structure Duration where
  nanoseconds : Nat
  deriving Repr, DecidableEq

namespace Duration

/-- A span of seconds and nanoseconds. -/
def ofParts (seconds nanoseconds : Nat) : Duration := ⟨seconds * 1000000000 + nanoseconds⟩

/-- A span of seconds. -/
def ofSeconds (seconds : Nat) : Duration := ofParts seconds 0

/-- The whole seconds of a span. -/
def seconds (d : Duration) : Nat := d.nanoseconds / 1000000000

/-- The nanoseconds beyond the whole seconds. -/
def subsecond (d : Duration) : Nat := d.nanoseconds % 1000000000

/-- The whole milliseconds in which a span fits. -/
def milliseconds (d : Duration) : Nat := (d.nanoseconds + 999999) / 1000000

/-- A number in base ten with at least `width` digits. -/
def padded (width n : Nat) : List Char :=
  let ds := Decimal.digits n
  List.replicate (width - ds.length) '0' ++ ds

/-- `part` units of `10 ^ -places`, without zeros at the end, behind a point if any are left. -/
def fraction (places part : Nat) : List Char :=
  match ((padded places part).reverse.dropWhile (· == '0')).reverse with
  | [] => []
  | ds => '.' :: ds

/-- A span as so many units of `10 ^ places` nanoseconds. -/
def inUnits (d : Duration) (places : Nat) (unit : String) : String :=
  String.ofList (Decimal.digits (d.nanoseconds / Nat.pow 10 places) ++
    (if places = 0 then [] else fraction places (d.nanoseconds % Nat.pow 10 places))) ++ unit

/-- The text of a span. -/
def text (d : Duration) : String :=
  if 1000000000 ≤ d.nanoseconds then d.inUnits 9 "s"
  else if 1000000 ≤ d.nanoseconds then d.inUnits 6 "ms"
  else if 1000 ≤ d.nanoseconds then d.inUnits 3 "µs"
  else d.inUnits 0 "ns"

theorem nanoseconds_eq (d : Duration) :
    d.nanoseconds = d.seconds * 1000000000 + d.subsecond := by
  unfold seconds subsecond
  omega

end Duration

end KvClient
