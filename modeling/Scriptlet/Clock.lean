/-!
# Time

Programs can read a clock and sleep. The clock gives its readings one after another; time spent
asleep is added to those after it.
-/

namespace Scriptlet

/-- A clock: its readings in seconds, how many were taken, and the seconds spent asleep. -/
structure Clock where
  readings : Nat → Float
  taken : Nat
  slept : Float

namespace Clock

/-- A clock with given readings. -/
def ofReadings (readings : Nat → Float) : Clock :=
  ⟨readings, 0, 0⟩

/-- The seconds that the next reading gives. -/
def now (clock : Clock) : Float :=
  clock.readings clock.taken + clock.slept

/-- The clock after one more reading. -/
def read (clock : Clock) : Clock :=
  { clock with taken := clock.taken + 1 }

/-- The seconds of a time to sleep in milliseconds. A negative time takes none. -/
def seconds (milliseconds : Float) : Float :=
  if 0 < milliseconds then milliseconds / 1000 else 0

/-- The clock after some time asleep. -/
def sleep (clock : Clock) (milliseconds : Float) : Clock :=
  { clock with slept := clock.slept + seconds milliseconds }

end Clock

end Scriptlet
