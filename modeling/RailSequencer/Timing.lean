/-!
# Timing of the sequencer

Times are natural numbers of microseconds, except where a name says milliseconds.
-/

namespace RailSequencer.Timing

/-- Microseconds in a millisecond. -/
def usPerMs : Nat := 1000

/-- How long the power button is held, unless set otherwise, before the shutdown is forced. -/
def defaultLongPressMs : Nat := 8000

/-- Time between two polls of a charger that is not ready. -/
def chargerRetryMs : Nat := 100

/-- Refusals after which one more refusal ends the power-up. -/
def chargerRetries : Nat := 40

/-- The window that a glitching line gets in S0. -/
def debounceUs : Nat := 100000

/-- A suspend is checked for its abort at least this often. -/
def abortSliceMs : Nat := 5

/-- Time between the suspend notification and the first falling rail. -/
def suspendGraceMs : Nat := 20

/-- Time between the last rail of a resume and the release of a held reset. -/
def resetReleaseMs : Nat := 10

/-- Width of a reset pulse. -/
def resetPulseUs : Nat := 1000

/-- How long a supply may take to come up. -/
def supplyTimeoutUs : Nat := 1000000

end RailSequencer.Timing
