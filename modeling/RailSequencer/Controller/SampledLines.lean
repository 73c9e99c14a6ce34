import RailSequencer.PowerError

/-!
# Sampled lines

The controller knows its monitored lines by samples. A slot beside the last sample tells a
task that waits for lines that they have changed; it holds no more than that, so a change may
be stale by the time it is seen, and a wait looks at the lines themselves.
-/

namespace RailSequencer.Controller

/-- The lines as last sampled, and whether they have changed since a waiting task looked. -/
structure SampledLines where
  lines : SignalMask := .empty
  changed : Bool := false
deriving DecidableEq, Repr

namespace SampledLines

/-- Take in a sample. -/
def take (sampled : SampledLines) (sample : SignalMask) : SampledLines :=
  if sample = sampled.lines then sampled else ⟨sample, true⟩

/-- Look at the lines for a wait: it is over at once, or a change from before is forgotten. -/
def look (sampled : SampledLines) (wanted : SignalMask) :
    SampledLines × Option (Except PowerError Unit) :=
  if sampled.lines.contains wanted then (sampled, some (.ok ()))
  else ({ sampled with changed := false }, none)

/-- A wait that is looked at has something to do: a change, or its deadline. -/
def isReady (sampled : SampledLines) (deadline now : Nat) : Bool :=
  sampled.changed || deadline ≤ now

/-- Look at a wait again. A change comes before the deadline, and one that does not end the
wait leaves the deadline to the next look. -/
def lookAgain (sampled : SampledLines) (wanted : SignalMask) (deadline now : Nat) :
    SampledLines × Option (Except PowerError Unit) :=
  if sampled.changed then
    { sampled with changed := false }.look wanted
  else if deadline ≤ now then
    (sampled, some (.error (.signalTimeout (wanted.missing sampled.lines))))
  else
    (sampled, none)

end SampledLines

end RailSequencer.Controller
