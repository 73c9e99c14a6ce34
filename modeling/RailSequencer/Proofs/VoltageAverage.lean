import Mathlib.Algebra.CharZero.Defs
import Mathlib.Tactic.NormNum
import RailSequencer.Proofs.SlidingWindow
import RailSequencer.Proofs.Stores
import RailSequencer.Proofs.Unmeasured

/-!
# The average of the input voltage

Of the acts of a session a boot empties the window of the voltage, and a round takes a reading into it
if the converter brings one. So the window has taken the readings since the last boot and no others
(`BootInvariant.averages`), and what holds of every window that slides over a history of samples holds
of this one (`average_slides`). A reading that fails moves nothing.
-/

namespace RailSequencer.Controller

open SlidingAverage (empty ofSamples window)

/-- The volts that a reading of the converter stands for. -/
def voltsOf (reading : UInt16) : Binary32 := (reading.toNat : Binary32) * voltsPerStep

/-- The window has taken these readings, and the voltage that is kept is their average. -/
structure Readings.Average (kept : Readings) (readings : List UInt16) : Prop where
  vin : kept.vin = ofSamples (readings.map voltsOf)
  vinMillivolts : kept.vinMillivolts =
    (kept.vin.value * ((1000 : Nat) : Binary32)).truncate mostMillivolts

namespace Live

variable {live : Live} {readings : List UInt16}

/-- A reading that comes is taken into the window. -/
theorem average_pollConverter (average : live.senses.readings.Average readings) :
    live.pollConverter.senses.readings.Average
      (if live.converts then readings ++ [live.hardware.vinReading] else readings) := by
  obtain ⟨vin, vinMillivolts⟩ := average
  rw [converts, pollConverter]
  split
  next due =>
    rw [decide_eq_true due]
    dsimp only
    split
    next fails =>
      rw [fails]
      exact ⟨vin, vinMillivolts⟩
    next reads =>
      rw [Bool.not_eq_true] at reads
      rw [reads]
      refine ⟨?_, rfl⟩
      change live.senses.readings.vin.add (voltsOf live.hardware.vinReading) =
        ofSamples ((readings ++ [live.hardware.vinReading]).map voltsOf)
      rw [vin, List.map_append, List.map_singleton, SlidingAverage.ofSamples_concat]
  next early =>
    rw [decide_eq_false early]
    exact ⟨vin, vinMillivolts⟩

theorem average_round (average : live.senses.readings.Average readings) :
    live.round.senses.readings.Average (Act.noteReading readings (.round live live.round)) := by
  have taken : live.round.senses.readings = live.beforeConverter.pollConverter.senses.readings := by
    rw [round]
    simp only [senses_pollHost, senses_poll, senses_pollTimer, senses_pollLid, senses_pollButton]
    rfl
  obtain ⟨converts, reading⟩ := live.converts_beforeConverter
  rw [← live.senses_beforeConverter] at average
  rw [taken, Act.noteReading, ← converts, ← reading]
  exact average_pollConverter average

theorem average_boot (before : Hardware) (reason : ResetReason) :
    (boot before reason).senses.readings.Average [] := by
  have zero : (empty.value * ((1000 : Nat) : Binary32)).truncate mostMillivolts = 0 := by decide
  rw [senses_boot]
  exact ⟨rfl, zero.symm⟩

end Live

/-- Whatever is done in a session, the window has taken the readings since the last boot. -/
def BootInvariant.averages : BootInvariant where
  holds _ past live := live.senses.readings.Average (Act.readings past)
  boot past before reason := by
    rw [Act.readings_concat]
    exact Live.average_boot before reason
  round average := by
    rw [Act.readings_concat]
    exact Live.average_round average
  inputs _ average := by
    rw [Act.readings_concat]
    exact average
  passes _ _ _ average := average
  unsensed _ same average := by
    rw [same]
    exact average

/-- No number of samples in a window is rounded to zero. -/
theorem magnitude_natCast {count : Nat} (some : 0 < count) (within : count ≤ window) :
    (count : Binary32).magnitude ≠ 0 := by
  have each : ∀ count : Fin (window + 1), 0 < count.val →
      ((count.val : Nat) : Binary32).magnitude ≠ 0 := by decide
  exact each ⟨count, Nat.lt_succ_of_le within⟩ some

/-- The voltage is averaged over a window that slides. Whatever the numbers are, a window that has taken
a history of samples counts them up to its width, goes round its slots, and holds the last ones, each in
the slot of its place. The next sample is added to the sum; when the window is full, the oldest sample,
which is in the next slot and came as many samples ago as the window is wide, is subtracted first. The
average is the sum divided by the number of samples in the window, which is not zero, nor rounded to
zero, and there is no division before the first sample. Where numbers are exact, the average is the mean
of the last samples. And in every session the window of the controller has taken what the converter has
read since the last boot. -/
theorem average_slides (K : Type) [Field K] [CharZero K] :
    (∀ (α : Type) [NatCast α] [Add α] [Sub α] [Div α] (history : List α),
      let average := ofSamples history
      average.Follows history ∧
      average.contents = history.drop (history.length - window) ∧
      (history.length < window → ∀ sample, (average.add sample).sum = average.sum + sample) ∧
      (window ≤ history.length → ∃ oldest, history[history.length - window]? = some oldest ∧
        average.samples.get average.next = oldest ∧
        ∀ sample, (average.add sample).sum = average.sum - oldest + sample) ∧
      (history = [] → average.value = ((0 : Nat) : α)) ∧
      (history ≠ [] → average.value = average.sum / ((min history.length window : Nat) : α))) ∧
    (∀ count : Nat, 0 < count → count ≤ window →
      (count : Binary32).magnitude ≠ 0 ∧ (count : K) ≠ 0) ∧
    (∀ history : List K, (ofSamples history).value =
      (history.drop (history.length - window)).sum / ((min history.length window : Nat) : K)) ∧
    (∀ (hardware : Hardware) (timed : List Timed) (commands : List Session.Command) (live : Live),
      (Session.executeAll ⟨.off hardware, timed⟩ commands).power = .on live →
      let readings := Act.readings (Session.acts commands ⟨.off hardware, timed⟩)
      live.ram.vin = ofSamples (readings.map voltsOf) ∧
      live.ram.vinMillivolts =
        (live.ram.vin.value * ((1000 : Nat) : Binary32)).truncate mostMillivolts) := by
  refine ⟨fun α _ _ _ _ history => ?_, fun count some within => ?_, SlidingAverage.value_ofSamples, ?_⟩
  · have follows := SlidingAverage.follows_ofSamples history
    refine ⟨follows, follows.contents_eq, fun filling => follows.sum_add_of_filling filling,
      fun full => ⟨_, follows.oldest full, rfl, follows.sum_add_of_full full⟩, ?_, follows.value_eq⟩
    rintro rfl
    rfl
  · exact ⟨magnitude_natCast some within, Nat.cast_ne_zero.mpr (Nat.ne_of_gt some)⟩
  · intro hardware timed commands live on
    obtain ⟨_, _, -, vin, vinMillivolts⟩ := BootInvariant.averages.holds_acts on
    exact ⟨vin, vinMillivolts⟩

/-- The converter reads, fails to read, and reads again. -/
def readsTwice : List Session.Command :=
  [.apply (.vin 1000), .apply (.boot .power), .advance 20, .apply (.converterFails true), .advance 20,
    .apply (.converterFails false), .apply (.vin 1300), .advance 20]

/-- Of the numbers from one to twelve the first two have left the window, and the third will be next. A
window with two samples gives none up. A reading that fails does not move the window. -/
theorem average_slides_twelve :
    let average := ofSamples [(1 : ℚ), 2, 3, 4, 5, 6, 7, 8, 9, 10, 11, 12]
    let begun := ofSamples [(1 : ℚ), 2]
    average.contents = [3, 4, 5, 6, 7, 8, 9, 10, 11, 12] ∧ average.next.val = 2 ∧
      average.samples.get average.next = 3 ∧ (average.add 13).sum = average.sum - 3 + 13 ∧
      average.value = average.sum / ((10 : Nat) : ℚ) ∧ average.value = 15 / 2 ∧ ((10 : Nat) : ℚ) ≠ 0 ∧
      (begun.add 3).sum = begun.sum + 3 ∧
      ∃ live, (Session.executeAll ⟨.off {}, []⟩ readsTwice).power = .on live ∧
        live.ram.vin = ofSamples [voltsOf 1000, voltsOf 1300] := by
  intro average begun
  obtain ⟨slides, divisors, means, sessions⟩ := average_slides ℚ
  obtain ⟨follows, contents, -, full, -, divided⟩ :=
    slides ℚ [1, 2, 3, 4, 5, 6, 7, 8, 9, 10, 11, 12]
  obtain ⟨-, -, filling, -⟩ := slides ℚ [1, 2]
  obtain ⟨oldest, third, here, sum⟩ := full (by decide)
  obtain rfl : 3 = oldest := Option.some.inj third
  have mean : average.value = 15 / 2 := by
    rw [means [1, 2, 3, 4, 5, 6, 7, 8, 9, 10, 11, 12]]
    norm_num [window]
  have passes : (Session.executeAll ⟨.off {}, []⟩ readsTwice).power.passes (fun _ => true) = true := by
    decide +kernel
  have readings : Act.readings (Session.acts readsTwice ⟨.off {}, []⟩) = [1000, 1300] := by
    decide +kernel
  obtain ⟨live, on, -⟩ := Power.exists_of_passes passes
  have taken := (sessions {} [] readsTwice live on).1
  rw [readings] at taken
  exact ⟨contents, follows.next, here, sum 13, divided nofun, mean,
    (divisors 10 (by decide) (by decide)).2, filling (by decide) 3, live, on, taken⟩

end RailSequencer.Controller
