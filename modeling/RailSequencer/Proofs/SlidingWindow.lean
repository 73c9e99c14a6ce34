import Mathlib.Algebra.BigOperators.Group.List.Basic
import Mathlib.Algebra.Field.Basic
import Mathlib.Data.List.Rotate
import RailSequencer.SlidingAverage

/-!
# What a sliding window holds

A window that has taken a history of samples holds the last of them, as many as it has slots, each in
the slot that its place in the history gives it (`Follows`). The next sample keeps that up
(`Follows.add`), so every history does (`follows_ofSamples`). It takes the slot of the sample that is
as many places earlier as there are slots, and the running sum gives up just that sample. So where
numbers are exact the sum is that of the samples in the window (`sum_ofSamples`).
-/

namespace RailSequencer.SlidingAverage

theorem window_pos : 0 < window := by decide

/-- Places that are less than a window apart have different slots. -/
theorem slots_ne {place later : Nat} (before : place < later) (near : later < place + window) :
    later % window ≠ place % window := by
  change later % 10 ≠ place % 10
  have width : window = 10 := rfl
  omega

section

variable {α : Type}

/-- The samples in the window, the oldest one first: the slots that are taken, from the next one on. -/
def contents (average : SlidingAverage α) : List α :=
  (average.samples.toList.take average.count).rotate average.next

/-- The window holds the last samples of a history, each in the slot of its place. -/
structure Follows (average : SlidingAverage α) (history : List α) : Prop where
  count : average.count = min history.length window
  next : average.next.val = history.length % window
  slot : ∀ place < history.length, history.length ≤ place + window →
    average.samples[place % window]? = history[place]?

section

variable [Add α] [Sub α] (average : SlidingAverage α) (sample : α)

theorem count_add : (average.add sample).count =
    if window ≤ average.count then average.count else average.count + 1 := rfl

theorem next_add : (average.add sample).next.val = (average.next + 1) % window := rfl

theorem samples_add (slot : Nat) : (average.add sample).samples[slot]? =
    if average.next.val = slot then some sample else average.samples[slot]? :=
  Vector.getElem?_set average.next.isLt

theorem sum_add : (average.add sample).sum = (if window ≤ average.count then
    average.sum - average.samples.get average.next else average.sum) + sample := rfl

end

namespace Follows

variable {average : SlidingAverage α} {history : List α}

/-- In a full window the next slot holds the oldest sample. -/
theorem oldest (follows : average.Follows history) (full : window ≤ history.length) :
    history[history.length - window]? = some (average.samples.get average.next) := by
  have some := window_pos
  have slot := follows.slot (history.length - window) (by omega) (by omega)
  rw [← Nat.mod_eq_sub_mod full, ← follows.next] at slot
  exact slot.symm.trans (Vector.getElem?_eq_getElem average.next.isLt)

/-- While the window fills, slots are places. Once it is full, ages and places count the same slots, since
they are a whole round apart. -/
theorem slot_of_age (follows : average.Follows history) {age : Nat} (young : age < average.count) :
    (age + average.next) % average.count = (history.length - window + age) % window := by
  have count := follows.count
  rw [follows.next]
  rcases Nat.lt_or_ge history.length window with filling | full
  · have every : average.count = history.length := by omega
    rw [every, Nat.mod_eq_of_lt filling, Nat.add_mod_right, Nat.sub_eq_zero_of_le (by omega),
      Nat.zero_add, Nat.mod_eq_of_lt (by omega), Nat.mod_eq_of_lt (by omega)]
  · have every : average.count = window := by omega
    have round : age + history.length = history.length - window + age + window := by omega
    rw [every, Nat.add_mod_mod, round, Nat.add_mod_right]

/-- The samples in the window are the last ones, in their order. -/
theorem contents_eq (follows : average.Follows history) :
    average.contents = history.drop (history.length - window) := by
  have count := follows.count
  have held : (average.samples.toList.take average.count).length = average.count := by
    rw [List.length_take, Vector.length_toList]
    omega
  apply List.ext_getElem?
  intro age
  rcases Nat.lt_or_ge age average.count with young | old
  · have slot := follows.slot (history.length - window + age) (by omega) (by omega)
    rw [contents, List.getElem?_rotate (by omega), held, follows.slot_of_age young,
      List.getElem?_take_of_lt (by rw [← follows.slot_of_age young]; exact Nat.mod_lt _ (by omega)),
      Vector.getElem?_toList, List.getElem?_drop, slot]
  · rw [List.getElem?_eq_none, List.getElem?_eq_none]
    · rw [List.length_drop]
      omega
    · rw [contents, List.length_rotate]
      omega

/-- The mean divides by the number of samples in the window, where there are any. -/
theorem value_eq [NatCast α] [Div α] (follows : average.Follows history) (some : history ≠ []) :
    average.value = average.sum / ((min history.length window : Nat) : α) := by
  have taken := List.length_pos_iff.mpr some
  have wide := window_pos
  have count := follows.count
  rw [value, if_neg (by omega), count]

variable [Add α] [Sub α]

/-- The next sample takes the next slot. -/
theorem add (follows : average.Follows history) (sample : α) :
    (average.add sample).Follows (history ++ [sample]) where
  count := by
    have count := follows.count
    rw [count_add, List.length_append, List.length_singleton]
    split <;> omega
  next := by
    rw [next_add, follows.next, List.length_append, List.length_singleton, Nat.mod_add_mod]
  slot := by
    intro place taken recent
    rw [List.length_append, List.length_singleton] at taken recent
    rw [samples_add, follows.next]
    rcases Nat.lt_or_ge place history.length with before | last
    · rw [if_neg (slots_ne before (by omega)), List.getElem?_append_left before]
      exact follows.slot place before (by omega)
    · obtain rfl : place = history.length := by omega
      rw [if_pos rfl, List.getElem?_concat_length]

theorem sum_add_of_filling (follows : average.Follows history) (filling : history.length < window)
    (sample : α) : (average.add sample).sum = average.sum + sample := by
  have count := follows.count
  rw [sum_add, if_neg (by omega)]

/-- The oldest sample leaves a full window. -/
theorem sum_add_of_full (follows : average.Follows history) (full : window ≤ history.length)
    (sample : α) :
    (average.add sample).sum = average.sum - average.samples.get average.next + sample := by
  have count := follows.count
  rw [sum_add, if_pos (by omega)]

end Follows

variable [NatCast α] [Add α] [Sub α]

/-- The window after a history of samples, the first one first. -/
def ofSamples (history : List α) : SlidingAverage α := history.foldl add empty

theorem ofSamples_concat (history : List α) (sample : α) :
    ofSamples (history ++ [sample]) = (ofSamples history).add sample :=
  List.foldl_concat ..

theorem follows_ofSamples (history : List α) : (ofSamples history).Follows history := by
  induction history using List.reverseRecOn with
  | nil => exact ⟨rfl, rfl, nofun⟩
  | append_singleton history sample inductionHypothesis =>
    rw [ofSamples_concat]
    exact inductionHypothesis.add sample

end

/-- Where numbers are exact, the running sum is the sum of the samples in the window. -/
theorem sum_ofSamples {K : Type} [Field K] (history : List K) :
    (ofSamples history).sum = (history.drop (history.length - window)).sum := by
  induction history using List.reverseRecOn with
  | nil => exact Nat.cast_zero
  | append_singleton history sample inductionHypothesis =>
    have follows := follows_ofSamples history
    rw [ofSamples_concat, List.length_append, List.length_singleton]
    rcases Nat.lt_or_ge history.length window with filling | full
    · rw [follows.sum_add_of_filling filling, inductionHypothesis,
        Nat.sub_eq_zero_of_le (Nat.le_of_lt filling), Nat.sub_eq_zero_of_le filling,
        List.drop_zero, List.drop_zero, List.sum_append, List.sum_singleton]
    · have some := window_pos
      have there : history.length - window < history.length := by omega
      have oldest := follows.oldest full
      rw [List.getElem?_eq_getElem there, Option.some.injEq] at oldest
      rw [follows.sum_add_of_full full, inductionHypothesis, List.drop_eq_getElem_cons there,
        List.sum_cons, oldest, add_sub_cancel_left, Nat.sub_add_comm full,
        List.drop_append_of_le_length there, List.sum_append, List.sum_singleton]

/-- And the average is their mean. -/
theorem value_ofSamples {K : Type} [Field K] (history : List K) : (ofSamples history).value =
    (history.drop (history.length - window)).sum / ((min history.length window : Nat) : K) := by
  by_cases none : history = []
  · subst none
    simp only [ofSamples, List.foldl_nil, value, empty, if_true, List.drop_nil, List.sum_nil, zero_div,
      Nat.cast_zero]
  · rw [(follows_ofSamples history).value_eq none, sum_ofSamples]

end RailSequencer.SlidingAverage
