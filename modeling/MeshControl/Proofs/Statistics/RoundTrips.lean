import Mathlib.Algebra.Group.Action.Defs
import Mathlib.Algebra.Order.BigOperators.Group.List
import Mathlib.Algebra.Order.Ring.Nat
import MeshControl.Statistics

/-! The mean round-trip time. However many samples are recorded, the latest of them are kept, in
the order in which they came; their sum stays within 64 bits, so that the mean is exact.
-/

namespace MeshControl

namespace RoundTrips

-----------------------------------------------------------------------------------------
-- What is kept
-----------------------------------------------------------------------------------------

/-- The latest of a history of times: all, or as many as are kept. -/
def latest (history : List Duration) : List Duration :=
  history.drop (history.length - capacity)

/-- One sample is kept for each of the latest times, the oldest first. -/
def Holds (trips : RoundTrips) (history : List Duration) : Prop :=
  trips.samples = (latest history).map fun time => UInt64.ofNat time.microseconds

variable {trips : RoundTrips} {history : List Duration}

@[simp] theorem length_latest (history : List Duration)
    : (latest history).length = min capacity history.length := by
  rw [latest, List.length_drop]
  omega

/-- One time more takes the place of the oldest, if there is no room beside it. -/
theorem latest_concat (history : List Duration) (time : Duration)
    : latest (history ++ [time])
      = (if (latest history).length ≥ capacity then (latest history).tail else latest history)
        ++ [time] := by
  simp only [length_latest]
  simp only [latest, List.length_append, List.length_singleton]
  split_ifs with full
  · have further : history.length + 1 - capacity = history.length - capacity + 1 := by omega
    have early : history.length - capacity + 1 ≤ history.length := by
      simp only [capacity] at full ⊢
      omega
    rw [further, List.drop_append_of_le_length early, List.tail_drop]
  · have all : history.length + 1 - capacity = 0 := by omega
    have before : history.length - capacity = 0 := by omega
    rw [all, before, List.drop_zero, List.drop_zero]

theorem Holds.record (holds : trips.Holds history) (time : Duration)
    : (trips.record time).Holds (history ++ [time]) := by
  unfold Holds at holds ⊢
  rw [latest_concat, List.map_append, RoundTrips.record, holds, List.length_map]
  split_ifs
  · rw [List.map_tail]
    rfl
  · rfl

/-- What is kept after a row of times, by induction on the times. -/
theorem Holds.foldl_record (holds : trips.Holds history) (times : List Duration)
    : (times.foldl RoundTrips.record trips).Holds (history ++ times) := by
  induction times generalizing trips history with
  | nil => rwa [List.append_nil]
  | cons time later ih =>
      rw [← List.singleton_append, ← List.append_assoc]
      exact ih (holds.record time)

-----------------------------------------------------------------------------------------
-- Their sum
-----------------------------------------------------------------------------------------

/-- Words are added as numbers are, while the sum is within 64 bits. -/
theorem toNat_foldl_add_of_lt {words : List UInt64} {sum : UInt64}
    (within : sum.toNat + (words.map UInt64.toNat).sum < 2 ^ 64)
    : (words.foldl (· + ·) sum).toNat = sum.toNat + (words.map UInt64.toNat).sum := by
  induction words generalizing sum with
  | nil => rfl
  | cons word rest ih =>
      rw [List.map_cons, List.sum_cons] at within ⊢
      have added : (sum + word).toNat = sum.toNat + word.toNat := by
        rw [UInt64.toNat_add]
        omega
      rw [List.foldl_cons, ih (by omega), added, Nat.add_assoc]

/-- The most that a span of less than 2⁶⁴ nanoseconds has in microseconds. -/
def longest : Nat := (2 ^ 64 - 1) / 1000

section Short

variable (short : ∀ time ∈ history, time.nanoseconds < 2 ^ 64)
include short

theorem microseconds_le {time : Duration} (member : time ∈ latest history)
    : time.microseconds ≤ longest :=
  Nat.div_le_div_right (Nat.le_sub_one_of_lt (short time (List.mem_of_mem_drop member)))

/-- A sample of a short time is its number of microseconds. -/
theorem Holds.map_toNat (holds : trips.Holds history)
    : trips.samples.map UInt64.toNat = (latest history).map Duration.microseconds := by
  rw [holds, List.map_map]
  refine List.map_congr_left fun time member => ?_
  have few := microseconds_le short member
  have bound : longest < 2 ^ 64 := by decide
  exact UInt64.toNat_ofNat_of_lt' (Nat.lt_of_le_of_lt few bound)

/-- The sum of all that is kept is far below 2⁶⁴. -/
theorem sum_latest_le
    : ((latest history).map Duration.microseconds).sum ≤ capacity * longest := by
  have each : ∀ count ∈ (latest history).map Duration.microseconds, count ≤ longest := by
    intro count member
    obtain ⟨time, kept, rfl⟩ := List.mem_map.mp member
    exact microseconds_le short kept
  have sum := List.sum_le_card_nsmul _ _ each
  rw [List.length_map, length_latest, smul_eq_mul] at sum
  exact sum.trans (Nat.mul_le_mul_right _ (Nat.min_le_left _ _))

theorem Holds.map_toNat_average (holds : trips.Holds history)
    : trips.average.map UInt64.toNat
      = if history = [] then none
        else some (((latest history).map Duration.microseconds).sum
          / min capacity history.length) := by
  have samples := holds.map_toNat short
  have length : trips.samples.length = min capacity history.length := by
    rw [holds, List.length_map, length_latest]
  have none_kept : trips.samples.isEmpty = true ↔ history = [] := by
    rw [List.isEmpty_iff, ← List.length_eq_zero_iff, length, ← List.length_eq_zero_iff, capacity]
    omega
  rw [average, if_congr none_kept rfl rfl]
  split_ifs with empty
  · rfl
  · have within : UInt64.toNat 0 + (trips.samples.map UInt64.toNat).sum < 2 ^ 64 := by
      rw [samples]
      have few := sum_latest_le short
      have bound : capacity * longest < 2 ^ 64 := by decide
      simp only [UInt64.toNat_zero, Nat.zero_add]
      omega
    have count : (UInt64.ofNat trips.samples.length).toNat = min capacity history.length := by
      rw [length]
      refine UInt64.toNat_ofNat_of_lt' (Nat.lt_of_le_of_lt (Nat.min_le_left _ _) ?_)
      decide
    rw [Option.map_some, UInt64.toNat_div, toNat_foldl_add_of_lt within, samples, count,
      UInt64.toNat_zero, Nat.zero_add]

end Short

end RoundTrips

namespace Counters

theorem roundTrips_foldl_recordResponse (counters : Counters) (times : List Duration)
    : (times.foldl recordResponse counters).roundTrips
      = times.foldl RoundTrips.record counters.roundTrips := by
  induction times generalizing counters with
  | nil => rfl
  | cons time later ih => exact ih (counters.recordResponse time)

/-- After any row of answers whose times are below 2⁶⁴ nanoseconds, the samples are the whole
microseconds of the latest 32 times, or of all if there were fewer; their sum is within 64 bits;
and the average is the floor of their mean, of which there is none before the first answer.
-/
theorem average_eq_mean_of_latest {times : List Duration}
    (short : ∀ time ∈ times, time.nanoseconds < 2 ^ 64)
    : let trips := (times.foldl recordResponse {}).roundTrips
      let counts := (times.drop (times.length - 32)).map fun time => time.nanoseconds / 1000
      trips.samples.map UInt64.toNat = counts
      ∧ trips.samples.length = min 32 times.length
      ∧ counts.sum < 2 ^ 64
      ∧ trips.average.map UInt64.toNat
        = if times = [] then none else some (counts.sum / min 32 times.length) := by
  have holds : RoundTrips.Holds (times.foldl recordResponse {}).roundTrips times := by
    rw [roundTrips_foldl_recordResponse]
    have none_yet : RoundTrips.Holds {} [] := rfl
    exact none_yet.foldl_record times
  refine ⟨holds.map_toNat short, ?_, ?_, holds.map_toNat_average short⟩
  · rw [holds, List.length_map, RoundTrips.length_latest]
    rfl
  · exact Nat.lt_of_le_of_lt (RoundTrips.sum_latest_le short) (by decide)

/-- Eight of the longest times have made room; a part of a microsecond counts for nothing, in a
sample and in the mean.
-/
theorem average_eq_mean_of_latest_slid
    : let times := List.replicate 8 ⟨2 ^ 64 - 1⟩ ++ List.replicate 31 ⟨1999⟩ ++ [⟨64999⟩]
      (∀ time ∈ times, time.nanoseconds < 2 ^ 64)
      ∧ (times.foldl recordResponse {}).roundTrips.average.map UInt64.toNat = some 2 := by
  intro times
  have short : ∀ time ∈ times, time.nanoseconds < 2 ^ 64 := by decide
  exact ⟨short, (average_eq_mean_of_latest short).2.2.2.trans (by decide)⟩

end Counters

end MeshControl
