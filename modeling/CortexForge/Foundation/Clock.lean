import Mathlib.Algebra.BigOperators.Ring.Finset
import Mathlib.Algebra.Order.BigOperators.Group.Finset
import Mathlib.Data.List.Chain
import Mathlib.Order.Bounds.Basic
import Mathlib.Order.Interval.Finset.Nat

/-!
Contract: a tick counter kept in a machine word, and time spent in disjoint spans.

The true number of ticks is a natural number; a program sees its image in a 64-bit word.
The difference of two readings is exact as long as less than one turn of the counter lies
between them, whatever the counter started from and even if it wrapped in between.

Owns: differences of readings and their conversion to another unit, loops that poll the
clock at a pace, and the sum of the lengths of pairwise disjoint spans.
-/

namespace CortexForge.Foundation

namespace Clock

/-- The difference of two readings is the true difference, up to full turns. -/
theorem elapsed_toNat {earlier later : Nat} (ordered : earlier ≤ later) :
    (UInt64.ofNat later - UInt64.ofNat earlier).toNat = (later - earlier) % 2 ^ 64 := by
  rw [UInt64.toNat_sub, UInt64.toNat_ofNat', UInt64.toNat_ofNat']
  omega

/-- Converted to another unit, the difference is rounded down once, if the product fits. -/
theorem elapsed_scaled {earlier later : Nat} (ordered : earlier ≤ later) (scale rate : UInt64)
    (fits : (later - earlier) * scale.toNat < 2 ^ 64) (positive : 0 < scale.toNat) :
    ((UInt64.ofNat later - UInt64.ofNat earlier) * scale / rate).toNat =
      (later - earlier) * scale.toNat / rate.toNat := by
  have small : later - earlier < 2 ^ 64 :=
    Nat.lt_of_le_of_lt (Nat.le_mul_of_pos_right _ positive) fits
  rw [UInt64.toNat_div, UInt64.toNat_mul, elapsed_toNat ordered, Nat.mod_eq_of_lt small,
    Nat.mod_eq_of_lt fits]

/-- Where the product does not fit, the converted difference is too small, never too
large. -/
theorem elapsed_scaled_le {earlier later : Nat} (ordered : earlier ≤ later)
    (scale rate : UInt64) :
    ((UInt64.ofNat later - UInt64.ofNat earlier) * scale / rate).toNat ≤
      (later - earlier) * scale.toNat / rate.toNat := by
  rw [UInt64.toNat_div, UInt64.toNat_mul, elapsed_toNat ordered]
  refine Nat.div_le_div_right ?_
  calc (later - earlier) % 2 ^ 64 * scale.toNat % 2 ^ 64
      ≤ (later - earlier) % 2 ^ 64 * scale.toNat := Nat.mod_le _ _
    _ ≤ (later - earlier) * scale.toNat := Nat.mul_le_mul_right _ (Nat.mod_le _ _)

/-- Within one turn of the counter, a test of the difference is a test of the true time. -/
theorem elapsed_lt_iff {earlier later : Nat} (ordered : earlier ≤ later)
    (near : later - earlier < 2 ^ 64) (limit : UInt64) :
    UInt64.ofNat later - UInt64.ofNat earlier < limit ↔ later - earlier < limit.toNat := by
  rw [UInt64.lt_iff_toNat_lt, elapsed_toNat ordered, Nat.mod_eq_of_lt near]

/-! ## Paced readings -/

/-- From one reading to the next the clock advances, by no more than `most` ticks. -/
def Pace (most earlier later : Nat) : Prop := earlier < later ∧ later ≤ earlier + most

/-- A first reading, and then tests of the clock at a pace; the first test may fall into
the tick of the first reading. -/
def Paced (most : Nat) : List Nat → Prop
  | start :: first :: later =>
      start ≤ first ∧ first ≤ start + most ∧ (first :: later).IsChain (Pace most)
  | _ => True

theorem Paced.left_of_append {most start : Nat} {tests more : List Nat}
    (paced : Paced most (start :: (tests ++ more))) : Paced most (start :: tests) := by
  cases tests with
  | nil => trivial
  | cons first later =>
      obtain ⟨after, soon, chain⟩ := paced
      exact ⟨after, soon, chain.left_of_append⟩

/-- Readings that strictly increase within a span are no more than the span is long. -/
theorem length_le_of_increasing {start limit : Nat} {tests : List Nat}
    (increasing : tests.Pairwise (· < ·))
    (within : ∀ test ∈ tests, start ≤ test ∧ test - start < limit) : tests.length ≤ limit := by
  have distinct : tests.Nodup := increasing.imp Nat.ne_of_lt
  have covered : tests.toFinset ⊆ Finset.Ico start (start + limit) := by
    intro test member
    have bounds := within test (List.mem_toFinset.mp member)
    rw [Finset.mem_Ico]
    omega
  have count := Finset.card_le_card covered
  rw [List.toFinset_card_of_nodup distinct, Nat.card_Ico] at count
  omega

/-- Tests at a pace come after the first reading and strictly increase. -/
theorem Paced.increasing {most start : Nat} {tests : List Nat}
    (paced : Paced most (start :: tests)) :
    tests.Pairwise (· < ·) ∧ ∀ test ∈ tests, start ≤ test := by
  cases tests with
  | nil => simp
  | cons first later =>
      obtain ⟨after, -, chain⟩ := paced
      have increasing : (first :: later).Pairwise (· < ·) :=
        (chain.imp fun _ _ pace => pace.1).pairwise
      refine ⟨increasing, ?_⟩
      intro test member
      rcases List.mem_cons.mp member with rfl | isLater
      · exact after
      · exact after.trans (Nat.le_of_lt ((List.pairwise_cons.mp increasing).1 test isLater))

/-- A test at a pace comes soon after the ones before it. -/
theorem Paced.last_le {most start last bound : Nat} {tests : List Nat}
    (paced : Paced most (start :: (tests ++ [last])))
    (before : ∀ test ∈ tests, test - start < bound) (positive : 0 < bound) :
    start ≤ last ∧ last - start < bound + most := by
  have ordered := paced.increasing.2
  refine ⟨ordered last (by simp), ?_⟩
  rcases tests.eq_nil_or_concat with rfl | ⟨front, previous, rfl⟩
  · have soon : last ≤ start + most := paced.2.1
    omega
  · rw [List.concat_eq_append] at paced before ordered
    have pace : Pace most previous last := by
      cases front with
      | nil => exact (List.isChain_cons_cons.mp paced.2.2).1
      | cons first later =>
          have chain : ((first :: later) ++ [previous, last]).IsChain (Pace most) := by
            simpa using paced.2.2
          exact (List.isChain_cons_cons.mp chain.right_of_append).1
    have early := before previous (by simp)
    have late := ordered previous (by simp)
    have soon := pace.2
    omega

/-! ## Polling loops -/

section Polling

variable {limit : UInt64} {most start : Nat}

/-- A test that found less than `limit` elapsed did so in true time, as long as the clock
cannot step from below the limit over the rest of the turn. -/
theorem Paced.tests_lt {tests : List Nat} (paced : Paced most (start :: tests))
    (fits : limit.toNat + most ≤ 2 ^ 64) (positive : 0 < limit.toNat)
    (early : ∀ test ∈ tests, UInt64.ofNat test - UInt64.ofNat start < limit) :
    ∀ test ∈ tests, test - start < limit.toNat := by
  induction tests using List.reverseRecOn with
  | nil => simp
  | append_singleton tests last inductionHypothesis =>
      have before := inductionHypothesis paced.left_of_append
        (fun test member => early test (by simp [member]))
      obtain ⟨ordered, near⟩ := paced.last_le before positive
      have isEarly := early last (by simp)
      rw [elapsed_lt_iff ordered (by omega)] at isEarly
      intro test member
      rcases List.mem_append.mp member with inTests | isLast
      · exact before test inTests
      · rw [List.mem_singleton.mp isLast]
        exact isEarly

/-- Such tests are no more than the limit. -/
theorem Paced.length_le {tests : List Nat} (paced : Paced most (start :: tests))
    (fits : limit.toNat + most ≤ 2 ^ 64) (positive : 0 < limit.toNat)
    (early : ∀ test ∈ tests, UInt64.ofNat test - UInt64.ofNat start < limit) :
    tests.length ≤ limit.toNat := by
  have within := paced.tests_lt fits positive early
  obtain ⟨increasing, after⟩ := paced.increasing
  exact length_le_of_increasing increasing fun test member =>
    ⟨after test member, within test member⟩

/-- The test that ends the loop comes less than one step of the clock after the limit. -/
theorem Paced.expired {tests : List Nat} {last : Nat}
    (paced : Paced most (start :: (tests ++ [last])))
    (fits : limit.toNat + most ≤ 2 ^ 64) (positive : 0 < limit.toNat)
    (early : ∀ test ∈ tests, UInt64.ofNat test - UInt64.ofNat start < limit)
    (late : ¬ UInt64.ofNat last - UInt64.ofNat start < limit) :
    limit.toNat ≤ last - start ∧ last - start < limit.toNat + most := by
  have before := paced.left_of_append.tests_lt fits positive early
  obtain ⟨ordered, near⟩ := paced.last_le before positive
  rw [elapsed_lt_iff ordered (by omega)] at late
  exact ⟨Nat.not_lt.mp late, near⟩

variable (limit most start) in
/-- A polling loop that is about to test the clock at the tick given last, after tests that
all found less than `limit` elapsed. -/
inductive Polled : List Nat → Nat → Prop
  | begin : Polled [] start
  | next {tests : List Nat} {now later : Nat} (polled : Polled tests now)
      (early : UInt64.ofNat now - UInt64.ofNat start < limit) (pace : Pace most now later) :
      Polled (tests ++ [now]) later

theorem Polled.paced {tests : List Nat} {now : Nat} (polled : Polled limit most start tests now) :
    Paced most (start :: (tests ++ [now])) := by
  induction polled with
  | begin => exact ⟨le_rfl, Nat.le_add_right _ _, .singleton _⟩
  | @next tests now later _ _ pace inductionHypothesis =>
      cases tests with
      | nil =>
          obtain ⟨after, soon, -⟩ := inductionHypothesis
          exact ⟨after, soon, .cons_cons pace (.singleton _)⟩
      | cons first rest =>
          obtain ⟨after, soon, chain⟩ := inductionHypothesis
          have last : (first :: (rest ++ [now])).getLast? = some now := by
            rw [← List.cons_append, List.getLast?_concat]
          have chained : (first :: (rest ++ [now]) ++ [later]).IsChain (Pace most) :=
            List.IsChain.append chain (.singleton later) (by simpa [last] using pace)
          exact ⟨after, soon, chained⟩

theorem Polled.start_le {tests : List Nat} {now : Nat}
    (polled : Polled limit most start tests now) : start ≤ now := by
  induction polled with
  | begin => exact le_rfl
  | next _ _ pace inductionHypothesis => exact inductionHypothesis.trans (Nat.le_of_lt pace.1)

/-- A clock that advances one tick at a time can be polled until the limit. -/
theorem Polled.tick_by_tick (moves : 0 < most) (count : Nat) (within : count ≤ limit.toNat) :
    ∃ tests, Polled limit most start tests (start + count) := by
  induction count with
  | zero => exact ⟨[], .begin⟩
  | succ count inductionHypothesis =>
      obtain ⟨tests, polled⟩ := inductionHypothesis (by omega)
      have small := limit.toNat_lt
      have early : UInt64.ofNat (start + count) - UInt64.ofNat start < limit :=
        (elapsed_lt_iff polled.start_le (by omega) limit).mpr (by omega)
      exact ⟨_, polled.next early ⟨by omega, by omega⟩⟩

/-- A clock that can step over the rest of the turn can be polled for ever: it never shows
the limit. -/
theorem Polled.endless (positive : 0 < limit.toNat) (moves : 0 < most)
    (skips : 2 ^ 64 < limit.toNat + most) (count : Nat) :
    ∃ tests now, tests.length = count ∧ Polled limit most start tests now ∧
      UInt64.ofNat now - UInt64.ofNat start < limit := by
  have shows {now : Nat} (ordered : start ≤ now) :
      UInt64.ofNat now - UInt64.ofNat start < limit ↔ (now - start) % 2 ^ 64 < limit.toNat := by
    rw [UInt64.lt_iff_toNat_lt, elapsed_toNat ordered]
  have small := limit.toNat_lt
  induction count with
  | zero => exact ⟨[], start, rfl, .begin, (shows le_rfl).mpr (by simpa using positive)⟩
  | succ count inductionHypothesis =>
      obtain ⟨tests, now, length, polled, early⟩ := inductionHypothesis
      have ordered := polled.start_le
      have shown := (shows ordered).mp early
      -- At the last tick below the limit the clock steps to the end of the turn.
      by_cases atEdge : (now - start) % 2 ^ 64 + 1 = limit.toNat
      · have pace : Pace most now (now + (2 ^ 64 - (limit.toNat - 1))) := ⟨by omega, by omega⟩
        refine ⟨_, _, ?_, polled.next early pace, (shows (by omega)).mpr (by omega)⟩
        simp [length]
      · have pace : Pace most now (now + 1) := ⟨by omega, by omega⟩
        refine ⟨_, _, ?_, polled.next early pace, (shows (by omega)).mpr (by omega)⟩
        simp [length]

end Polling

/-! ## Disjoint spans -/

section Spans

variable {Job : Type*} (jobs : Finset Job) (start stop : Job → Nat)

/-- Jobs that run one at a time between two moments take no longer than what lies between
the moments. -/
theorem sum_spans_le {first last : Nat}
    (apart : ∀ job ∈ jobs, ∀ other ∈ jobs, job ≠ other →
      stop job ≤ start other ∨ stop other ≤ start job)
    (within : ∀ job ∈ jobs, first ≤ start job ∧ stop job ≤ last) :
    ∑ job ∈ jobs, (stop job - start job) ≤ last - first := by
  classical
  have disjoint (job : Job) (member : job ∈ jobs) (other : Job) (otherMember : other ∈ jobs)
      (different : job ≠ other) :
      Disjoint (Finset.Ico (start job) (stop job)) (Finset.Ico (start other) (stop other)) := by
    rw [Finset.disjoint_left]
    intro moment inJob inOther
    rw [Finset.mem_Ico] at inJob inOther
    rcases apart job member other otherMember different with before | after <;> omega
  have covered : (jobs.biUnion fun job => Finset.Ico (start job) (stop job)) ⊆
      Finset.Ico first last := by
    rw [Finset.biUnion_subset]
    intro job member
    exact Finset.Ico_subset_Ico (within job member).1 (within job member).2
  calc ∑ job ∈ jobs, (stop job - start job)
      = (jobs.biUnion fun job => Finset.Ico (start job) (stop job)).card := by
        rw [Finset.card_biUnion disjoint]
        exact Finset.sum_congr rfl fun job _ => (Nat.card_Ico _ _).symm
    _ ≤ (Finset.Ico first last).card := Finset.card_le_card covered
    _ = last - first := Nat.card_Ico first last

/-- Rounding each of several times down loses time, it never adds any. -/
theorem sum_scaled_le (times : Job → Nat) (scale rate : Nat) :
    ∑ job ∈ jobs, times job * scale / rate ≤ (∑ job ∈ jobs, times job) * scale / rate := by
  rcases Nat.eq_zero_or_pos rate with zero | positive
  · simp [zero]
  · rw [Nat.le_div_iff_mul_le positive, Finset.sum_mul, Finset.sum_mul]
    exact Finset.sum_le_sum fun job _ => Nat.div_mul_le_self _ _

end Spans

end Clock

end CortexForge.Foundation
