import Xposed.Safemode.Batches

/-!
# The countdown of the detection windows

`getRemainingTime` in the arithmetic of the machine, where `time_t` and `long`
have 32 or 64 bits, the times it is right for, and what the loops that it ends
get of the events.
-/

namespace Xposed.Safemode

/-- A `long`. `none`: it overflows. -/
def long (lp64 : Bool) (x : Int) : Option Int :=
  let bound : Int := if lp64 then 2 ^ 63 else 2 ^ 31
  if -bound ≤ x ∧ x < bound then some x else none

/-- `getRemainingTime` with all of its intermediate results. -/
def getRemainingTimeIn (lp64 : Bool) (expiration now : Timespec) : Option Int :=
  if now.tv_sec > expiration.tv_sec then some 0
  else do
    let sec ← long lp64 (expiration.tv_sec - now.tv_sec)
    let ms ← long lp64 (sec * 1000)
    let nsec ← long lp64 (expiration.tv_nsec - now.tv_nsec)
    let ms ← long lp64 (ms + nsec.tdiv 1000000)
    pure (int32 ms)

/-! ## Times on one scale -/

def Timespec.nanoseconds (t : Timespec) : Int := t.tv_sec * 1000000000 + t.tv_nsec

/-- How far `expiration` is ahead, in ns. -/
def Timespec.until_ (now expiration : Timespec) : Int := expiration.nanoseconds - now.nanoseconds

/-- No window is longer than `DETECTION_TIMEOUT`. -/
def Near (expiration now : Timespec) : Prop :=
  now.until_ expiration ≤ DETECTION_TIMEOUT * 1000000000

/-- A countdown in ms: over from the expiration on, before that never off by 1 ms
and never negative, and it never goes up. -/
structure Countdown (remaining : Timespec → Option Int) (expiration : Timespec) : Prop where
  expired : ∀ now, now.until_ expiration ≤ 0 → ∃ ms, remaining now = some ms ∧ ms ≤ 0
  accurate : ∀ now, Near expiration now → 0 < now.until_ expiration →
    ∃ ms, remaining now = some ms ∧ 0 ≤ ms ∧
      -1000000 < ms * 1000000 - now.until_ expiration ∧
      ms * 1000000 - now.until_ expiration < 1000000
  decreasing : ∀ now later, Near expiration now → later.until_ expiration ≤ now.until_ expiration →
    0 < later.until_ expiration →
    ∃ ms ms', remaining now = some ms ∧ remaining later = some ms' ∧ ms' ≤ ms

/-- The division cuts off towards zero. -/
theorem tdiv_spec (nsec : Int) :
    (0 ≤ nsec ∧ nsec.tdiv 1000000 * 1000000 ≤ nsec ∧ nsec < nsec.tdiv 1000000 * 1000000 + 1000000) ∨
      (nsec < 0 ∧ nsec ≤ nsec.tdiv 1000000 * 1000000 ∧
        nsec.tdiv 1000000 * 1000000 < nsec + 1000000) := by
  by_cases sign : 0 ≤ nsec
  · rw [Int.tdiv_eq_ediv_of_nonneg sign]
    omega
  · have negated : nsec.tdiv 1000000 = -((-nsec).tdiv 1000000) := by rw [Int.neg_tdiv, Int.neg_neg]
    rw [negated, Int.tdiv_eq_ediv_of_nonneg (by omega)]
    omega

/-- The nanoseconds of two readings are less than a second apart. -/
theorem nsec_range (a b : Timespec) :
    -1000000000 < a.tv_nsec - b.tv_nsec ∧ a.tv_nsec - b.tv_nsec < 1000000000 := by
  have := a.nonneg
  have := a.below
  have := b.nonneg
  have := b.below
  omega

/-- Seconds and nanoseconds as the code subtracts them. -/
theorem until_eq (now expiration : Timespec) :
    now.until_ expiration = (expiration.tv_sec - now.tv_sec) * 1000000000 +
      (expiration.tv_nsec - now.tv_nsec) := by
  rw [Timespec.until_, Timespec.nanoseconds, Timespec.nanoseconds]
  omega

section
variable {expiration now : Timespec}

/-- In whole seconds the expiration is no further away than the window. -/
theorem near_seconds (near : Near expiration now) : expiration.tv_sec - now.tv_sec ≤ 5 := by
  have range := nsec_range expiration now
  rw [Near, until_eq, DETECTION_TIMEOUT] at near
  omega

theorem long_small (lp64 : Bool) {x : Int} (low : -2 ^ 31 ≤ x) (high : x < 2 ^ 31) :
    long lp64 x = some x := by
  unfold long
  cases lp64 with
  | false => exact if_pos ⟨low, high⟩
  | true => exact if_pos ⟨by omega, by omega⟩

/-- Near the expiration nothing overflows. -/
theorem getRemainingTimeIn_eq (lp64 : Bool) (near : Near expiration now) :
    getRemainingTimeIn lp64 expiration now = some (getRemainingTime expiration now) := by
  unfold getRemainingTimeIn getRemainingTime
  by_cases expired : now.tv_sec > expiration.tv_sec
  · rw [if_pos expired, if_pos expired]
  · have seconds := near_seconds near
    have range := nsec_range expiration now
    have parts := tdiv_spec (expiration.tv_nsec - now.tv_nsec)
    have sec := long_small lp64 (x := expiration.tv_sec - now.tv_sec) (by omega) (by omega)
    have ms := long_small lp64 (x := (expiration.tv_sec - now.tv_sec) * 1000) (by omega) (by omega)
    have nsec := long_small lp64 (x := expiration.tv_nsec - now.tv_nsec) (by omega) (by omega)
    have sum := long_small lp64 (x := (expiration.tv_sec - now.tv_sec) * 1000 +
      (expiration.tv_nsec - now.tv_nsec).tdiv 1000000) (by omega) (by omega)
    rw [if_neg expired, if_neg expired]
    simp only [sec, ms, nsec, sum, Option.bind_eq_bind, Option.bind_some]
    exact congrArg some (int32_eq (by omega) (by omega))

theorem remaining_expired (expired : now.until_ expiration ≤ 0) :
    getRemainingTime expiration now ≤ 0 := by
  rw [until_eq] at expired
  unfold getRemainingTime
  split
  · exact Int.le_refl 0
  · have range := nsec_range expiration now
    have parts := tdiv_spec (expiration.tv_nsec - now.tv_nsec)
    omega

/-- In front of the expiration the seconds are always subtracted. -/
theorem remaining_before (before : 0 < now.until_ expiration) : getRemainingTime expiration now =
    (expiration.tv_sec - now.tv_sec) * 1000 +
      (expiration.tv_nsec - now.tv_nsec).tdiv 1000000 := by
  have range := nsec_range expiration now
  rw [until_eq] at before
  exact if_neg (by omega)

theorem remaining_accurate (before : 0 < now.until_ expiration) :
    0 ≤ getRemainingTime expiration now ∧
      -1000000 < getRemainingTime expiration now * 1000000 - now.until_ expiration ∧
      getRemainingTime expiration now * 1000000 - now.until_ expiration < 1000000 := by
  have range := nsec_range expiration now
  have parts := tdiv_spec (expiration.tv_nsec - now.tv_nsec)
  rw [remaining_before before]
  rw [until_eq] at before ⊢
  omega

/-- Rounding goes up in front of a second boundary and down behind it, by less
than the second that is subtracted there. -/
theorem remaining_decreasing {later : Timespec}
    (order : later.until_ expiration ≤ now.until_ expiration)
    (before : 0 < later.until_ expiration) :
    getRemainingTime expiration later ≤ getRemainingTime expiration now := by
  have apart := nsec_range later now
  have parts := tdiv_spec (expiration.tv_nsec - now.tv_nsec)
  have parts' := tdiv_spec (expiration.tv_nsec - later.tv_nsec)
  rw [remaining_before before, remaining_before (Int.lt_of_lt_of_le before order)]
  rw [until_eq, until_eq] at order
  omega

end

/-- **`getRemainingTime` is a sound countdown** for the windows of the detection. -/
theorem remaining_countdown (lp64 : Bool) (expiration : Timespec) :
    Countdown (getRemainingTimeIn lp64 expiration) expiration := by
  refine ⟨fun now expired => ?_, fun now near before => ?_, fun now later near order before => ?_⟩
  · have near : Near expiration now := by
      unfold Near
      exact Int.le_trans expired (by decide)
    exact ⟨_, getRemainingTimeIn_eq lp64 near, remaining_expired expired⟩
  · exact ⟨_, getRemainingTimeIn_eq lp64 near, remaining_accurate before⟩
  · have near' : Near expiration later := Int.le_trans order near
    exact ⟨_, _, getRemainingTimeIn_eq lp64 near, getRemainingTimeIn_eq lp64 near',
      remaining_decreasing order before⟩

/-! ## The loops that it ends -/

section
variable {expiration : Timespec}

/-- No turn of a loop begins behind the expiration. -/
theorem begins_before {w : Wait} (begins : w.begins expiration = true) :
    0 < w.now.until_ expiration := by
  by_contra expired
  have none := remaining_expired (Int.not_lt.mp expired)
  exact absurd (of_decide_eq_true begins) (Int.not_lt.mpr none)

/-- With a millisecond left a turn begins. -/
theorem begins_of_millisecond {w : Wait} (left : 1000000 ≤ w.now.until_ expiration) :
    w.begins expiration = true := by
  have before : 0 < w.now.until_ expiration := by omega
  have accurate := remaining_accurate before
  exact decide_eq_true (by omega)

/-- If a turn begins then it would have begun before. -/
theorem begins_earlier {v w : Wait} (clock : v.now.nanoseconds ≤ w.now.nanoseconds)
    (begins : w.begins expiration = true) : v.begins expiration = true := by
  have order : w.now.until_ expiration ≤ v.now.until_ expiration := by
    unfold Timespec.until_
    omega
  have positive := of_decide_eq_true begins
  have decreasing := remaining_decreasing order (begins_before begins)
  exact decide_eq_true (Int.lt_of_lt_of_le positive decreasing)

/-- As long as the clock does not go back, a loop gets all that is delivered while
time remains, and not only what is delivered until it runs out for the first time. -/
theorem arrivals_eq {waits : List Wait}
    (clock : waits.Pairwise fun v w => v.now.nanoseconds ≤ w.now.nanoseconds) :
    arrivals expiration waits = (waits.filter (Wait.begins expiration)).flatMap Wait.ready := by
  unfold arrivals
  induction waits with
  | nil => rfl
  | cons w rest ih =>
    obtain ⟨first, later⟩ := List.pairwise_cons.mp clock
    by_cases begun : w.begins expiration = true
    · rw [List.takeWhile_cons_of_pos begun, List.filter_cons_of_pos begun, List.flatMap_cons,
        List.flatMap_cons, ih later]
    · have none : ∀ v ∈ rest, ¬ v.begins expiration = true := fun v member begins =>
        begun (begins_earlier (first v member) begins)
      rw [List.takeWhile_cons_of_neg begun, List.filter_cons_of_neg begun,
        List.filter_eq_nil_iff.mpr none]

end

end Xposed.Safemode
