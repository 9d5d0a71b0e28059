import Xposed.Membased.Exclusion

/-!
# No lost wake-up, no deadlock

Three kinds of waits share one condition variable. Every stretch of code that
makes one of their conditions true broadcasts, so nobody sleeps on.
-/

namespace Xposed.Membased

open Monitor (Anything Awake Announces Enabled Owned Place)

section
variable {C U : Type}

/-- The conditions depend on the state field only. -/
theorem awaits_state {s r : Shared C U} (same : r.block.state = s.block.state) (t : Party C)
    (i : In t) (h : awaits t i r) : awaits t i s := by
  cases t with
  | looper =>
    cases i with
    | starting => trivial
    | loop => exact same.symm.trans h
  | client c =>
    cases i with
    | waitForIdle | callService => exact same.symm.trans h
    | waitForRunning => exact fun now => h (same.trans now)

/-- Client `c` has a call, or a `waitForRunning`, that has not returned. -/
def Unfinished (w : World C U) (c : C) : Prop :=
  (∃ i, w.stages.stage (.client c) = .inr i) ∨
    ∃ call u, w.place (.client c) = .outside (.unlocked call u)

/-- Whoever owns the mutex is the looper or in an unfinished call. -/
theorem owner_unfinished {w : World C U} (owned : Owned w) {t : Party C} (h : w.owner = some t) :
    t = .looper ∨ ∃ c, t = .client c ∧ Unfinished w c := by
  have here := (owned t).mp h
  cases t with
  | looper => exact .inl rfl
  | client c =>
    refine .inr ⟨c, rfl, .inl ?_⟩
    cases hp : w.place (.client c) <;> simp only [hp, Place.IsInside] at here
    exact ⟨_, by simp [hp, Place.stage]; rfl⟩

/-- The looper sleeps in its loop only, and not over a request. -/
theorem looper_asleep {w : World C U} (awake : Awake awaits w) {i : LooperIn}
    (h : w.place .looper = .asleep i) : i = .loop ∧ w.shared.block.state ≠ .serviceAction := by
  have untrue := awake .looper i h
  cases i with
  | starting => exact absurd trivial untrue
  | loop => exact ⟨rfl, untrue⟩

variable [Abi U]

theorem looper_tests {i j : LooperIn} {e : Env} {s : Shared C U}
    (h : (looperInside i e s).exit = .wait j) :
    j = .loop ∧ (looperInside i e s).shared.block.state ≠ .serviceAction := by
  have turn := looper_turn i e s
  generalize looperInside i e s = does at turn h ⊢
  cases turn with
  | start =>
    cases h
    exact ⟨rfl, by simp⟩
  | wait quiet =>
    cases h
    exact ⟨rfl, quiet⟩
  | serve asked =>
    cases h
    exact ⟨rfl, by simp⟩

theorem client_tests {c : C} {i j : ClientIn} {s : Shared C U}
    (h : (clientInside c i s).exit = .wait j) :
    ¬ awaits (.client c) j (clientInside c i s).shared := by
  have turn := client_turn c i s
  generalize clientInside c i s = does at turn h ⊢
  cases turn with
  | wait _ untrue =>
    cases h
    exact untrue
  | «open» call idle =>
    cases h
    simp [awaits, request_state]
  | again call f g b ready does =>
    cases h
    simp [awaits, (resume_state f _).1 g b does]
  | unlock | running => cases h

/-- Without a broadcast a stretch has not touched the shared memory. -/
theorem looper_silent {i : LooperIn} {e : Env} {s : Shared C U}
    (h : (looperInside i e s).broadcast = false) : (looperInside i e s).shared = s := by
  have turn := looper_turn i e s
  generalize looperInside i e s = does at turn h ⊢
  cases turn with
  | wait => rfl
  | start | serve => cases h

theorem client_silent {c : C} {i : ClientIn} {s : Shared C U}
    (h : (clientInside c i s).broadcast = false) : (clientInside c i s).shared = s := by
  have turn := client_turn c i s
  generalize clientInside c i s = does at turn h ⊢
  cases turn with
  | wait | running => rfl
  | «open» | again | unlock => cases h

theorem announces : Announces (code C U) awaits where
  tests t i e s j h := by
    cases t with
    | looper =>
      obtain ⟨rfl, quiet⟩ := looper_tests h
      exact quiet
    | client c => exact client_tests h
  tells t i e s h u j now := by
    have same : ((code C U).inside t i e s).shared = s := by
      cases t with
      | looper => exact looper_silent h
      | client c => exact client_silent h
    exact awaits_state (by rw [same]) u j now

variable [DecidableEq C]

theorem reachable_awake {data : U} {w : World C U} (h : Reachable data Anything w) :
    Awake awaits w := by
  apply Monitor.no_lost_wakeup announces h
  intro t i asleep
  cases t <;> cases asleep

theorem reachable_owned {data : U} {w : World C U} (h : Reachable data Anything w) : Owned w := by
  apply Monitor.owner_iff_inside h
  intro t
  cases t <;> simp [first, Place.IsInside]

/-- A thread in the monitor that is not asleep lets somebody go on. -/
theorem awake_progress {w : World C U} (owned : Owned w) {t : Party C} {i : In t}
    (stage : w.stages.stage t = .inr i) (up : w.place t ≠ .asleep i) :
    Enabled (code C U) w t ∨ ∃ u, w.owner = some u ∧ Enabled (code C U) w u := by
  cases hp : w.place t with
  | outside o => simp [hp, Place.stage] at stage
  | entering j => exact Monitor.entering_progress owned hp
  | inside j => exact .inl (Monitor.section_enabled hp)
  | asleep j =>
    obtain rfl : j = i := by simpa [hp, Place.stage] using stage
    exact absurd hp up

/-- Somebody who matters can go on by himself. -/
def Progress (w : World C U) : Prop :=
  ∃ t, (t = .looper ∨ ∃ c, t = .client c ∧ Unfinished w c) ∧ Enabled (code C U) w t

theorem progress_of_awake {w : World C U} (owned : Owned w) {t : Party C} {i : In t}
    (who : t = .looper ∨ ∃ c, t = .client c ∧ Unfinished w c)
    (stage : w.stages.stage t = .inr i) (up : w.place t ≠ .asleep i) : Progress w := by
  rcases awake_progress owned stage up with go | ⟨u, mine, go⟩
  · exact ⟨t, who, go⟩
  · exact ⟨u, owner_unfinished owned mine, go⟩

theorem unlocked_progress {w : World C U} {c : C} {call : Call} {u : Unlocked}
    (h : w.place (.client c) = .outside (.unlocked call u)) : Progress w := by
  have goes : ∃ m, clientOutside (.unlocked call u) default w.shared = some m := by
    cases does : u.step w.shared.block <;> simp [clientOutside, does]
  obtain ⟨m, hm⟩ := goes
  exact ⟨.client c, .inr ⟨c, rfl, .inr ⟨call, u, h⟩⟩, .move (.client c) default, _, rfl, trivial,
    .move w (.client c) default _ m h hm⟩

/-- **No deadlock.** With the looper running and a call unfinished, the looper
or a client with an unfinished call can go on without a spurious wake-up. -/
theorem no_deadlock {w : World C U} (stands : Stands w.stages) (awake : Awake awaits w)
    (owned : Owned w) (running : w.place .looper ≠ .outside .notStarted) {c : C}
    (unfinished : Unfinished w c) : Progress w := by
  rcases unfinished with ⟨i, stage⟩ | ⟨call, u, out⟩
  · by_cases asleep : w.place (.client c) = .asleep i
    · -- the sleeper's own condition is false, so somebody else has to move
      have untrue := awake (.client c) i asleep
      cases stands with
      | notRunning state off =>
        cases hp : w.place .looper with
        | outside o => cases o; exact absurd hp running
        | entering j | inside j | asleep j =>
          cases j with
          | loop => simp [Started, hp, Place.stage] at off
          | starting =>
            have stage : w.stages.stage .looper = .inr .starting := by simp [hp, Place.stage]
            refine progress_of_awake owned (.inl rfl) stage fun sleeping => ?_
            cases (looper_asleep awake sleeping).1
      | idle state up quiet =>
        exfalso
        cases i with
        | waitForIdle call => exact untrue state
        | callService call f => exact quiet c call f stage
        | waitForRunning x => exact untrue fun off => State.noConfusion (state.symm.trans off)
      | asked d call f state up =>
        refine progress_of_awake owned (.inl rfl) up ?_
        exact fun sleeping => (looper_asleep awake sleeping).2 state
      | answered d call f state up sole =>
        refine progress_of_awake owned (.inr ⟨d, rfl, .inl ⟨_, sole.here⟩⟩) sole.here ?_
        exact fun sleeping => awake (.client d) _ sleeping state
    · exact progress_of_awake owned (.inr ⟨c, rfl, .inl ⟨i, stage⟩⟩) stage asleep
  · exact unlocked_progress out

/-- **No wake-up is lost**, in any reachable state and for any number of
clients, and nobody waits forever for a signal that nobody can give. -/
theorem wakeups_kept {data : U} {w : World C U} (h : Reachable data Anything w) :
    (∀ c call, w.place (.client c) = .asleep (.waitForIdle call) →
      w.shared.block.state ≠ .idle) ∧
    (∀ c call f, w.place (.client c) = .asleep (.callService call f) →
      w.shared.block.state ≠ .serverResponse) ∧
    (∀ c x, w.place (.client c) = .asleep (.waitForRunning x) →
      w.shared.block.state = .notRunning) ∧
    (∀ i, w.place .looper = .asleep i → w.shared.block.state ≠ .serviceAction) ∧
    (w.place .looper ≠ .outside .notStarted → ∀ c, Unfinished w c → Progress w) := by
  have awake := reachable_awake h
  refine ⟨fun c call => awake (.client c) _, fun c call f => awake (.client c) _, ?_, ?_, ?_⟩
  · intro c x asleep
    by_contra running
    exact awake (.client c) _ asleep running
  · exact fun i asleep => (looper_asleep awake asleep).2
  · exact fun running c => no_deadlock (reachable_stands h) awake (reachable_owned h) running

end

theorem zygote_progress : ∃ w, Monitor.execAll (code Client Member) Anything
      (first Client Member.zero) zygoteAsks = some w ∧
    w.place (.client .zygote) = .asleep (.callService blocker (.accessFile [47, 97] 0)) ∧
    Progress w := by
  obtain ⟨w, run, asleep, running⟩ : ∃ w, Monitor.execAll (code Client Member) Anything
      (first Client Member.zero) zygoteAsks = some w ∧
      w.place (.client .zygote) = .asleep (.callService blocker (.accessFile [47, 97] 0)) ∧
      w.place .looper = .entering .loop := ⟨_, rfl, rfl, rfl⟩
  have started : w.place .looper ≠ .outside .notStarted := by simp [running]
  have unfinished : Unfinished w .zygote := .inl ⟨_, by simp [asleep, Place.stage]; rfl⟩
  obtain ⟨_, _, _, _, progress⟩ := wakeups_kept (Monitor.execAll_reachable .start run)
  exact ⟨w, run, asleep, progress started .zygote unfinished⟩

end Xposed.Membased
