import Mathlib.Logic.Function.Basic
import Xposed.Lib.Run

/-!
# Monitors: threads that share one mutex and one condition variable

A thread is outside the monitor, asks for its mutex, owns it, or sleeps on its
condition variable. The code run between two of these places is one step, so a
critical section is atomic up to its next wait or unlock:

* `Step`: one step of one thread, with everything it can do;
* `exec`: the same steps as a function, for runs on concrete inputs;
* `Reachable`: the worlds of the runs whose steps all meet a condition;
* `owner_iff_inside`: the mutex excludes;
* `no_lost_wakeup`: code that tests its wait condition before it sleeps, and
  broadcasts whenever it makes some wait condition true, loses no wake-up;
* `Enabled`, `entering_progress`: what a world without progress looks like;
* `Atomic`, `step_atomic`: with the mutex and the sleepers forgotten, a run is a
  run of atomic sections.
-/

namespace Monitor

/-- Where a thread stands. `O` is what it carries while it neither holds nor
asks for the mutex, `I` what it carries otherwise. -/
inductive Place (O I : Type) where
  | outside (o : O)
  /-- Blocked in the lock call, or woken from a wait and taking the mutex back. -/
  | entering (i : I)
  | inside (i : I)
  /-- In a wait on the condition variable, with no signal received. -/
  | asleep (i : I)

/-- How a stretch of code that owns the mutex ends. -/
inductive Exit (O I : Type) where
  | wait (i : I)
  | unlock (o : O)

/-- How a statement outside the monitor ends. -/
inductive Move (O I : Type) where
  | stay (o : O)
  | lock (i : I)

/-- What one stretch of code that owns the mutex did. -/
structure Section (σ O I : Type) where
  shared : σ
  broadcast : Bool
  exit : Exit O I

def Exit.place {O I : Type} : Exit O I → Place O I
  | .wait i => .asleep i
  | .unlock o => .outside o

def Move.place {O I : Type} : Move O I → Place O I
  | .stay o => .outside o
  | .lock i => .entering i

/-- A broadcast reaches exactly the sleepers. -/
def Place.signal {O I : Type} : Place O I → Place O I
  | .asleep i => .entering i
  | p => p

/-- The code of the threads `T` over the shared memory `σ`. `A` is what the
environment decides in one step. A statement outside the monitor reads the
shared memory and does not write it. -/
structure Code (T : Type) (σ A : Type) (O I : T → Type) where
  outside : ∀ t, O t → A → σ → Option (Move (O t) (I t))
  inside : ∀ t, I t → A → σ → Section σ (O t) (I t)
  /-- What a thread in a timed wait carries once its time has run out. -/
  timeout : ∀ t, I t → Option (I t)

structure World (T σ : Type) (O I : T → Type) where
  shared : σ
  owner : Option T
  place : ∀ t, Place (O t) (I t)

inductive Label (T A : Type) where
  | move (t : T) (a : A)
  | acquire (t : T)
  | run (t : T) (a : A)
  /-- A spurious wake-up. -/
  | wake (t : T)
  | timeout (t : T)
  deriving DecidableEq

def Label.thread {T A : Type} : Label T A → T
  | .move t _ | .acquire t | .run t _ | .wake t | .timeout t => t

/-- The thread went on by itself: not by a spurious wake-up or a timeout. -/
def Label.Own {T A : Type} : Label T A → Prop
  | .move _ _ | .acquire _ | .run _ _ => True
  | .wake _ | .timeout _ => False

/-- What a thread carries, wherever it stands. -/
def Place.stage {O I : Type} : Place O I → O ⊕ I
  | .outside o => .inl o
  | .entering i | .inside i | .asleep i => .inr i

@[simp] theorem Place.signal_stage {O I : Type} (p : Place O I) : p.signal.stage = p.stage := by
  cases p <;> rfl

/-- A world without its mutex and its sleepers. -/
structure Stages (T σ : Type) (O I : T → Type) where
  shared : σ
  stage : ∀ t, O t ⊕ I t

def World.stages {T σ : Type} {O I : T → Type} (w : World T σ O I) : Stages T σ O I :=
  ⟨w.shared, fun t => (w.place t).stage⟩

@[simp] theorem World.stages_shared {T σ : Type} {O I : T → Type} (w : World T σ O I) :
    w.stages.shared = w.shared := rfl

@[simp] theorem World.stages_stage {T σ : Type} {O I : T → Type} (w : World T σ O I) (t : T) :
    w.stages.stage t = (w.place t).stage := rfl

section
variable {T σ A : Type} {O I : T → Type} [DecidableEq T]

/-- Thread `t` changes its own place and nothing else. -/
def World.put (w : World T σ O I) (t : T) (p : Place (O t) (I t)) : World T σ O I :=
  { w with place := Function.update w.place t p }

/-- Thread `t`, the owner, ends a stretch of its critical section. -/
def World.finish (w : World T σ O I) (t : T) (s : Section σ (O t) (I t)) : World T σ O I where
  shared := s.shared
  owner := none
  place := Function.update
    (fun u => if s.broadcast then (w.place u).signal else w.place u) t s.exit.place

@[simp] theorem World.put_shared (w : World T σ O I) (t : T) (p : Place (O t) (I t)) :
    (w.put t p).shared = w.shared := rfl

@[simp] theorem World.put_owner (w : World T σ O I) (t : T) (p : Place (O t) (I t)) :
    (w.put t p).owner = w.owner := rfl

@[simp] theorem World.put_self (w : World T σ O I) (t : T) (p : Place (O t) (I t)) :
    (w.put t p).place t = p := by simp [put]

theorem World.put_other (w : World T σ O I) {t u : T} (p : Place (O t) (I t)) (h : u ≠ t) :
    (w.put t p).place u = w.place u := by simp [put, h]

@[simp] theorem World.finish_owner (w : World T σ O I) (t : T) (s : Section σ (O t) (I t)) :
    (w.finish t s).owner = none := rfl

@[simp] theorem World.finish_self (w : World T σ O I) (t : T) (s : Section σ (O t) (I t)) :
    (w.finish t s).place t = s.exit.place := by simp [finish]

theorem World.finish_other (w : World T σ O I) {t u : T} (s : Section σ (O t) (I t))
    (h : u ≠ t) :
    (w.finish t s).place u = if s.broadcast then (w.place u).signal else w.place u := by
  simp [finish, h]

variable (code : Code T σ A O I)

/-- Everything one step can do. -/
inductive Step : World T σ O I → Label T A → World T σ O I → Prop where
  | move (w) (t : T) (a : A) (o : O t) (m : Move (O t) (I t)) (at_ : w.place t = .outside o)
      (does : code.outside t o a w.shared = some m) : Step w (.move t a) (w.put t m.place)
  | acquire (w) (t : T) (i : I t) (at_ : w.place t = .entering i) (free : w.owner = none) :
      Step w (.acquire t) { w.put t (.inside i) with owner := some t }
  | run (w) (t : T) (a : A) (i : I t) (at_ : w.place t = .inside i) :
      Step w (.run t a) (w.finish t (code.inside t i a w.shared))
  | wake (w) (t : T) (i : I t) (at_ : w.place t = .asleep i) :
      Step w (.wake t) (w.put t (.entering i))
  | timeout (w) (t : T) (i j : I t) (at_ : w.place t = .asleep i)
      (expired : code.timeout t i = some j) : Step w (.timeout t) (w.put t (.entering j))

/-- `Step` as a function. -/
def exec (w : World T σ O I) : Label T A → Option (World T σ O I)
  | .move t a =>
    match w.place t with
    | .outside o => (code.outside t o a w.shared).map fun m => w.put t m.place
    | _ => none
  | .acquire t =>
    match w.place t, w.owner with
    | .entering i, none => some { w.put t (.inside i) with owner := some t }
    | _, _ => none
  | .run t a =>
    match w.place t with
    | .inside i => some (w.finish t (code.inside t i a w.shared))
    | _ => none
  | .wake t =>
    match w.place t with
    | .asleep i => some (w.put t (.entering i))
    | _ => none
  | .timeout t =>
    match w.place t with
    | .asleep i => (code.timeout t i).map fun j => w.put t (.entering j)
    | _ => none

/-- A run, as long as its steps meet `ok`. -/
abbrev execAll (ok : World T σ O I → Label T A → Prop) [∀ w l, Decidable (ok w l)]
    (w : World T σ O I) (ls : List (Label T A)) : Option (World T σ O I) :=
  Run.execAll (exec code) ok w ls

theorem exec_step {w v : World T σ O I} {l : Label T A} (h : exec code w l = some v) :
    Step code w l v := by
  cases l with
  | move t a =>
    simp only [exec] at h
    split at h
    · obtain ⟨m, hm, rfl⟩ := Option.map_eq_some_iff.mp h
      exact .move w t a _ m ‹_› hm
    · cases h
  | acquire t =>
    simp only [exec] at h
    split at h
    · cases h
      exact .acquire w t _ ‹_› ‹_›
    · cases h
  | run t a =>
    simp only [exec] at h
    split at h
    · cases h
      exact .run w t a _ ‹_›
    · cases h
  | wake t =>
    simp only [exec] at h
    split at h
    · cases h
      exact .wake w t _ ‹_›
    · cases h
  | timeout t =>
    simp only [exec] at h
    split at h
    · obtain ⟨j, hj, rfl⟩ := Option.map_eq_some_iff.mp h
      exact .timeout w t _ j ‹_› hj
    · cases h

/-- The worlds of the runs from `first` whose steps all meet `ok`. -/
abbrev Reachable (first : World T σ O I) (ok : World T σ O I → Label T A → Prop)
    (w : World T σ O I) : Prop :=
  Run.Reachable (Step code) first ok w

/-- No condition on the steps. -/
def Anything (_ : World T σ O I) (_ : Label T A) : Prop := True

instance (w : World T σ O I) (l : Label T A) : Decidable (Anything w l) := isTrue trivial

variable {code}

theorem execAll_reachable {first w v : World T σ O I} {ok : World T σ O I → Label T A → Prop}
    [∀ w l, Decidable (ok w l)] {ls : List (Label T A)} (h : Reachable code first ok w)
    (run : execAll code ok w ls = some v) : Reachable code first ok v :=
  Run.execAll_reachable (exec_step code) h run

/-! ## The mutex -/

def Place.IsInside {O I : Type} : Place O I → Prop
  | .inside _ => True
  | _ => False

@[simp] theorem Place.signal_isInside {O I : Type} (p : Place O I) :
    p.signal.IsInside ↔ p.IsInside := by
  cases p <;> simp [signal, IsInside]

/-- The owner field names exactly the thread that is inside. -/
def Owned (w : World T σ O I) : Prop := ∀ t, w.owner = some t ↔ (w.place t).IsInside

theorem put_owned {w : World T σ O I} {t : T} {p : Place (O t) (I t)} (h : Owned w)
    (before : ¬ (w.place t).IsInside) (after : ¬ p.IsInside) : Owned (w.put t p) := by
  intro u
  by_cases hu : u = t
  · subst hu
    simpa [after] using (h u).not.mpr before
  · simpa [w.put_other p hu] using h u

theorem step_owned {w v : World T σ O I} {l : Label T A} (step : Step code w l v)
    (h : Owned w) : Owned v := by
  cases step with
  | move t a o m at_ _ =>
    refine put_owned h (by simp [at_, Place.IsInside]) ?_
    cases m <;> simp [Move.place, Place.IsInside]
  | acquire t i at_ free =>
    intro u
    by_cases hu : u = t
    · subst hu
      simp [Place.IsInside]
    · have := h u
      simp only [free] at this
      simp [w.put_other _ hu, ← this, Ne.symm hu]
  | run t a i at_ =>
    intro u
    have mine : w.owner = some t := (h t).mpr (by simp [at_, Place.IsInside])
    by_cases hu : u = t
    · subst hu
      cases he : (code.inside u i a w.shared).exit <;> simp [he, Exit.place, Place.IsInside]
    · have other : ¬ (w.place u).IsInside := by
        rw [← h u, mine]
        simpa using Ne.symm hu
      simp only [World.finish_owner, w.finish_other _ hu]
      split <;> simp [other]
  | wake t i at_ => exact put_owned h (by simp [at_, Place.IsInside]) (by simp [Place.IsInside])
  | timeout t i j at_ _ =>
    exact put_owned h (by simp [at_, Place.IsInside]) (by simp [Place.IsInside])

theorem owner_iff_inside {first w : World T σ O I} {ok : World T σ O I → Label T A → Prop}
    (h : Reachable code first ok w) (base : Owned first) : Owned w :=
  h.invariant Owned base fun _ _ _ _ ih _ step => step_owned step ih

/-- A thread in the monitor does not get out by a change of place to one that
is in the monitor too. -/
theorem put_stays_in {w : World T σ O I} {t u : T} {p : Place (O u) (I u)} {i : I t} {o : O t}
    (before : (w.place t).stage = .inr i) (inside : ∀ o, p ≠ .outside o) :
    (w.put u p).place t ≠ .outside o := by
  intro after
  by_cases same : t = u
  · subst same
    rw [w.put_self] at after
    exact inside o after
  · rw [w.put_other p same] at after
    simp [after, Place.stage] at before

/-- A thread gets out of the monitor only by the end of a critical section. -/
theorem step_unlocks {w v : World T σ O I} {l : Label T A} {t : T} {i : I t} {o : O t}
    (step : Step code w l v) (before : (w.place t).stage = .inr i) (after : v.place t = .outside o) :
    ∃ a, (code.inside t i a w.shared).exit = .unlock o ∧
      v = w.finish t (code.inside t i a w.shared) := by
  cases step with
  | move u a p m at_ _ =>
    -- the mover was outside before, so it is not `t`
    have other : t ≠ u := by
      rintro rfl
      simp [at_, Place.stage] at before
    rw [w.put_other _ other] at after
    simp [after, Place.stage] at before
  | run u a j at_ =>
    by_cases same : t = u
    · subst same
      obtain rfl : j = i := by simpa [at_, Place.stage] using before
      refine ⟨a, ?_, rfl⟩
      rw [w.finish_self] at after
      cases he : (code.inside t j a w.shared).exit <;> simp_all [Exit.place]
    · have stays : ((w.finish u (code.inside u j a w.shared)).place t).stage = (w.place t).stage := by
        rw [w.finish_other _ same]
        split <;> simp
      rw [after, before] at stays
      cases stays
  | acquire u j at_ _ => exact absurd after (put_stays_in (p := .inside j) before (by simp))
  | wake u j at_ => exact absurd after (put_stays_in before (by simp))
  | timeout u j k at_ _ => exact absurd after (put_stays_in before (by simp))

/-! ## Wake-ups -/

/-- The discipline that keeps wake-ups from getting lost. `awaits t i s` says
that the condition thread `t` sleeps for at `i` holds in `s`. -/
structure Announces (code : Code T σ A O I) (awaits : ∀ t, I t → σ → Prop) : Prop where
  /-- A thread sleeps only after it has found its condition false. -/
  tests : ∀ t i a s j, (code.inside t i a s).exit = .wait j →
    ¬ awaits t j (code.inside t i a s).shared
  /-- A stretch that does not broadcast makes no condition true. -/
  tells : ∀ t i a s, (code.inside t i a s).broadcast = false →
    ∀ u j, awaits u j (code.inside t i a s).shared → awaits u j s

/-- No thread sleeps while the condition it waits for holds. -/
def Awake (awaits : ∀ t, I t → σ → Prop) (w : World T σ O I) : Prop :=
  ∀ t i, w.place t = .asleep i → ¬ awaits t i w.shared

theorem put_awake {awaits : ∀ t, I t → σ → Prop} {w : World T σ O I} {t : T}
    {p : Place (O t) (I t)} (h : Awake awaits w) (up : ∀ i, p ≠ .asleep i) :
    Awake awaits (w.put t p) := by
  intro u i hi
  by_cases hu : u = t
  · subst hu
    exact absurd (by simpa using hi) (up i)
  · exact h u i (by simpa [w.put_other p hu] using hi)

theorem step_awake {awaits : ∀ t, I t → σ → Prop} {w v : World T σ O I} {l : Label T A}
    (rule : Announces code awaits) (step : Step code w l v) (h : Awake awaits w) :
    Awake awaits v := by
  cases step with
  | move t a o m _ _ => exact put_awake h (by cases m <;> simp [Move.place])
  | acquire t i _ _ => exact put_awake (p := .inside i) h (by simp)
  | run t a i _ =>
    intro u j hj
    by_cases hu : u = t
    · subst hu
      apply rule.tests
      cases he : (code.inside u i a w.shared).exit <;> simp_all [Exit.place]
    · rw [w.finish_other _ hu] at hj
      cases hb : (code.inside t i a w.shared).broadcast with
      | true =>
        -- a broadcast leaves nobody else asleep
        simp only [hb, ↓reduceIte] at hj
        cases hp : w.place u <;> simp [hp, Place.signal] at hj
      | false =>
        simp only [hb, Bool.false_eq_true, ↓reduceIte] at hj
        exact fun now => h u j hj (rule.tells t i a w.shared hb u j now)
  | wake t i _ => exact put_awake h (by simp)
  | timeout t i j _ _ => exact put_awake h (by simp)

/-- **No wake-up is lost.** Where the code announces what it does, no reachable
world has a thread asleep, with no signal on its way, while its condition holds. -/
theorem no_lost_wakeup {awaits : ∀ t, I t → σ → Prop} {first w : World T σ O I}
    {ok : World T σ O I → Label T A → Prop} (rule : Announces code awaits)
    (h : Reachable code first ok w) (base : Awake awaits first) : Awake awaits w :=
  h.invariant (Awake awaits) base fun _ _ _ _ ih _ step => step_awake rule step ih

/-! ## Atomic sections -/

def Stages.put (s : Stages T σ O I) (t : T) (x : O t ⊕ I t) : Stages T σ O I :=
  { s with stage := Function.update s.stage t x }

@[simp] theorem Stages.put_shared (s : Stages T σ O I) (t : T) (x : O t ⊕ I t) :
    (s.put t x).shared = s.shared := rfl

@[simp] theorem Stages.put_self (s : Stages T σ O I) (t : T) (x : O t ⊕ I t) :
    (s.put t x).stage t = x := by simp [put]

theorem Stages.put_other (s : Stages T σ O I) {t u : T} (x : O t ⊕ I t) (h : u ≠ t) :
    (s.put t x).stage u = s.stage u := by simp [put, h]

theorem Stages.put_same (s : Stages T σ O I) {t : T} {x : O t ⊕ I t} (h : s.stage t = x) :
    s.put t x = s := by
  simp [put, ← h]

/-- The steps with every critical section in one piece. Taking the mutex and
waking up change nothing here. -/
inductive Atomic (code : Code T σ A O I) : Stages T σ O I → Label T A → Stages T σ O I → Prop where
  | stutter (s l) : Atomic code s l s
  | move (s) (t : T) (a : A) (o : O t) (m : Move (O t) (I t)) (at_ : s.stage t = .inl o)
      (does : code.outside t o a s.shared = some m) :
      Atomic code s (.move t a) (s.put t m.place.stage)
  | run (s) (t : T) (a : A) (i : I t) (at_ : s.stage t = .inr i) :
      Atomic code s (.run t a)
        { s.put t (code.inside t i a s.shared).exit.place.stage with
          shared := (code.inside t i a s.shared).shared }
  | timeout (s) (t : T) (i j : I t) (at_ : s.stage t = .inr i)
      (expired : code.timeout t i = some j) : Atomic code s (.timeout t) (s.put t (.inr j))

theorem World.put_stages (w : World T σ O I) (t : T) (p : Place (O t) (I t)) :
    (w.put t p).stages = w.stages.put t p.stage := by
  simp only [stages, put, Stages.put, Stages.mk.injEq, true_and]
  funext u
  by_cases hu : u = t
  · subst hu
    simp
  · simp [hu]

theorem World.finish_stages (w : World T σ O I) (t : T) (s : Section σ (O t) (I t)) :
    (w.finish t s).stages = { w.stages.put t s.exit.place.stage with shared := s.shared } := by
  simp only [stages, finish, Stages.put, Stages.mk.injEq, true_and]
  funext u
  by_cases hu : u = t
  · subst hu
    simp
  · simp only [Function.update_of_ne hu]
    split <;> simp

/-- **Every step is a step of the machine with atomic sections.** -/
theorem step_atomic {w v : World T σ O I} {l : Label T A} (step : Step code w l v) :
    Atomic code w.stages l v.stages := by
  cases step with
  | move t a o m at_ does =>
    rw [w.put_stages]
    exact .move _ t a o m (by simp [at_, Place.stage]) does
  | acquire t i at_ free =>
    have same : w.stages.put t (.inr i) = w.stages := w.stages.put_same (by simp [at_, Place.stage])
    have := w.put_stages t (.inside i)
    simp only [Place.stage, same] at this
    exact this ▸ .stutter _ _
  | run t a i at_ =>
    rw [w.finish_stages]
    exact .run _ t a i (by simp [at_, Place.stage])
  | wake t i at_ =>
    rw [w.put_stages, w.stages.put_same (by simp [at_, Place.stage])]
    exact .stutter _ _
  | timeout t i j at_ expired =>
    rw [w.put_stages]
    exact .timeout _ t i j (by simp [at_, Place.stage]) expired

/-- An invariant of the machine with atomic sections holds in every world. -/
theorem Reachable.atomic {first w : World T σ O I} {ok : World T σ O I → Label T A → Prop}
    {okay : Stages T σ O I → Label T A → Prop} {Inv : Stages T σ O I → Prop}
    (h : Reachable code first ok w) (imp : ∀ w l, ok w l → okay w.stages l)
    (base : Inv first.stages)
    (keep : ∀ s l r, Inv s → okay s l → Atomic code s l r → Inv r) : Inv w.stages := by
  apply h.invariant (fun w => Inv w.stages) base
  intro w l v _ ih hok step
  exact keep _ _ _ ih (imp w l hok) (step_atomic step)

/-- The same with no condition on the steps. -/
theorem Reachable.always {first w : World T σ O I} {ok : World T σ O I → Label T A → Prop}
    {Inv : Stages T σ O I → Prop} (h : Reachable code first ok w) (base : Inv first.stages)
    (keep : ∀ s l r, Inv s → Atomic code s l r → Inv r) : Inv w.stages := by
  apply h.invariant (fun w => Inv w.stages) base
  intro w l v _ ih _ step
  exact keep _ _ _ ih (step_atomic step)

/-! ## Progress -/

/-- Thread `t` can go on by itself. -/
def Enabled (code : Code T σ A O I) (w : World T σ O I) (t : T) : Prop :=
  ∃ l v, l.thread = t ∧ l.Own ∧ Step code w l v

theorem section_enabled [Inhabited A] {w : World T σ O I} {t : T} {i : I t}
    (h : w.place t = .inside i) : Enabled code w t :=
  ⟨.run t default, _, rfl, trivial, .run w t default i h⟩

theorem acquire_enabled {w : World T σ O I} {t : T} {i : I t} (h : w.place t = .entering i)
    (free : w.owner = none) : Enabled code w t :=
  ⟨.acquire t, _, rfl, trivial, .acquire w t i h free⟩

/-- If thread `t` wants the mutex, it or the owner can go on. -/
theorem entering_progress [Inhabited A] {w : World T σ O I} {t : T} {i : I t} (owned : Owned w)
    (h : w.place t = .entering i) :
    Enabled code w t ∨ ∃ u, w.owner = some u ∧ Enabled code w u := by
  cases ho : w.owner with
  | none => exact .inl (acquire_enabled h ho)
  | some u =>
    refine .inr ⟨u, rfl, ?_⟩
    have := (owned u).mp ho
    cases hp : w.place u <;> simp only [hp, Place.IsInside] at this
    exact section_enabled hp

end

end Monitor
