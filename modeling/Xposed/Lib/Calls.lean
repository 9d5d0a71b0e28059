import Mathlib.Logic.Basic

/-!
# Programs that call an environment

* `Prog`: a program as the tree of its calls, one branch for each answer;
* `Env`: which calls are allowed in a state, and which answers they may get;
* `Runs`, `Misuses`: what a program does with all answers, and when one of its
  calls is not allowed;
* `Prog.wp`: the weakest precondition, with `wp_iff` that ties it to the runs and
  the rules `wp_bind`, `wp_mono` and `wp_chain`;
* `Prog.exec`: a run in an environment that answers by a function.
-/

namespace Calls

/-- A program that returns an `α`. `A c` are the answers to the call `c`. -/
inductive Prog (C : Type) (A : C → Type) (α : Type) : Type where
  | done (a : α)
  | call (c : C) (next : A c → Prog C A α)

/-- A call with its answer. -/
structure Event (C : Type) (A : C → Type) where
  called : C
  answer : A called

/-- An environment with states `S`. -/
structure Env (C : Type) (A : C → Type) (S : Type) where
  Allowed : S → C → Prop
  Answers : S → (c : C) → A c → S → Prop

section
variable {C : Type} {A : C → Type} {S α β γ : Type}

def Prog.bind : Prog C A α → (α → Prog C A β) → Prog C A β
  | .done a, f => f a
  | .call c next, f => .call c fun a => (next a).bind f

instance : Monad (Prog C A) where
  pure := .done
  bind := Prog.bind

/-- The call, with its answer as the result. -/
def Prog.perform (c : C) : Prog C A (A c) := .call c .done

/-- The runs from a state, with the events, the result and the state they end in. -/
inductive Runs (env : Env C A S) : S → Prog C A α → List (Event C A) → α → S → Prop where
  | done (s : S) (a : α) : Runs env s (.done a) [] a s
  | call {s s' t : S} {c : C} {answer : A c} {next : A c → Prog C A α} {events : List (Event C A)}
      {a : α} (answers : env.Answers s c answer s') (rest : Runs env s' (next answer) events a t) :
      Runs env s (.call c next) (⟨c, answer⟩ :: events) a t

/-- With some answers a call comes that is not allowed. -/
inductive Misuses (env : Env C A S) : S → Prog C A α → Prop where
  | here {s : S} {c : C} {next : A c → Prog C A α} (refused : ¬ env.Allowed s c) :
      Misuses env s (.call c next)
  | later {s s' : S} {c : C} {answer : A c} {next : A c → Prog C A α}
      (answers : env.Answers s c answer s') (rest : Misuses env s' (next answer)) :
      Misuses env s (.call c next)

/-- All calls are allowed and each run ends in `Q`. -/
def Prog.wp (env : Env C A S) : Prog C A α → (List (Event C A) → α → S → Prop) → S → Prop
  | .done a, Q, s => Q [] a s
  | .call c next, Q, s => env.Allowed s c ∧ ∀ answer s', env.Answers s c answer s' →
      (next answer).wp env (fun events => Q (⟨c, answer⟩ :: events)) s'

variable {env : Env C A S} {Q R : List (Event C A) → α → S → Prop} {s : S}

@[simp] theorem Prog.wp_pure (a : α) : (pure a : Prog C A α).wp env Q s ↔ Q [] a s := Iff.rfl

theorem Prog.wp_bind (p : Prog C A α) (f : α → Prog C A β) {Q : List (Event C A) → β → S → Prop} :
    (p >>= f).wp env Q s ↔
      p.wp env (fun events a => (f a).wp env fun later => Q (events ++ later)) s := by
  induction p generalizing s Q with
  | done a => exact Iff.rfl
  | call c next ih =>
    constructor
    · rintro ⟨allowed, rest⟩
      exact ⟨allowed, fun answer s' answers => (ih answer).mp (rest answer s' answers)⟩
    · rintro ⟨allowed, rest⟩
      exact ⟨allowed, fun answer s' answers => (ih answer).mpr (rest answer s' answers)⟩

theorem Prog.wp_mono {p : Prog C A α} (h : p.wp env Q s)
    (implies : ∀ events a t, Q events a t → R events a t) : p.wp env R s := by
  induction p generalizing s Q R with
  | done a => exact implies _ _ _ h
  | call c next ih =>
    obtain ⟨allowed, rest⟩ := h
    refine ⟨allowed, fun answer s' answers => ?_⟩
    exact ih answer (rest answer s' answers) fun events a t => implies _ a t

/-- One program and then another one, each with its own postcondition. -/
theorem Prog.wp_chain {p : Prog C A α} {f : α → Prog C A β} {Q : List (Event C A) → β → S → Prop}
    (first : p.wp env R s)
    (later : ∀ events a t, R events a t → (f a).wp env (fun rest => Q (events ++ rest)) t) :
    (p >>= f).wp env Q s := by
  rw [wp_bind]
  exact wp_mono first later

/-- The precondition is exactly what makes all runs safe and end well. -/
theorem Prog.wp_iff (p : Prog C A α) :
    p.wp env Q s ↔ ¬ Misuses env s p ∧ ∀ events a t, Runs env s p events a t → Q events a t := by
  induction p generalizing s Q with
  | done a =>
    constructor
    · refine fun h => ⟨nofun, fun events a t run => ?_⟩
      cases run
      exact h
    · exact fun h => h.2 _ _ _ (.done s a)
  | call c next ih =>
    constructor
    · rintro ⟨allowed, rest⟩
      constructor
      · intro misuses
        cases misuses with
        | here refused => exact refused allowed
        | later answers bad => exact ((ih _).mp (rest _ _ answers)).1 bad
      · intro events a t run
        cases run with
        | call answers run => exact ((ih _).mp (rest _ _ answers)).2 _ _ _ run
    · rintro ⟨safe, ends⟩
      refine ⟨by_contra fun refused => safe (.here refused), fun answer s' answers => ?_⟩
      exact (ih answer).mpr ⟨fun bad => safe (.later answers bad),
        fun events a t run => ends _ a t (.call answers run)⟩

theorem Prog.wp_runs {p : Prog C A α} (h : p.wp env Q s) {events : List (Event C A)} {a : α} {t : S}
    (run : Runs env s p events a t) : Q events a t := (p.wp_iff.mp h).2 events a t run

theorem Prog.wp_safe {p : Prog C A α} (h : p.wp env Q s) : ¬ Misuses env s p := (p.wp_iff.mp h).1

/-- The run that an answering function gives. -/
def Prog.exec (answer : S → (c : C) → A c × S) : S → Prog C A α → List (Event C A) × α × S
  | s, .done a => ([], a, s)
  | s, .call c next =>
    let rest := (next (answer s c).1).exec answer (answer s c).2
    (⟨c, (answer s c).1⟩ :: rest.1, rest.2)

theorem Prog.exec_runs {answer : S → (c : C) → A c × S}
    (answers : ∀ s c, env.Answers s c (answer s c).1 (answer s c).2) (p : Prog C A α) (s : S) :
    Runs env s p (p.exec answer s).1 (p.exec answer s).2.1 (p.exec answer s).2.2 := by
  induction p generalizing s with
  | done a => exact .done s a
  | call c next ih => exact .call (answers s c) (ih _ _)

end

end Calls
