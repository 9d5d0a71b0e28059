import Mathlib.Logic.Function.Basic
import Xposed.Lib.Run

/-!
# Process trees

Processes that act on their own memory, fork and exit. A child starts with what
it inherits of its parent's memory; the pid of a process that has exited can be
given out again.

* `Step`, `exec`: one step of one process, as a relation and as a function;
* `lineage`: what a process did, and its ancestors before they forked;
* `Reachable.each`: a property of single processes that actions keep and that
  children inherit holds in the whole tree;
* `anchors_live`, `fresh_unnamed`: while the processes that others keep the pid
  of do not exit, such a pid is never given out again.
-/

namespace ForkTree

abbrev Pid := Nat

inductive Past (A : Type) where
  | act (p : Pid) (a : A)
  | fork (parent child : Pid)
  deriving DecidableEq

/-- The lineage has its newest entry first. No code reads it. -/
structure Process (M A : Type) where
  memory : M
  lineage : List (Past A)

structure Code (M A : Type) where
  act : Pid → A → M → M
  /-- What a child finds of its parent's memory. -/
  inherit : M → M

/-- The live processes. -/
abbrev World (M A : Type) := Pid → Option (Process M A)

inductive Label (A : Type) where
  | act (p : Pid) (a : A)
  | fork (parent child : Pid)
  | exit (p : Pid)
  deriving DecidableEq

section
variable {M A : Type}

def Code.did (code : Code M A) (p : Pid) (a : A) (x : Process M A) : Process M A :=
  ⟨code.act p a x.memory, .act p a :: x.lineage⟩

def Code.born (code : Code M A) (parent child : Pid) (x : Process M A) : Process M A :=
  ⟨code.inherit x.memory, .fork parent child :: x.lineage⟩

/-- A tree that is one process so far. -/
def single (p : Pid) (x : Process M A) : World M A := Function.update (fun _ => none) p (some x)

theorem single_eq_some {p q : Pid} {x y : Process M A} (h : single p x q = some y) :
    q = p ∧ y = x := by
  by_cases same : q = p
  · subst same
    simpa [single, eq_comm] using h
  · simp [single, same] at h

variable (code : Code M A)

inductive Step : World M A → Label A → World M A → Prop where
  | act (w) (p a x) (live : w p = some x) :
      Step w (.act p a) (Function.update w p (some (code.did p a x)))
  | fork (w) (p c x) (live : w p = some x) (free : w c = none) :
      Step w (.fork p c) (Function.update w c (some (code.born p c x)))
  | exit (w) (p x) (live : w p = some x) : Step w (.exit p) (Function.update w p none)

def exec (w : World M A) : Label A → Option (World M A)
  | .act p a => (w p).map fun x => Function.update w p (some (code.did p a x))
  | .fork p c =>
    if (w c).isNone then (w p).map fun x => Function.update w c (some (code.born p c x))
    else none
  | .exit p => (w p).map fun _ => Function.update w p none

abbrev execAll (ok : World M A → Label A → Prop) [∀ w l, Decidable (ok w l)] (w : World M A)
    (ls : List (Label A)) : Option (World M A) :=
  Run.execAll (exec code) ok w ls

theorem exec_step {w v : World M A} {l : Label A} (h : exec code w l = some v) :
    Step code w l v := by
  cases l with
  | act p a =>
    obtain ⟨x, live, rfl⟩ := Option.map_eq_some_iff.mp h
    exact .act w p a x live
  | fork p c =>
    simp only [exec] at h
    split at h
    · rename_i free
      obtain ⟨x, live, rfl⟩ := Option.map_eq_some_iff.mp h
      exact .fork w p c x live (Option.isNone_iff_eq_none.mp free)
    · cases h
  | exit p =>
    obtain ⟨x, live, rfl⟩ := Option.map_eq_some_iff.mp h
    exact .exit w p x live

/-- The trees of the runs from `first` whose steps all meet `ok`. -/
abbrev Reachable (first : World M A) (ok : World M A → Label A → Prop) (w : World M A) : Prop :=
  Run.Reachable (Step code) first ok w

variable {code}

theorem execAll_reachable {first w v : World M A} {ok : World M A → Label A → Prop}
    [∀ w l, Decidable (ok w l)] {ls : List (Label A)} (h : Reachable code first ok w)
    (run : execAll code ok w ls = some v) : Reachable code first ok v :=
  Run.execAll_reachable (exec_step code) h run

theorem update_some {w : World M A} {p q : Pid} {x : Option (Process M A)} {y : Process M A}
    (h : Function.update w p x q = some y) : (q = p ∧ x = some y) ∨ (q ≠ p ∧ w q = some y) := by
  by_cases same : q = p
  · subst same
    exact .inl ⟨rfl, by simpa using h⟩
  · exact .inr ⟨same, by simpa [same] using h⟩

/-- **A property of single processes.** What every first process has, every
action keeps and every child gets from its parent, every process has. -/
theorem Reachable.each {first w : World M A} {ok : World M A → Label A → Prop}
    (Inv : Pid → Process M A → Prop) (h : Reachable code first ok w)
    (base : ∀ p x, first p = some x → Inv p x)
    (act : ∀ w p a x, Reachable code first ok w → ok w (.act p a) → w p = some x → Inv p x →
      Inv p (code.did p a x))
    (fork : ∀ w p c x, Reachable code first ok w → ok w (.fork p c) → w p = some x →
      w c = none → Inv p x → Inv c (code.born p c x)) :
    ∀ p x, w p = some x → Inv p x := by
  apply h.invariant (fun w => ∀ p x, w p = some x → Inv p x) base
  intro w l v hw ih hok step q y hy
  cases step with
  | act p a x live =>
    rcases update_some hy with ⟨rfl, same⟩ | ⟨_, before⟩
    · cases same
      exact act w q a x hw hok live (ih q x live)
    · exact ih q y before
  | fork p c x live free =>
    rcases update_some hy with ⟨rfl, same⟩ | ⟨_, before⟩
    · cases same
      exact fork w p q x hw hok live free (ih p x live)
    · exact ih q y before
  | exit p x live =>
    rcases update_some hy with ⟨_, same⟩ | ⟨_, before⟩
    · cases same
    · exact ih q y before

/-- A process that never exits is always there. -/
theorem Reachable.stays {first w : World M A} {ok : World M A → Label A → Prop} {p : Pid}
    (h : Reachable code first ok w) (live : first p ≠ none) (stay : ∀ w, ¬ ok w (.exit p)) :
    w p ≠ none := by
  apply h.invariant (fun w => w p ≠ none) live
  intro w l v _ ih hok step
  cases step with
  | act q a x _ | fork q c x _ _ =>
    intro gone
    simp only [Function.update_apply] at gone
    split at gone
    · cases gone
    · exact ih gone
  | exit q x _ =>
    have other : p ≠ q := by
      rintro rfl
      exact stay w hok
    simpa [other] using ih

/-! ## Pids kept in memory -/

/-- `names m` is the pid that a process with memory `m` keeps, if any. Actions
write only the own pid there. -/
structure Names (code : Code M A) (names : M → Option Pid) : Prop where
  act : ∀ p a m, names (code.act p a m) = names m ∨ names (code.act p a m) = some p
  inherit : ∀ m, names (code.inherit m) = names m

/-- A process that keeps its own pid does not exit. -/
def AnchorsStay (names : M → Option Pid) (w : World M A) : Label A → Prop
  | .exit p => ∀ x, w p = some x → names x.memory ≠ some p
  | _ => True

instance (names : M → Option Pid) (w : World M A) (l : Label A) :
    Decidable (AnchorsStay names w l) := by
  unfold AnchorsStay
  split
  · rename_i p
    cases w p <;> simp <;> infer_instance
  · infer_instance

/-- A pid that is kept is that of a live process, which keeps it too. -/
def Anchored (names : M → Option Pid) (w : World M A) : Prop :=
  ∀ p x q, w p = some x → names x.memory = some q →
    ∃ y, w q = some y ∧ names y.memory = some q

theorem step_anchored {names : M → Option Pid} {w v : World M A} {l : Label A}
    (rule : Names code names) (stay : AnchorsStay names w l) (h : Anchored names w)
    (step : Step code w l v) : Anchored names v := by
  intro r z q hz hq
  cases step with
  | act p a x live =>
    -- the actor keeps what it kept, or its own pid
    have anchor : ∀ y, w q = some y → names y.memory = some q →
        ∃ y, Function.update w p (some (code.did p a x)) q = some y ∧ names y.memory = some q := by
      intro y hy own
      by_cases same : q = p
      · subst same
        obtain rfl : x = y := Option.some.inj (live.symm.trans hy)
        refine ⟨code.did q a x, by simp, ?_⟩
        rcases rule.act q a x.memory with kept | new
        · exact kept.trans own
        · exact new
      · exact ⟨y, by simp [same, hy], own⟩
    rcases update_some hz with ⟨rfl, same⟩ | ⟨_, before⟩
    · cases same
      rcases rule.act r a x.memory with kept | new
      · obtain ⟨y, hy, own⟩ := h r x q live (kept.symm.trans hq)
        exact anchor y hy own
      · obtain rfl : r = q := Option.some.inj (new.symm.trans hq)
        exact ⟨code.did r a x, by simp, new⟩
    · obtain ⟨y, hy, own⟩ := h r z q before hq
      exact anchor y hy own
  | fork p c x live free =>
    have older : ∃ y, w q = some y ∧ names y.memory = some q := by
      rcases update_some hz with ⟨_, same⟩ | ⟨_, before⟩
      · cases same
        exact h p x q live ((rule.inherit x.memory).symm.trans hq)
      · exact h r z q before hq
    obtain ⟨y, hy, own⟩ := older
    have other : q ≠ c := by
      rintro rfl
      simp [free] at hy
    exact ⟨y, by simp [other, hy], own⟩
  | exit p x live =>
    rcases update_some hz with ⟨_, same⟩ | ⟨_, before⟩
    · cases same
    · obtain ⟨y, hy, own⟩ := h r z q before hq
      have other : q ≠ p := by
        rintro rfl
        exact stay y hy own
      exact ⟨y, by simp [other, hy], own⟩

/-- **A kept pid stays with its process** while the processes that keep their
own pid do not exit. -/
theorem anchors_live {names : M → Option Pid} {first w : World M A}
    {ok : World M A → Label A → Prop} (rule : Names code names)
    (stay : ∀ w l, ok w l → AnchorsStay names w l) (base : Anchored names first)
    (h : Reachable code first ok w) : Anchored names w := by
  apply h.invariant (Anchored names) base
  intro w l v _ ih hok step
  exact step_anchored rule (stay w l hok) ih step

/-- The pid of a new process is kept by nobody. -/
theorem fresh_unnamed {names : M → Option Pid} {w : World M A} (h : Anchored names w) {p c : Pid}
    {x : Process M A} (live : w p = some x) (free : w c = none) : names x.memory ≠ some c := by
  intro named
  obtain ⟨y, hy, _⟩ := h p x c live named
  simp [free] at hy

end

end ForkTree
