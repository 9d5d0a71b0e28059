import Mathlib.Order.BoundedOrder.Lattice
import Xposed.Lib.Run

/-!
# Credentials of a process

User and group ids, capabilities and the security context, with the system calls
that change them:

* `Creds.call`: what a call changes, or that the kernel refuses it;
* `Passes`: a process gets through a list of calls, each of which it checks or
  takes as it comes;
* `Creds.call_permitted_le`: no call gives a capability to a process that may not
  gain privileges by `execve`;
* `Dropped.call`, `Dropped.forever`: a process without capabilities keeps its ids
  and groups for good.

The sets of capabilities are of any type `C` with an order and a least one.
-/

namespace Credentials

/-- Real, effective and saved. -/
structure Ids where
  real : UInt32
  effective : UInt32
  saved : UInt32
  deriving DecidableEq

def Ids.all (id : UInt32) : Ids := ⟨id, id, id⟩

def Ids.has (ids : Ids) (id : UInt32) : Bool :=
  ids.real == id || ids.effective == id || ids.saved == id

/-- Every new one is one of the old ones. -/
def Ids.within (new old : Ids) : Bool :=
  old.has new.real && old.has new.effective && old.has new.saved

/-- The sets that have just the capability of their name. -/
structure Kernel (C : Type) [LE C] [Bot C] where
  CAP_SETUID : C
  CAP_SETGID : C
  setuid_some : ¬ CAP_SETUID ≤ ⊥
  setgid_some : ¬ CAP_SETGID ≤ ⊥

structure Creds (C X : Type) [LE C] where
  uid : Ids
  gid : Ids
  groups : List UInt32
  permitted : C
  effective : C
  inheritable : C
  bounding : C
  keepCaps : Bool
  noNewPrivs : Bool
  context : X
  usable : effective ≤ permitted

/-- What `capset` is asked for. -/
structure CapData (C : Type) where
  permitted : C
  effective : C
  inheritable : C
  deriving DecidableEq

/-- An executable: whose ids it runs with, and its own capabilities. -/
structure Program (C : Type) where
  setuid : Option UInt32
  setgid : Option UInt32
  permitted : C
  inheritable : C
  effective : Bool

inductive Call (C X : Type) where
  | setresuid (new : Ids)
  | setresgid (new : Ids)
  | setgroups (groups : List UInt32)
  | keepCaps (keep : Bool)
  | noNewPrivs
  | capset (data : CapData C)
  | setcon (context : X)
  | execve (program : Program C)

section
variable {C X : Type} [Lattice C] [OrderBot C]

/-- The capabilities left when the user ids become `new`: those of root go with
the last id of root, unless they are to be kept. -/
def Creds.permittedFor (c : Creds C X) (new : Ids) : C :=
  if c.uid.has 0 && !new.has 0 && !c.keepCaps then ⊥ else c.permitted

def Creds.effectiveFor (c : Creds C X) (new : Ids) : C :=
  if c.uid.has 0 && !new.has 0 && !c.keepCaps then ⊥
  else if c.uid.effective == 0 && new.effective != 0 then ⊥
  else if c.uid.effective != 0 && new.effective == 0 then c.permitted
  else c.effective

theorem Creds.usableFor (c : Creds C X) (new : Ids) : c.effectiveFor new ≤ c.permittedFor new := by
  unfold effectiveFor permittedFor
  split
  · exact le_rfl
  · split
    · exact bot_le
    · split
      · exact le_rfl
      · exact c.usable

/-- `execve`. With `noNewPrivs` the ids stay and nothing is added. -/
def Creds.execveIds (c : Creds C X) (program : Program C) : Ids × Ids :=
  if c.noNewPrivs then
    (⟨c.uid.real, c.uid.effective, c.uid.effective⟩, ⟨c.gid.real, c.gid.effective, c.gid.effective⟩)
  else
    let uid := program.setuid.getD c.uid.effective
    let gid := program.setgid.getD c.gid.effective
    (⟨c.uid.real, uid, uid⟩, ⟨c.gid.real, gid, gid⟩)

def Creds.execvePermitted (c : Creds C X) (program : Program C) : C :=
  let uid := (c.execveIds program).1
  let gained :=
    if uid.real == 0 || uid.effective == 0 then c.inheritable ⊔ c.bounding
    else (c.inheritable ⊓ program.inheritable) ⊔ (program.permitted ⊓ c.bounding)
  if c.noNewPrivs then gained ⊓ c.permitted else gained

def Creds.execveEffective (c : Creds C X) (program : Program C) : C :=
  if (c.execveIds program).1.effective == 0 || program.effective then c.execvePermitted program
  else ⊥

theorem Creds.execve_usable (c : Creds C X) (program : Program C) :
    c.execveEffective program ≤ c.execvePermitted program := by
  unfold execveEffective
  split
  · exact le_rfl
  · exact bot_le

def Creds.execve (c : Creds C X) (program : Program C) : Creds C X :=
  { c with
    uid := (c.execveIds program).1
    gid := (c.execveIds program).2
    permitted := c.execvePermitted program
    effective := c.execveEffective program
    keepCaps := false
    usable := c.execve_usable program }

variable [DecidableLE C]

/-- What a call leaves. `none`: the kernel refuses it. -/
def Creds.call (k : Kernel C) (c : Creds C X) : Call C X → Option (Creds C X)
  | .setresuid new =>
    if k.CAP_SETUID ≤ c.effective ∨ new.within c.uid = true then
      some { c with
        uid := new
        permitted := c.permittedFor new
        effective := c.effectiveFor new
        usable := c.usableFor new }
    else none
  | .setresgid new =>
    if k.CAP_SETGID ≤ c.effective ∨ new.within c.gid = true then some { c with gid := new } else none
  | .setgroups groups => if k.CAP_SETGID ≤ c.effective then some { c with groups } else none
  | .keepCaps keep => some { c with keepCaps := keep }
  | .noNewPrivs => some { c with noNewPrivs := true }
  | .capset data =>
    if h : data.effective ≤ data.permitted ∧ data.permitted ≤ c.permitted ∧
        data.inheritable ≤ c.inheritable ⊔ c.permitted then
      some { c with
        permitted := data.permitted
        effective := data.effective
        inheritable := data.inheritable
        usable := h.1 }
    else none
  | .setcon context => some { c with context }
  | .execve program => some (c.execve program)

/-- Everything that a call can do. -/
inductive Called (k : Kernel C) (c : Creds C X) : Call C X → Creds C X → Prop where
  | setresuid {new} : k.CAP_SETUID ≤ c.effective ∨ new.within c.uid = true →
      Called k c (.setresuid new)
        { c with
          uid := new
          permitted := c.permittedFor new
          effective := c.effectiveFor new
          usable := c.usableFor new }
  | setresgid {new} : k.CAP_SETGID ≤ c.effective ∨ new.within c.gid = true →
      Called k c (.setresgid new) { c with gid := new }
  | setgroups {groups} : k.CAP_SETGID ≤ c.effective → Called k c (.setgroups groups) { c with groups }
  | keepCaps {keep} : Called k c (.keepCaps keep) { c with keepCaps := keep }
  | noNewPrivs : Called k c .noNewPrivs { c with noNewPrivs := true }
  | capset {data} (usable : data.effective ≤ data.permitted) :
      data.permitted ≤ c.permitted → data.inheritable ≤ c.inheritable ⊔ c.permitted →
      Called k c (.capset data)
        { c with
          permitted := data.permitted
          effective := data.effective
          inheritable := data.inheritable
          usable }
  | setcon {context} : Called k c (.setcon context) { c with context }
  | execve {program} : Called k c (.execve program) (c.execve program)

theorem Creds.call_called {k : Kernel C} {c d : Creds C X} {l : Call C X}
    (h : c.call k l = some d) : Called k c l d := by
  cases l with
  | setresuid new =>
    obtain ⟨allowed, same⟩ := Option.ite_none_right_eq_some.mp h
    cases same
    exact .setresuid allowed
  | setresgid new =>
    obtain ⟨allowed, same⟩ := Option.ite_none_right_eq_some.mp h
    cases same
    exact .setresgid allowed
  | setgroups groups =>
    obtain ⟨allowed, same⟩ := Option.ite_none_right_eq_some.mp h
    cases same
    exact .setgroups allowed
  | keepCaps keep =>
    cases h
    exact .keepCaps
  | noNewPrivs =>
    cases h
    exact .noNewPrivs
  | capset data =>
    obtain ⟨allowed, same⟩ := Option.dite_none_right_eq_some.mp h
    cases same
    exact .capset allowed.1 allowed.2.1 allowed.2.2
  | setcon context =>
    cases h
    exact .setcon
  | execve program =>
    cases h
    exact .execve

/-! ## What is never gained -/

/-- The call may not gain privileges by running another program. -/
def Call.Harmless (c : Creds C X) (l : Call C X) : Prop :=
  c.noNewPrivs = true ∨ ∀ program, l ≠ .execve program

section
variable {k : Kernel C} {c d : Creds C X} {l : Call C X}

omit [DecidableLE C] in
theorem Creds.permittedFor_le (c : Creds C X) (new : Ids) : c.permittedFor new ≤ c.permitted := by
  unfold permittedFor
  split
  · exact bot_le
  · exact le_rfl

omit [OrderBot C] [DecidableLE C] in
theorem Creds.execvePermitted_le (h : c.noNewPrivs = true) (program : Program C) :
    c.execvePermitted program ≤ c.permitted := by
  unfold execvePermitted
  simp only [h, if_true]
  exact inf_le_right

/-- **No call gives a capability.** -/
theorem Creds.call_permitted_le (h : c.call k l = some d) (harmless : l.Harmless c) :
    d.permitted ≤ c.permitted := by
  cases Creds.call_called h with
  | setresuid _ => exact c.permittedFor_le _
  | setresgid _ | setgroups _ | keepCaps | noNewPrivs | setcon => exact le_rfl
  | capset _ less _ => exact less
  | execve =>
    rcases harmless with none | other
    · exact execvePermitted_le none _
    · exact absurd rfl (other _)

theorem Ids.within_all {new : Ids} {id : UInt32} (h : new.within (.all id) = true) :
    new = .all id := by
  obtain ⟨real, effective, saved⟩ := new
  simp only [within, has, all, Bool.or_self, Bool.and_eq_true, beq_iff_eq] at h
  obtain ⟨⟨rfl, rfl⟩, rfl⟩ := h
  rfl

/-- A process that runs for one user, without capabilities. -/
structure Dropped (uid gid : UInt32) (groups : List UInt32) (c : Creds C X) : Prop where
  uid : c.uid = .all uid
  gid : c.gid = .all gid
  groups : c.groups = groups
  permitted : c.permitted = ⊥

section
variable {uid gid : UInt32} {groups : List UInt32}

omit [DecidableLE C] in
theorem Dropped.not_effective (h : Dropped uid gid groups c) {capability : C}
    (some : ¬ capability ≤ ⊥) : ¬ capability ≤ c.effective := by
  intro effective
  have nothing : c.effective ≤ ⊥ := by
    rw [← h.permitted]
    exact c.usable
  exact some (effective.trans nothing)

/-- Nothing that a process without capabilities does changes whom it runs for. -/
theorem Dropped.call (h : Dropped uid gid groups c) (does : c.call k l = some d)
    (harmless : l.Harmless c) : Dropped uid gid groups d := by
  have permitted : d.permitted = ⊥ := by
    have less := Creds.call_permitted_le does harmless
    rw [h.permitted] at less
    exact le_bot_iff.mp less
  cases Creds.call_called does with
  | setresuid allowed =>
    rcases allowed with may | own
    · exact absurd may (h.not_effective k.setuid_some)
    · rw [h.uid] at own
      exact ⟨Ids.within_all own, h.gid, h.groups, permitted⟩
  | setresgid allowed =>
    rcases allowed with may | own
    · exact absurd may (h.not_effective k.setgid_some)
    · rw [h.gid] at own
      exact ⟨h.uid, Ids.within_all own, h.groups, permitted⟩
  | setgroups may => exact absurd may (h.not_effective k.setgid_some)
  | keepCaps | noNewPrivs | setcon | capset _ _ _ => exact ⟨h.uid, h.gid, h.groups, permitted⟩
  | execve =>
    rcases harmless with none | other
    · refine ⟨?_, ?_, h.groups, permitted⟩
      · simp [Creds.execve, Creds.execveIds, none, h.uid, Ids.all]
      · simp [Creds.execve, Creds.execveIds, none, h.gid, Ids.all]
    · exact absurd rfl (other _)

/-- **A process without capabilities stays as it is**, whatever it calls. -/
theorem Dropped.forever (first : Dropped uid gid groups c)
    (run : Run.Reachable (fun c l d => Creds.call k c l = some d) c
      (fun c (l : Call C X) => l.Harmless c) d) : Dropped uid gid groups d :=
  run.invariant (Dropped uid gid groups) first fun _ _ _ _ dropped harmless does =>
    dropped.call does harmless

end

end

/-! ## Programs -/

/-- A call, and whether its failure ends the process. -/
structure Step (C X : Type) where
  call : Call C X
  checked : Bool

/-- One step. `refused`: the call fails for a reason of its own. -/
def Step.run (k : Kernel C) (s : Step C X) (refused : Bool) (c : Creds C X) :
    Option (Creds C X) :=
  match if refused then none else c.call k s.call with
  | some d => some d
  | none => if s.checked then none else some c

/-- A process with `c` gets through the steps, and then has `d`. The kernel may
refuse any call by its rules, and a `denied` one for other reasons. -/
inductive Passes (k : Kernel C) (denied : Call C X → Prop) :
    List (Step C X) → Creds C X → Creds C X → Prop where
  | done (c) : Passes k denied [] c c
  | made {s rest c d e} : c.call k s.call = some d → Passes k denied rest d e →
      Passes k denied (s :: rest) c e
  | ignored {s rest c e} : s.checked = false → denied s.call ∨ c.call k s.call = none →
      Passes k denied rest c e → Passes k denied (s :: rest) c e

section
variable {k : Kernel C} {denied : Call C X → Prop} {c d e : Creds C X} {s : Step C X}
  {steps rest : List (Step C X)}

theorem Passes.checked (h : Passes k denied (s :: rest) c e) (checked : s.checked = true) :
    ∃ d, c.call k s.call = some d ∧ Passes k denied rest d e := by
  cases h with
  | made does later => exact ⟨_, does, later⟩
  | ignored unchecked _ _ =>
    rw [checked] at unchecked
    cases unchecked

theorem Passes.either (h : Passes k denied (s :: rest) c e) :
    (∃ d, c.call k s.call = some d ∧ Passes k denied rest d e) ∨
      ((denied s.call ∨ c.call k s.call = none) ∧ Passes k denied rest c e) := by
  cases h with
  | made does later => exact .inl ⟨_, does, later⟩
  | ignored _ why later => exact .inr ⟨why, later⟩

theorem Passes.nil (h : Passes k denied [] c e) : e = c := by
  cases h
  rfl

theorem Passes.append (h : Passes k denied steps c d) (later : Passes k denied rest d e) :
    Passes k denied (steps ++ rest) c e := by
  induction h with
  | done c => exact later
  | made does _ ih => exact .made does (ih later)
  | ignored unchecked why _ ih => exact .ignored unchecked why (ih later)

theorem Step.run_passes {refused : Bool} (may : refused = true → denied s.call)
    (h : s.run k refused c = some d) : Passes k denied [s] c d := by
  unfold run at h
  cases refused with
  | true =>
    obtain ⟨unchecked, same⟩ := Option.ite_none_left_eq_some.mp h
    cases same
    exact .ignored (by simpa using unchecked) (.inl (may rfl)) (.done _)
  | false =>
    cases called : c.call k s.call with
    | some d' =>
      simp only [Bool.false_eq_true, if_false, called, Option.some.injEq] at h
      subst h
      exact .made called (.done _)
    | none =>
      simp only [Bool.false_eq_true, if_false, called] at h
      obtain ⟨unchecked, same⟩ := Option.ite_none_left_eq_some.mp h
      cases same
      exact .ignored (by simpa using unchecked) (.inr called) (.done _)

end

end

end Credentials
