import Mathlib.Data.Finset.Lattice.Basic
import Mathlib.Data.Fintype.Basic
import Xposed.Lib.Credentials
import Xposed.Libc

/-!
# The privileges of the services

What the processes that are forked for the services and for the log do to their
credentials before they start to work: `switchToXposedInstallerUidGid`,
`dropCapabilities` and `setcon`, in the order and with the checks of each of them.
-/

namespace Xposed.Services

open Credentials

/-! ## The words of `capset` -/

/-- The members `permitted` of the two structures in `cap`. -/
structure CapWords where
  first : UInt32
  second : UInt32
  deriving DecidableEq

def CAP_TO_INDEX (x : Int8) : Nat := x.toInt.toNat / 32

def CAP_TO_MASK (x : Int8) : UInt32 := 1 <<< UInt32.ofNat (x.toInt.toNat % 32)

/-- The loop over `keep`. `none`: it reads behind the end of `keep`, or writes
behind the end of `cap`. -/
def keepAll : List Int8 → CapWords → Option CapWords
  | [], _ => none
  | x :: rest, cap =>
    if x < 0 then some cap
    else if CAP_TO_INDEX x = 0 then keepAll rest { cap with first := cap.first ||| CAP_TO_MASK x }
    else if CAP_TO_INDEX x = 1 then keepAll rest { cap with second := cap.second ||| CAP_TO_MASK x }
    else none

/-- The capabilities by their numbers. -/
abbrev Caps := Finset (Fin 64)

/-- What the kernel reads in the words. -/
def CapWords.caps (cap : CapWords) : Caps :=
  Finset.univ.filter fun c =>
    if c.val < 32 then cap.first.toNat.testBit c else cap.second.toNat.testBit (c - 32)

/-- What `dropCapabilities` asks for, `keep` being `none` for `NULL`. -/
def capsKept (keep : Option (List Int8)) : Option Caps :=
  match keep with
  | none => some (CapWords.caps ⟨0, 0⟩)
  | some keep => (keepAll keep ⟨0, 0⟩).map CapWords.caps

theorem mem_caps {cap : CapWords} {c : Fin 64} : c ∈ cap.caps ↔
    (if c.val < 32 then cap.first.toNat.testBit c else cap.second.toNat.testBit (c - 32)) = true := by
  simp [CapWords.caps]

theorem caps_zero : CapWords.caps ⟨0, 0⟩ = ⊥ := by
  ext c
  rw [mem_caps]
  simp

theorem toNat_mask (x : Int8) : (CAP_TO_MASK x).toNat = 2 ^ (x.toInt.toNat % 32) := by
  have small : x.toInt.toNat % 32 < 32 := Nat.mod_lt _ (by decide)
  have power : 2 ^ (x.toInt.toNat % 32) < 2 ^ 32 := Nat.pow_lt_pow_right (by decide) small
  have shift : (UInt32.ofNat (x.toInt.toNat % 32)).toNat = x.toInt.toNat % 32 := by
    rw [UInt32.toNat_ofNat']
    omega
  rw [CAP_TO_MASK, UInt32.toNat_shiftLeft, shift, Nat.mod_eq_of_lt small, Nat.shiftLeft_eq]
  exact (congrArg (· % 2 ^ 32) (Nat.one_mul _)).trans (Nat.mod_eq_of_lt power)

theorem testBit_mask (word : UInt32) (x : Int8) (i : Nat) :
    (word ||| CAP_TO_MASK x).toNat.testBit i =
      (word.toNat.testBit i || decide (x.toInt.toNat % 32 = i)) := by
  rw [UInt32.toNat_or, toNat_mask, Nat.testBit_or, Nat.testBit_two_pow]

/-- The capability with the number `x`. -/
def IsCap (x : Int8) (c : Fin 64) : Prop := x.toInt = c.val

instance (x : Int8) (c : Fin 64) : Decidable (IsCap x c) :=
  inferInstanceAs (Decidable (x.toInt = c.val))

theorem mem_caps_first {cap : CapWords} {x : Int8} (some : 0 ≤ x.toInt) (low : CAP_TO_INDEX x = 0)
    (c : Fin 64) : c ∈ CapWords.caps { cap with first := cap.first ||| CAP_TO_MASK x } ↔
      c ∈ cap.caps ∨ IsCap x c := by
  have range := c.isLt
  unfold CAP_TO_INDEX at low
  rw [mem_caps, mem_caps, IsCap]
  split
  · rw [testBit_mask, Bool.or_eq_true, decide_eq_true_eq]
    refine or_congr_right ?_
    omega
  · refine (or_iff_left ?_).symm
    omega

theorem mem_caps_second {cap : CapWords} {x : Int8} (some : 0 ≤ x.toInt) (high : CAP_TO_INDEX x = 1)
    (c : Fin 64) : c ∈ CapWords.caps { cap with second := cap.second ||| CAP_TO_MASK x } ↔
      c ∈ cap.caps ∨ IsCap x c := by
  have range := c.isLt
  unfold CAP_TO_INDEX at high
  rw [mem_caps, mem_caps, IsCap]
  split
  · refine (or_iff_left ?_).symm
    omega
  · rw [testBit_mask, Bool.or_eq_true, decide_eq_true_eq]
    refine or_congr_right ?_
    omega

theorem not_neg_iff {x : Int8} : ¬ x < 0 ↔ 0 ≤ x.toInt := by
  rw [Int8.lt_iff_toInt_lt]
  exact Int.not_lt

/-- The words hold what they held, and each of `keep` up to its end. -/
theorem keepAll_small {keep : List Int8} (some : ∀ x ∈ keep, 0 ≤ x.toInt) {last : Int8}
    (ends : last < 0) (rest : List Int8) (small : ∀ x ∈ keep, x.toInt < 64) (cap : CapWords) :
    ∃ cap', keepAll (keep ++ last :: rest) cap = .some cap' ∧
      ∀ c, c ∈ cap'.caps ↔ c ∈ cap.caps ∨ ∃ x ∈ keep, IsCap x c := by
  induction keep generalizing cap with
  | nil => exact ⟨cap, by simp [keepAll, ends], by simp⟩
  | cons x keep ih =>
    obtain ⟨first, some⟩ := List.forall_mem_cons.mp some
    obtain ⟨below, small⟩ := List.forall_mem_cons.mp small
    have later := ih some small
    rw [List.cons_append, keepAll, if_neg (not_neg_iff.mpr first)]
    simp only [List.exists_mem_cons_iff, ← or_assoc]
    by_cases low : CAP_TO_INDEX x = 0
    · obtain ⟨cap', made, mem⟩ := later { cap with first := cap.first ||| CAP_TO_MASK x }
      simp only [mem_caps_first first low] at mem
      exact ⟨cap', by rw [if_pos low, made], mem⟩
    · have high : CAP_TO_INDEX x = 1 := by
        unfold CAP_TO_INDEX at low ⊢
        omega
      obtain ⟨cap', made, mem⟩ := later { cap with second := cap.second ||| CAP_TO_MASK x }
      simp only [mem_caps_second first high] at mem
      exact ⟨cap', by rw [if_neg low, if_pos high, made], mem⟩

theorem keepAll_large {keep : List Int8} (some : ∀ x ∈ keep, 0 ≤ x.toInt) (rest : List Int8)
    (large : ¬ ∀ x ∈ keep, x.toInt < 64) (cap : CapWords) : keepAll (keep ++ rest) cap = none := by
  induction keep generalizing cap with
  | nil => exact absurd nofun large
  | cons x keep ih =>
    obtain ⟨first, some⟩ := List.forall_mem_cons.mp some
    rw [List.cons_append, keepAll, if_neg (not_neg_iff.mpr first)]
    by_cases below : x.toInt < 64
    · have later := ih some fun small => large (List.forall_mem_cons.mpr ⟨below, small⟩)
      rw [later, later]
      split
      · rfl
      · split <;> rfl
    · have low : CAP_TO_INDEX x ≠ 0 := by
        unfold CAP_TO_INDEX
        omega
      have high : CAP_TO_INDEX x ≠ 1 := by
        unfold CAP_TO_INDEX
        omega
      rw [if_neg low, if_neg high]

theorem keepAll_endless {keep : List Int8} (endless : ∀ x ∈ keep, ¬ x < 0) (cap : CapWords) :
    keepAll keep cap = none := by
  induction keep generalizing cap with
  | nil => rfl
  | cons x keep ih =>
    have later := ih fun y member => endless y (List.mem_cons_of_mem x member)
    rw [keepAll, if_neg (endless x List.mem_cons_self), later, later]
    split
    · rfl
    · split <;> rfl

/-- The numbers in `keep` that count. -/
def kept (keep : List Int8) : List Int8 := keep.takeWhile fun x => !decide (x < 0)

theorem not_neg_of_mem_kept {keep : List Int8} {x : Int8} (h : x ∈ kept keep) : ¬ x < 0 := by
  have passes := List.all_eq_true.mp List.all_takeWhile x h
  simpa using passes

theorem kept_append {keep : List Int8} (ends : ∃ x ∈ keep, x < 0) :
    ∃ last rest, last < 0 ∧ keep = kept keep ++ last :: rest := by
  have whole : kept keep ++ keep.dropWhile (fun x => !decide (x < 0)) = keep :=
    List.takeWhile_append_dropWhile
  cases left : keep.dropWhile (fun x => !decide (x < 0)) with
  | nil =>
    obtain ⟨x, member, negative⟩ := ends
    rw [left, List.append_nil] at whole
    rw [← whole] at member
    exact absurd negative (not_neg_of_mem_kept member)
  | cons last rest =>
    have stops := List.head?_dropWhile_not (fun x => !decide (x < 0)) keep
    rw [left] at stops whole
    exact ⟨last, rest, by simpa using stops, whole.symm⟩

/-- The words are made if no number reaches behind them before the first
negative one, and hold the capabilities up to there. -/
theorem capsKept_iff (keep : List Int8) (caps : Caps) : capsKept (.some keep) = .some caps ↔
    (∃ x ∈ keep, x < 0) ∧ (∀ x ∈ kept keep, x.toInt < 64) ∧
      ∀ c, c ∈ caps ↔ ∃ x ∈ kept keep, IsCap x c := by
  by_cases ends : ∃ x ∈ keep, x < 0
  · obtain ⟨last, rest, negative, whole⟩ := kept_append ends
    have signs : ∀ x ∈ kept keep, 0 ≤ x.toInt := fun x member =>
      not_neg_iff.mp (not_neg_of_mem_kept member)
    rw [capsKept, and_iff_right ends]
    by_cases small : ∀ x ∈ kept keep, x.toInt < 64
    · obtain ⟨cap, made, mem⟩ := keepAll_small signs negative rest small ⟨0, 0⟩
      rw [← whole] at made
      simp only [caps_zero, Finset.bot_eq_empty, Finset.notMem_empty, false_or] at mem
      rw [made, Option.map_some, Option.some.injEq, and_iff_right small]
      constructor
      · rintro rfl
        exact mem
      · intro h
        exact Finset.ext fun c => (mem c).trans (h c).symm
    · have outside := keepAll_large signs (last :: rest) small ⟨0, 0⟩
      rw [← whole] at outside
      rw [outside, Option.map_none]
      exact iff_of_false (by simp) fun both => small both.1
  · have endless : ∀ x ∈ keep, ¬ x < 0 := fun x member negative => ends ⟨x, member, negative⟩
    rw [capsKept, keepAll_endless endless, Option.map_none]
    exact iff_of_false (by simp) fun all => ends all.1

/-! ## What the services do first -/

inductive Context where
  | zygote
  | ctx_system
  | ctx_app
  deriving DecidableEq

abbrev Does := Step Caps Context

abbrev Process := Creds Caps Context

/-- What the services read of `xposed`. -/
structure XposedShared where
  isSELinuxEnabled : Bool
  installer_uid : UInt32
  installer_gid : UInt32

def switchToXposedInstallerUidGid (xposed : XposedShared) : List Does :=
  [⟨.setresgid (.all xposed.installer_gid), true⟩, ⟨.setresuid (.all xposed.installer_uid), true⟩]

/-- Nobody looks at the result of `capset`. -/
def dropCapabilities (keep : Option (List Int8)) : Option (List Does) :=
  (capsKept keep).map fun caps => [⟨.capset ⟨caps, caps, caps⟩, false⟩]

def switchContext (xposed : XposedShared) (context : Context) : List Does :=
  if xposed.isSELinuxEnabled then [⟨.setcon context, true⟩] else []

/-- Up to `defaultServiceManager`. -/
def systemService (xposed : XposedShared) : Option (List Does) := do
  let drop ← dropCapabilities none
  return drop ++ switchContext xposed .ctx_system

def appService (xposed : XposedShared) : Option (List Does) := do
  let drop ← dropCapabilities none
  return switchToXposedInstallerUidGid xposed ++ drop ++ switchContext xposed .ctx_app

/-- The child of `startMembased`, which there is with SELinux only. -/
def membasedService (xposed : XposedShared) : Option (List Does) := do
  let drop ← dropCapabilities none
  return switchToXposedInstallerUidGid xposed ++ drop ++ [⟨.setcon .ctx_app, true⟩]

theorem setuid_some : ¬ ({7} : Caps) ≤ ⊥ := by decide

theorem setgid_some : ¬ ({6} : Caps) ≤ ⊥ := by decide

/-- What `determineXposedInstallerUidGid` gets, from its child if it forks one:
`stat` is the owner of `XPOSED_DIR` and its group. -/
structure Lookup where
  mmap : Bool
  fork : Bool
  setcon : Bool
  stat : Option (UInt32 × UInt32)
  killed : Bool
  waitpid : Bool

/-- What the child leaves in the shared page, if it exits with success. -/
def Lookup.child (e : Lookup) : Option (UInt32 × UInt32) :=
  if e.setcon && !e.killed then e.stat else none

def determineXposedInstallerUidGid (e : Lookup) (xposed : XposedShared) : Bool × XposedShared :=
  let st :=
    if xposed.isSELinuxEnabled then if e.mmap && e.fork && e.waitpid then e.child else none
    else e.stat
  match st with
  | none => (false, xposed)
  | some (st_uid, st_gid) =>
    (true, { xposed with installer_uid := st_uid, installer_gid := st_gid })

theorem Lookup.child_some {e : Lookup} {st : UInt32 × UInt32} (h : e.child = some st) :
    e.stat = some st :=
  (Option.ite_none_right_eq_some.mp h).2

/-- The installer is the owner of `XPOSED_DIR`, or the services are not started. -/
theorem determine_owner {e : Lookup} {xposed found : XposedShared}
    (h : determineXposedInstallerUidGid e xposed = (true, found)) :
    e.stat = some (found.installer_uid, found.installer_gid) := by
  unfold determineXposedInstallerUidGid at h
  dsimp only at h
  split at h
  · cases h
  · rename_i st_uid st_gid got
    cases h
    split at got
    · exact Lookup.child_some (Option.ite_none_right_eq_some.mp got).2
    · exact got

/-- `CAP_SETUID` and `CAP_SETGID` -/
def linux : Kernel Caps := ⟨{7}, {6}, setuid_some, setgid_some⟩

/-- A process that holds just `caps`. -/
def holding (caps : Caps) (c : Process) : Process :=
  { c with permitted := caps, effective := caps, inheritable := caps, usable := le_rfl }

theorem capset_made {caps : Caps} {c : Process} (less : caps ≤ c.permitted) :
    c.call linux (.capset ⟨caps, caps, caps⟩) = some (holding caps c) := by
  have allowed : caps ≤ caps ∧ caps ≤ c.permitted ∧ caps ≤ c.inheritable ⊔ c.permitted :=
    ⟨le_rfl, less, less.trans le_sup_right⟩
  exact dif_pos allowed

theorem capset_refused {caps : Caps} {c : Process} (lacks : ¬ caps ≤ c.permitted) :
    c.call linux (.capset ⟨caps, caps, caps⟩) = none :=
  dif_neg fun allowed => lacks allowed.2.1

theorem dropCapabilities_null : dropCapabilities none = some [⟨.capset ⟨⊥, ⊥, ⊥⟩, false⟩] := by
  rw [dropCapabilities, capsKept, Option.map_some, caps_zero]

section
variable {xposed : XposedShared} {denied : Call Caps Context → Prop} {c d e : Process}
  {rest : List Does}

/-- A process behind `switchToXposedInstallerUidGid`. -/
def switched (xposed : XposedShared) (c : Process) : Process :=
  { c with
    uid := .all xposed.installer_uid
    gid := .all xposed.installer_gid
    permitted := c.permittedFor (.all xposed.installer_uid)
    effective := c.effectiveFor (.all xposed.installer_uid)
    usable := c.usableFor (.all xposed.installer_uid) }

theorem switched_passes
    (h : Passes linux denied (switchToXposedInstallerUidGid xposed ++ rest) c e) :
    Passes linux denied rest (switched xposed c) e := by
  obtain ⟨d, does, h⟩ := h.checked rfl
  cases Creds.call_called does with
  | setresgid _ =>
    obtain ⟨d, does, h⟩ := h.checked rfl
    cases Creds.call_called does with
    | setresuid _ => exact h

/-- Nothing may keep a process from giving up its capabilities, but for what is
`denied`. -/
theorem dropped_passes (h : Passes linux denied (⟨.capset ⟨⊥, ⊥, ⊥⟩, false⟩ :: rest) c e) :
    (∃ d : Process, d.permitted = ⊥ ∧ d.uid = c.uid ∧ d.gid = c.gid ∧ d.groups = c.groups ∧
        Passes linux denied rest d e) ∨
      (denied (.capset ⟨⊥, ⊥, ⊥⟩) ∧ Passes linux denied rest c e) := by
  rcases h.either with ⟨d, does, later⟩ | ⟨why, later⟩
  · cases Creds.call_called does with
    | capset _ _ _ => refine .inl ⟨_, ?_, ?_, ?_, ?_, later⟩ <;> rfl
  · refine .inr ⟨why.resolve_right fun refused => ?_, later⟩
    cases (capset_made (c := c) bot_le).symm.trans refused

/-- The process that the services are forked from. -/
structure Zygote (c : Process) : Prop where
  uid : c.uid = .all 0
  gid : c.gid = .all 0
  setuid : linux.CAP_SETUID ≤ c.effective
  setgid : linux.CAP_SETGID ≤ c.effective
  keepCaps : c.keepCaps = false

theorem Zygote.permitted_some (h : Zygote c) : c.permitted ≠ ⊥ := by
  intro nothing
  have all : linux.CAP_SETUID ≤ c.permitted := h.setuid.trans c.usable
  rw [nothing] at all
  exact linux.setuid_some all

theorem Zygote.switched (h : Zygote c) (user : xposed.installer_uid ≠ 0) :
    Dropped xposed.installer_uid xposed.installer_gid c.groups (switched xposed c) := by
  refine ⟨rfl, rfl, rfl, ?_⟩
  have other : (Ids.all xposed.installer_uid).has 0 = false := by simp [Ids.all, Ids.has, user]
  have gone : c.permittedFor (.all xposed.installer_uid) = ⊥ := by
    simp only [Creds.permittedFor, h.uid, h.keepCaps, other]
    rfl
  exact gone

/-- A process with the capabilities for it may switch. -/
theorem switch_passes (setuid : linux.CAP_SETUID ≤ c.effective)
    (setgid : linux.CAP_SETGID ≤ c.effective)
    (later : Passes linux denied rest (switched xposed c) e) :
    Passes linux denied (switchToXposedInstallerUidGid xposed ++ rest) c e :=
  .made (if_pos (.inl setgid)) (.made (if_pos (.inl setuid)) later)

theorem switchContext_passes {context : Context} :
    Passes linux denied (switchContext xposed context) c e ↔
      e = if xposed.isSELinuxEnabled then { c with context } else c := by
  unfold switchContext
  split
  · constructor
    · intro h
      obtain ⟨d, does, last⟩ := h.checked rfl
      cases does
      exact last.nil
    · rintro rfl
      exact .made rfl (.done _)
  · constructor
    · exact Passes.nil
    · rintro rfl
      exact .done _

/-- **`dropCapabilities` keeps the capabilities it is given and no others**,
unless the kernel refuses: as it does if the process lacks one of them. It leaves
its arrays if a number before the first negative one is too large, or none is
negative. -/
theorem dropCapabilities_keeps (keep : List Int8) (denied : Call Caps Context → Prop)
    (c d : Process) :
    (∃ steps, dropCapabilities (some keep) = some steps ∧ Passes linux denied steps c d) ↔
      (∃ x ∈ keep, x < 0) ∧ (∀ x ∈ kept keep, x.toInt < 64) ∧
        ∃ caps : Caps, (∀ n, n ∈ caps ↔ ∃ x ∈ kept keep, IsCap x n) ∧
          ((caps ≤ c.permitted ∧ d = holding caps c) ∨
            ((denied (.capset ⟨caps, caps, caps⟩) ∨ ¬ caps ≤ c.permitted) ∧ d = c)) := by
  constructor
  · rintro ⟨steps, made, passes⟩
    obtain ⟨caps, words, rfl⟩ := Option.map_eq_some_iff.mp made
    obtain ⟨ends, small, mem⟩ := (capsKept_iff keep caps).mp words
    refine ⟨ends, small, caps, mem, ?_⟩
    rcases passes.either with ⟨b, does, later⟩ | ⟨why, later⟩
    · by_cases less : caps ≤ c.permitted
      · have same : holding caps c = b := Option.some.inj ((capset_made less).symm.trans does)
        exact .inl ⟨less, later.nil.trans same.symm⟩
      · cases (capset_refused less).symm.trans does
    · refine .inr ⟨why.imp_right fun refused less => ?_, later.nil⟩
      cases (capset_made less).symm.trans refused
  · rintro ⟨ends, small, caps, mem, does⟩
    have words := (capsKept_iff keep caps).mpr ⟨ends, small, mem⟩
    refine ⟨_, Option.map_eq_some_iff.mpr ⟨caps, words, rfl⟩, ?_⟩
    rcases does with ⟨less, rfl⟩ | ⟨why, rfl⟩
    · exact .made (capset_made less) (.done _)
    · exact .ignored rfl (why.imp_right capset_refused) (.done _)

/-! ## The services -/

inductive Service where
  | systemService
  | appService
  | startMembased
  deriving DecidableEq

def Service.steps (xposed : XposedShared) : Service → Option (List Does)
  | .systemService => Services.systemService xposed
  | .appService => Services.appService xposed
  | .startMembased => membasedService xposed

/-- The user that the service is to run for. -/
def Service.uid (xposed : XposedShared) : Service → UInt32
  | .systemService => 0
  | .appService | .startMembased => xposed.installer_uid

def Service.gid (xposed : XposedShared) : Service → UInt32
  | .systemService => 0
  | .appService | .startMembased => xposed.installer_gid

def Service.switch (xposed : XposedShared) : Service → List Does
  | .systemService => []
  | .appService | .startMembased => switchToXposedInstallerUidGid xposed

def Service.setcon (xposed : XposedShared) : Service → List Does
  | .systemService => switchContext xposed .ctx_system
  | .appService => switchContext xposed .ctx_app
  | .startMembased => [⟨.setcon .ctx_app, true⟩]

theorem Service.steps_eq (s : Service) : s.steps xposed =
    some (s.switch xposed ++ ⟨.capset ⟨⊥, ⊥, ⊥⟩, false⟩ :: s.setcon xposed) := by
  cases s <;>
    simp [steps, Services.systemService, Services.appService, membasedService,
      dropCapabilities_null, switch, setcon]

/-- A process with `c` that starts as the service comes to work with `d`. -/
def Service.Starts (s : Service) (xposed : XposedShared) (denied : Call Caps Context → Prop)
    (c d : Process) : Prop :=
  ∃ steps, s.steps xposed = some steps ∧ Passes linux denied steps c d

/-- What a process may be later, without gaining anything by `execve`. -/
def Later (c d : Process) : Prop :=
  Run.Reachable (fun c l d => Creds.call linux c l = some d) c (fun c l => l.Harmless c) d

theorem Service.starts_iff (s : Service) : s.Starts xposed denied c d ↔
    Passes linux denied (s.switch xposed ++ ⟨.capset ⟨⊥, ⊥, ⊥⟩, false⟩ :: s.setcon xposed) c d := by
  simp [Starts, s.steps_eq]

def Service.context : Service → Context
  | .systemService => .ctx_system
  | .appService | .startMembased => .ctx_app

def Service.switchesContext (xposed : XposedShared) : Service → Bool
  | .systemService | .appService => xposed.isSELinuxEnabled
  | .startMembased => true

theorem Service.setcon_passes (s : Service) : Passes linux denied (s.setcon xposed) c e ↔
    e = if s.switchesContext xposed then { c with context := s.context } else c := by
  cases s with
  | systemService | appService => exact switchContext_passes
  | startMembased =>
    have enabled : switchContext ⟨true, 0, 0⟩ .ctx_app = [⟨.setcon .ctx_app, true⟩] := rfl
    exact (enabled ▸ switchContext_passes :)

/-- Behind the switch the process has the ids of the service. -/
theorem Service.switch_passes (s : Service) (zygote : Zygote c)
    (h : Passes linux denied (s.switch xposed ++ rest) c e) :
    ∃ d : Process, d.uid = .all (s.uid xposed) ∧ d.gid = .all (s.gid xposed) ∧ d.groups = c.groups ∧
      (s.uid xposed ≠ 0 → d.permitted = ⊥) ∧ Passes linux denied rest d e := by
  cases s with
  | systemService => exact ⟨c, zygote.uid, zygote.gid, rfl, fun user => absurd rfl user, h⟩
  | appService | startMembased =>
    exact ⟨switched xposed c, rfl, rfl, rfl, fun user => (zygote.switched user).permitted,
      switched_passes h⟩

/-- What a service is when it begins to work. -/
structure Service.Works (s : Service) (xposed : XposedShared) (denied : Call Caps Context → Prop)
    (c d : Process) : Prop where
  uid : d.uid = .all (s.uid xposed)
  gid : d.gid = .all (s.gid xposed)
  groups : d.groups = c.groups
  permitted : d.permitted = ⊥ ∨ (s.uid xposed = 0 ∧ denied (.capset ⟨⊥, ⊥, ⊥⟩))
  context : s.switchesContext xposed = true → d.context = s.context

theorem Service.Starts.works {s : Service} (zygote : Zygote c) (h : s.Starts xposed denied c d) :
    s.Works xposed denied c d := by
  obtain ⟨b, uid, gid, groups, unprivileged, passes⟩ :=
    s.switch_passes zygote ((Service.starts_iff s).mp h)
  rcases dropped_passes passes with ⟨a, nothing, uid', gid', groups', passes⟩ | ⟨refused, passes⟩
  · rw [s.setcon_passes.mp passes]
    split
    · exact ⟨uid'.trans uid, gid'.trans gid, groups'.trans groups, .inl nothing, fun _ => rfl⟩
    · rename_i stays
      exact ⟨uid'.trans uid, gid'.trans gid, groups'.trans groups, .inl nothing,
        fun switches => absurd switches stays⟩
  · have permitted : b.permitted = ⊥ ∨ (s.uid xposed = 0 ∧ denied (.capset ⟨⊥, ⊥, ⊥⟩)) := by
      by_cases root : s.uid xposed = 0
      · exact .inr ⟨root, refused⟩
      · exact .inl (unprivileged root)
    rw [s.setcon_passes.mp passes]
    split
    · exact ⟨uid, gid, groups, permitted, fun _ => rfl⟩
    · rename_i stays
      exact ⟨uid, gid, groups, permitted, fun switches => absurd switches stays⟩

/-- A root process that may keep its capabilities does. -/
theorem Service.starts_privileged (s : Service) (zygote : Zygote c) (root : s.uid xposed = 0)
    (refused : denied (.capset ⟨⊥, ⊥, ⊥⟩)) :
    ∃ d, s.Starts xposed denied c d ∧ d.permitted = c.permitted := by
  have stays : ∀ b : Process, b.permitted = c.permitted →
      ∃ d, Passes linux denied (⟨.capset ⟨⊥, ⊥, ⊥⟩, false⟩ :: s.setcon xposed) b d ∧
        d.permitted = c.permitted := by
    intro b same
    refine ⟨_, .ignored rfl (.inl refused) (s.setcon_passes.mpr rfl), ?_⟩
    split <;> exact same
  cases s with
  | systemService =>
    obtain ⟨d, passes, same⟩ := stays c rfl
    exact ⟨d, (Service.starts_iff _).mpr passes, same⟩
  | appService | startMembased =>
    have kept : (switched xposed c).permitted = c.permitted := by
      have user : xposed.installer_uid = 0 := root
      simp [switched, Creds.permittedFor, user, Ids.all, Ids.has]
    obtain ⟨d, passes, same⟩ := stays _ kept
    have starts := Services.switch_passes zygote.setuid zygote.setgid passes
    exact ⟨d, (Service.starts_iff _).mpr starts, same⟩

/-- **A service runs without capabilities** and for its user, now and later, up to
an `execve` without `no_new_privs`, if that user is not root or the kernel has
nothing against giving them up; and only then. -/
theorem services_dropped_iff (s : Service) (xposed : XposedShared)
    (denied : Call Caps Context → Prop) (c : Process) (zygote : Zygote c) :
    (∀ d, s.Starts xposed denied c d → ∀ e, Later d e →
      Dropped (s.uid xposed) (s.gid xposed) c.groups e) ↔
      s.uid xposed ≠ 0 ∨ ¬ denied (.capset ⟨⊥, ⊥, ⊥⟩) := by
  constructor
  · intro dropped
    by_contra bad
    obtain ⟨root, refused⟩ := not_or.mp bad
    obtain ⟨d, starts, same⟩ := s.starts_privileged zygote (not_not.mp root) (not_not.mp refused)
    exact zygote.permitted_some (same.symm.trans (dropped d starts d .start).permitted)
  · intro safe d starts e later
    have works := starts.works zygote
    have nothing : d.permitted = ⊥ := by
      refine works.permitted.resolve_right ?_
      rintro ⟨root, refused⟩
      rcases safe with user | allowed
      · exact user root
      · exact allowed refused
    have dropped : Dropped (s.uid xposed) (s.gid xposed) c.groups d :=
      ⟨works.uid, works.gid, works.groups, nothing⟩
    exact dropped.forever later

end

/-- As `init` starts it. -/
def zygote : Process where
  uid := .all 0
  gid := .all 0
  groups := []
  permitted := Finset.univ
  effective := Finset.univ
  inheritable := ∅
  bounding := Finset.univ
  keepCaps := false
  noNewPrivs := true
  context := .zygote
  usable := le_rfl

theorem zygote_starts : Zygote zygote :=
  ⟨rfl, rfl, Finset.subset_univ _, Finset.subset_univ _, rfl⟩

/-- The app service of `zygote`: the kernel may refuse every call and refuses none. -/
theorem app_service_dropped : ∃ d, Service.appService.Starts ⟨true, 10001, 10001⟩ (fun _ => True)
    zygote d ∧ Dropped 10001 10001 zygote.groups d := by
  have steps : Passes linux (fun _ => True) (Service.appService.switch ⟨true, 10001, 10001⟩ ++
      ⟨.capset ⟨⊥, ⊥, ⊥⟩, false⟩ :: Service.appService.setcon ⟨true, 10001, 10001⟩) zygote _ :=
    switch_passes zygote_starts.setuid zygote_starts.setgid
      (.made (capset_made bot_le) (.made rfl (.done _)))
  have starts := (Service.starts_iff _).mpr steps
  have dropped := (services_dropped_iff .appService ⟨true, 10001, 10001⟩ (fun _ => True) zygote
    zygote_starts).mpr (.inl (by decide))
  exact ⟨_, starts, dropped _ starts _ .start⟩

end Xposed.Services
