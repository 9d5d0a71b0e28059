import Xposed.Lib.Descriptors
import Xposed.Lib.ForkTree
import Xposed.Services.Privileges

/-!
# Starting logcat

`xposed_logcat.cpp`: what the process that `start` forks, the daemon, and the
logcat that it forks in turn have of privileges and of the pipe between them,
and which files the daemons of many starts write to.
-/

namespace Xposed.Logcat

open Credentials
open Services
open Descriptors (Table)

/-! ## Privileges -/

def AID_LOG : UInt32 := 1007
/-- The credentials in `start`. Only the switches end the process when they fail. -/
def start (xposed : XposedShared) : List Does :=
  ⟨.keepCaps true, false⟩ :: ⟨.setgroups [AID_LOG], false⟩ ::
    (switchToXposedInstallerUidGid xposed ++ switchContext xposed .ctx_app)

/-- `runDaemon` -/
def daemon : Option (List Does) := dropCapabilities none

section
variable {xposed : XposedShared} {denied : Call Caps Context → Prop} {a b c d e : Process}
  {logcat : Program Caps}

theorem keepCaps_passes {rest : List Does} {keep : Bool}
    (h : Passes linux denied (⟨.keepCaps keep, false⟩ :: rest) c e) :
    ∃ d : Process, (d.groups = c.groups ∧ d.permitted = c.permitted ∧ d.inheritable = c.inheritable) ∧
      Passes linux denied rest d e := by
  rcases h.either with ⟨d, does, later⟩ | ⟨_, later⟩
  · cases does
    refine ⟨_, ⟨?_, ?_, ?_⟩, later⟩ <;> rfl
  · exact ⟨c, ⟨rfl, rfl, rfl⟩, later⟩

theorem setgroups_passes {rest : List Does} {groups : List UInt32}
    (h : Passes linux denied (⟨.setgroups groups, false⟩ :: rest) c e) :
    ∃ d : Process, ((d.groups = groups ∨ d.groups = c.groups) ∧ d.permitted = c.permitted ∧
      d.inheritable = c.inheritable) ∧ Passes linux denied rest d e := by
  rcases h.either with ⟨d, does, later⟩ | ⟨_, later⟩
  · cases Creds.call_called does with
    | setgroups _ => refine ⟨_, ⟨.inl ?_, ?_, ?_⟩, later⟩ <;> rfl
  · exact ⟨c, ⟨.inr rfl, rfl, rfl⟩, later⟩

/-- What the daemon and logcat are forked from. -/
structure Started (xposed : XposedShared) (c b : Process) : Prop where
  uid : b.uid = .all xposed.installer_uid
  gid : b.gid = .all xposed.installer_gid
  groups : b.groups = [AID_LOG] ∨ b.groups = c.groups
  permitted : b.permitted ≤ c.permitted
  inheritable : b.inheritable = c.inheritable

theorem start_started (h : Passes linux denied (start xposed) c b) : Started xposed c b := by
  obtain ⟨d, ⟨groups, permitted, inheritable⟩, h⟩ := keepCaps_passes h
  obtain ⟨e, ⟨groups', permitted', inheritable'⟩, h⟩ := setgroups_passes h
  have last := switchContext_passes.mp (switched_passes h)
  have less : (switched xposed e).permitted ≤ c.permitted := by
    have less := e.permittedFor_le (.all xposed.installer_uid)
    rwa [permitted', permitted] at less
  rw [groups] at groups'
  rw [last]
  split <;> exact ⟨rfl, rfl, groups', less, inheritable'.trans inheritable⟩

/-- As the daemon is when no call is refused. -/
def daemonOf (xposed : XposedShared) (c : Process) : Process :=
  let b := switched xposed { c with keepCaps := true, groups := [AID_LOG] }
  if xposed.isSELinuxEnabled then { b with context := .ctx_app } else b

theorem daemonOf_permitted (xposed : XposedShared) (c : Process) :
    (daemonOf xposed c).permitted = c.permitted := by
  have keeps : (switched xposed { c with keepCaps := true, groups := [AID_LOG] }).permitted =
      c.permitted := by
    simp [switched, Creds.permittedFor]
  unfold daemonOf
  dsimp only
  split <;> exact keeps

theorem start_allowed (zygote : Zygote c) :
    Passes linux denied (start xposed) c (daemonOf xposed c) := by
  have passes : Passes linux denied
      (switchToXposedInstallerUidGid xposed ++ switchContext xposed .ctx_app)
      { c with keepCaps := true, groups := [AID_LOG] } (daemonOf xposed c) :=
    switch_passes zygote.setuid zygote.setgid (switchContext_passes.mpr rfl)
  exact .made rfl (.made (if_pos zygote.setgid) passes)

/-- **The daemon runs without capabilities**, up to an `execve` without
`no_new_privs`, exactly if the kernel has nothing against giving them up: unlike
the services it has kept those of Zygote so far. -/
theorem daemon_dropped_iff (xposed : XposedShared) (denied : Call Caps Context → Prop) (c : Process)
    (zygote : Zygote c) :
    (∀ b steps d e, Passes linux denied (start xposed) c b → daemon = some steps →
      Passes linux denied steps b d → Later d e →
      Dropped xposed.installer_uid xposed.installer_gid b.groups e) ↔
      ¬ denied (.capset ⟨⊥, ⊥, ⊥⟩) := by
  constructor
  · intro dropped refused
    have stays := dropped (daemonOf xposed c) _ _ _ (start_allowed zygote) dropCapabilities_null
      (.ignored rfl (.inl refused) (.done _)) .start
    exact zygote.permitted_some ((daemonOf_permitted xposed c).symm.trans stays.permitted)
  · intro allowed b steps d e started drops runs later
    have first := start_started started
    cases dropCapabilities_null.symm.trans drops
    rcases dropped_passes runs with ⟨a, nothing, uid, gid, groups, last⟩ | ⟨refused, _⟩
    · rw [last.nil] at later
      have dropped : Dropped xposed.installer_uid xposed.installer_gid b.groups a :=
        ⟨uid.trans first.uid, gid.trans first.gid, groups, nothing⟩
      exact dropped.forever later
    · exact absurd refused allowed

end

def installer : XposedShared := ⟨true, 10001, 10001⟩

theorem daemon_dropped : ∃ b d, Passes linux (fun _ => False) (start installer) zygote b ∧
    Passes linux (fun _ => False) [⟨.capset ⟨⊥, ⊥, ⊥⟩, false⟩] b d ∧
    Dropped 10001 10001 b.groups d := by
  have started : Passes linux (fun _ => False) (start installer) zygote (daemonOf installer zygote) :=
    start_allowed zygote_starts
  have runs : Passes linux (fun _ => False) [⟨.capset ⟨⊥, ⊥, ⊥⟩, false⟩]
      (daemonOf installer zygote) (holding ⊥ (daemonOf installer zygote)) :=
    .made (capset_made bot_le) (.done _)
  have dropped := (daemon_dropped_iff installer (fun _ => False) zygote zygote_starts).mpr id
  exact ⟨_, _, started, runs, dropped _ _ _ _ started dropCapabilities_null runs .start⟩

/-! ## The pipe -/

def STDOUT_FILENO : Nat := 1
def STDERR_FILENO : Nat := 2

inductive Act (D : Type) where
  | openFile (d : D) (cloexec : Bool)
  | close (fd : Nat)
  | dup2 (old new : Nat)
  | setCloexec (fd : Nat) (cloexec : Bool)

def Act.run {D : Type} (t : Table D) : Act D → Table D
  | .openFile d cloexec => t.openFile d cloexec
  | .close fd => t.close fd
  | .dup2 old new => t.dup2 old new
  | .setCloexec fd cloexec => t.setCloexec fd cloexec

section
variable {D : Type}

/-- Processes that do with their descriptors what they want. -/
def tables : ForkTree.Code (Table D) (Act D) := ⟨fun _ a t => a.run t, id⟩

/-- Behind the fork of `start`, in the child. -/
def logcatTable (t : Table D) (reads writes : D) : Table D :=
  (((t.pipe reads writes).close t.lowest).dup2 (t.writeEnd reads) STDOUT_FILENO).dup2
    (t.writeEnd reads) STDERR_FILENO

def daemonTable (t : Table D) (reads writes : D) : Table D :=
  (t.pipe reads writes).close (t.writeEnd reads)

def readEnd (t : Table D) : Nat := t.descriptions.length

def writeEnd (t : Table D) : Nat := t.descriptions.length + 1

/-- Nobody can get at description `n` any more. -/
def Lost (n : Nat) (t : Table D) : Prop := n < t.descriptions.length ∧ ¬ t.Holds n

theorem Lost.run {n : Nat} {t : Table D} (h : Lost n t) (a : Act D) : Lost n (a.run t) := by
  obtain ⟨there, free⟩ := h
  have closed : ∀ fd, ¬ t.Refers n fd := fun fd refers => free ⟨fd, refers⟩
  cases a with
  | openFile d cloexec =>
    have longer : n < (t.openFile d cloexec).descriptions.length := by
      simp only [Table.openFile, List.length_append, List.length_singleton]
      omega
    refine ⟨longer, ?_⟩
    rintro ⟨fd, refers⟩
    rcases Table.refers_openFile.mp refers with ⟨_, new⟩ | ⟨_, before⟩
    · omega
    · exact closed fd before
  | close fd =>
    refine ⟨there, ?_⟩
    rintro ⟨fd', refers⟩
    exact closed fd' (Table.refers_close.mp refers).2
  | dup2 old new =>
    refine ⟨?_, ?_⟩
    · rw [Act.run, Table.descriptions_dup2]
      exact there
    · rintro ⟨fd, refers⟩
      exact closed fd (Table.not_refers_dup2 (closed old) new refers)
  | setCloexec fd cloexec =>
    refine ⟨there, ?_⟩
    rintro ⟨fd', refers⟩
    exact closed fd' (Table.refers_setCloexec.mp refers)

theorem Lost.everywhere {n : Nat} {t : Table D} (h : Lost n t) {p : ForkTree.Pid}
    {w : ForkTree.World (Table D) (Act D)}
    (run : ForkTree.Reachable tables (ForkTree.single p ⟨t, []⟩) (fun _ _ => True) w) :
    ∀ q x, w q = some x → ¬ x.memory.Holds n := by
  have lost := run.each (fun _ x => Lost n x.memory) ?_ ?_ ?_
  · exact fun q x live => (lost q x live).2
  · intro q x live
    obtain ⟨_, rfl⟩ := ForkTree.single_eq_some live
    exact h
  · intro w q a x _ _ _ before
    exact before.run a
  · intro w q c x _ _ _ _ before
    exact before

theorem refers_old {t : Table D} {n fd : Nat} (new : t.descriptions.length ≤ n) : ¬ t.Refers n fd :=
  fun refers => Nat.not_lt.mpr new (Table.Holds.lt ⟨fd, refers⟩)

theorem logcat_writes (t : Table D) (reads writes : D) (fd : Nat) :
    (logcatTable t reads writes).Refers (writeEnd t) fd ↔
      fd = STDOUT_FILENO ∨ fd = STDERR_FILENO ∨ fd = t.writeEnd reads := by
  have ends : ∀ fd, ((t.pipe reads writes).close t.lowest).Refers (writeEnd t) fd ↔
      fd = t.writeEnd reads := by
    intro fd
    have other := t.writeEnd_ne reads
    have new : ¬ t.Refers (t.descriptions.length + 1) fd := refers_old (Nat.le_succ _)
    rw [Table.refers_close, Table.refers_pipe]
    simp only [writeEnd, new, and_false, or_false, and_true]
    constructor
    · rintro ⟨_, same | ⟨_, bad⟩⟩
      · exact same
      · omega
    · rintro rfl
      exact ⟨other, .inl rfl⟩
  have first := ((ends _).mpr rfl).dup2 STDOUT_FILENO
  have second := ((first (t.writeEnd reads)).mpr (.inr ((ends _).mpr rfl))).dup2 STDERR_FILENO
  rw [logcatTable, second, first, ends]
  exact or_left_comm

theorem logcat_lost (t : Table D) (reads writes : D) :
    Lost (readEnd t) (logcatTable t reads writes) := by
  have closed : ∀ fd, ¬ ((t.pipe reads writes).close t.lowest).Refers (readEnd t) fd := by
    intro fd refers
    obtain ⟨other, refers⟩ := Table.refers_close.mp refers
    rcases Table.refers_pipe.mp refers with ⟨_, bad⟩ | ⟨same, _⟩ | ⟨_, _, before⟩
    · unfold readEnd at bad
      omega
    · exact other same
    · exact refers_old (Nat.le_refl _) before
  refine ⟨?_, fun ⟨fd, refers⟩ => ?_⟩
  · rw [logcatTable, Table.descriptions_dup2, Table.descriptions_dup2]
    simp [readEnd, Table.close, Table.pipe, Table.openFile]
  · have free : ∀ fd, ¬ (((t.pipe reads writes).close t.lowest).dup2 (t.writeEnd reads)
        STDOUT_FILENO).Refers (readEnd t) fd := fun fd refers =>
      closed fd (Table.not_refers_dup2 (closed _) STDOUT_FILENO refers)
    exact free fd (Table.not_refers_dup2 (free _) STDERR_FILENO refers)

theorem daemon_reads (t : Table D) (reads writes : D) (fd : Nat) :
    (daemonTable t reads writes).Refers (readEnd t) fd ↔ fd = t.lowest := by
  have other := t.writeEnd_ne reads
  have new : ¬ t.Refers t.descriptions.length fd := refers_old (Nat.le_refl _)
  rw [daemonTable, Table.refers_close, Table.refers_pipe]
  simp only [readEnd, new, and_false, or_false, and_true]
  constructor
  · rintro ⟨_, ⟨_, bad⟩ | same⟩
    · omega
    · exact same
  · rintro rfl
    exact ⟨other.symm, .inr rfl⟩

theorem daemon_lost (t : Table D) (reads writes : D) :
    Lost (writeEnd t) (daemonTable t reads writes) := by
  refine ⟨by simp [writeEnd, daemonTable, Table.close, Table.pipe, Table.openFile],
    fun ⟨fd, refers⟩ => ?_⟩
  obtain ⟨other, refers⟩ := Table.refers_close.mp refers
  rcases Table.refers_pipe.mp refers with ⟨same, _⟩ | ⟨_, bad⟩ | ⟨_, _, before⟩
  · exact other same
  · unfold writeEnd at bad
    omega
  · exact refers_old (Nat.le_succ _) before

/-- **The pipe has one side in each process**, whichever descriptors were open:
logcat writes to it, the daemon reads from it, and neither they nor what they
fork can get at the other's side. So the daemon finds the end of the file when
logcat and its children are gone, and logcat no reader when the daemon is. -/
theorem pipe_wired (t : Table D) (reads writes : D) :
    (∀ fd, (logcatTable t reads writes).Refers (writeEnd t) fd ↔
      fd = STDOUT_FILENO ∨ fd = STDERR_FILENO ∨ fd = t.writeEnd reads) ∧
    (∀ fd, (daemonTable t reads writes).Refers (readEnd t) fd ↔ fd = t.lowest) ∧
    (∀ p w, ForkTree.Reachable tables (ForkTree.single p ⟨logcatTable t reads writes, []⟩)
      (fun _ _ => True) w → ∀ q x, w q = some x → ¬ x.memory.Holds (readEnd t)) ∧
    (∀ p w, ForkTree.Reachable tables (ForkTree.single p ⟨daemonTable t reads writes, []⟩)
      (fun _ _ => True) w → ∀ q x, w q = some x → ¬ x.memory.Holds (writeEnd t)) :=
  ⟨logcat_writes t reads writes, daemon_reads t reads writes,
    fun _ _ run => (logcat_lost t reads writes).everywhere run,
    fun _ _ run => (daemon_lost t reads writes).everywhere run⟩

end

end Xposed.Logcat
