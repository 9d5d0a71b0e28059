import Xposed.Fork.Failures

/-!
# A capture that fails

`libxposed_art.cpp`: `Create` runs before the fork, and leaves its table in a
global for the call after it. It gives the table up when it fails, but not what
it has already done.
-/

namespace Xposed.Fork

open Descriptors (Table)
open Descriptors.Table (Kept)

/-- `gClosedFdTable`, which may be NULL, and the process's descriptors. -/
structure Process where
  gClosedFdTable : Option (List FileDescriptorInfo)
  fds : Table OpenFile

def closeFilesBeforeForkNative (p : Platform) (c : CreateCalls) (listing : List Dirent)
    (s : Process) : Process :=
  let (table, fds) := Create p c listing s.fds
  ⟨table, fds⟩

/-- `none`: the NULL pointer is dereferenced. `iterate` is the order in which the
map's values come. -/
def reopenFilesAfterForkNative (named : Bytes → Option File) (d : Nat → ReopenCalls)
    (iterate : List FileDescriptorInfo → List FileDescriptorInfo) (s : Process) : Option Process :=
  match s.gClosedFdTable with
  | none => none
  | some open_fd_map => some ⟨none, (reopenAll named d (iterate open_fd_map) s.fds).2⟩

/-- Every open descriptor refers to the file it referred to before. -/
def Undisturbed (t t' : Table OpenFile) : Prop := ∀ fd, t.get fd ≠ none → Kept t t' fd

/-- A capture that fails has no effect, and neither has the call after the fork. -/
def Harmless (p : Platform) (c : CreateCalls) (listing : List Dirent) (named : Bytes → Option File)
    (d : Nat → ReopenCalls) (iterate : List FileDescriptorInfo → List FileDescriptorInfo)
    (s : Process) : Prop :=
  let closed := closeFilesBeforeForkNative p c listing s
  closed.gClosedFdTable = none →
    Undisturbed s.fds closed.fds ∧
      ∃ reopened, reopenFilesAfterForkNative named d iterate closed = some reopened ∧
        Undisturbed closed.fds reopened.fds

theorem Detached.undisturbed_iff {p : Platform} {c : CreateCalls} {t t' : Table OpenFile}
    {map : List FileDescriptorInfo} (detached : Detached p c t t' map) :
    Undisturbed t t' ↔ ∀ info ∈ map, (c.detach info.fd).replaces = false := by
  constructor
  · intro undisturbed info h
    have settled := detached.settled info h
    have kept := undisturbed info.fd (detached.was_open h)
    cases replaces : (c.detach info.fd).replaces with
    | false => rfl
    | true =>
      -- what is captured was not `/dev/null`
      rw [Settled, replaces, if_pos rfl, kept.get] at settled
      have created := (detached.recorded info h).2
      rw [createFromFd_null settled] at created
      cases created
  · intro stops fd there
    by_cases inside : ∃ info ∈ map, info.fd = fd
    · obtain ⟨info, member, rfl⟩ := inside
      have settled := detached.settled info member
      rwa [Settled, stops info member, if_neg Bool.false_ne_true] at settled
    · exact detached.others fd there fun info member same => inside ⟨info, member, same⟩

theorem closed_null_iff (p : Platform) (c : CreateCalls) (listing : List Dirent) (s : Process) :
    (closeFilesBeforeForkNative p c listing s).gClosedFdTable = none ↔
      ¬ (c.opendir = true ∧ c.closedir = true) := by
  have fst := create_fst p c listing s.fds
  have table : (closeFilesBeforeForkNative p c listing s).gClosedFdTable =
      (Create p c listing s.fds).1 := rfl
  rw [table, fst, ← Bool.and_eq_true]
  split <;> simp [*]

/-- **A failing capture is harmless** exactly if it does not fail. The descriptors
stay as they were exactly if none of those in the map has been replaced yet. -/
theorem harmless_iff (p : Platform) (c : CreateCalls) (listing : List Dirent)
    (named : Bytes → Option File) (d : Nat → ReopenCalls)
    (iterate : List FileDescriptorInfo → List FileDescriptorInfo) (s : Process) :
    (Harmless p c listing named d iterate s ↔ c.opendir = true ∧ c.closedir = true) ∧
      (Undisturbed s.fds (closeFilesBeforeForkNative p c listing s).fds ↔
        ∀ info ∈ openFdMap p c listing s.fds, (c.detach info.fd).replaces = false) := by
  have null := closed_null_iff p c listing s
  refine ⟨⟨fun harmless => ?_, fun succeeds gone => ?_⟩, ?_⟩
  · by_contra fails
    obtain ⟨_, reopened, some, _⟩ := harmless (null.mpr fails)
    rw [reopenFilesAfterForkNative, null.mpr fails] at some
    cases some
  · exact absurd succeeds (null.mp gone)
  · exact (create_detached p c listing s.fds).undisturbed_iff

def closedirFails : CreateCalls := { CreateCalls.ok with closedir := false }

def closedirFailed : Process :=
  closeFilesBeforeForkNative lp64 closedirFails apkListing ⟨none, withApk false⟩

/-- `closedir` fails after the app's file has become `/dev/null`. -/
theorem closedir_harms :
    ¬ Harmless lp64 closedirFails apkListing apkNamed allSucceed id ⟨none, withApk false⟩ ∧
      closedirFailed.gClosedFdTable = none ∧
      closedirFailed.fds.get 3 = some (nullFile, false) ∧
      (reopenFilesAfterForkNative apkNamed allSucceed id closedirFailed).isNone := by
  have replaced : closedirFailed.fds.get 3 = some (nullFile, false) := by decide
  refine ⟨fun harmless => ?_, by decide, replaced, by decide⟩
  obtain ⟨undisturbed, _⟩ := harmless (by decide)
  have kept := (undisturbed 3 (by decide)).get
  have before : (withApk false).get 3 = some (⟨apk, apkPath, O_LARGEFILE, 12⟩, false) := by decide
  have same : closedirFailed.fds.get 3 = (withApk false).get 3 := kept
  rw [replaced, before] at same
  exact absurd same (by decide)

end Xposed.Fork
