import Xposed.Lib.Lines
import Xposed.Fork.FdUtils

/-!
# The daemon that copies the log

`xposed_logcat.cpp`: `runDaemon` reads what logcat writes in chunks of a buffer,
and copies them to the log file from the line with the startup marker on, up to
a limit. The file may have grown by `write` in full; what fails before the loop
ends the daemon.
-/

namespace Xposed.Logcat

open Lines (chunks lines IsLine)
open Fork (ascii)

def XPOSEDLOG_MAX_SIZE : Nat := 5 * 1024 * 1024

/-- `sizeof(buf)`, of which `fgets` leaves one byte for the NUL. -/
def bufSize : Nat := 512

def newline (c : UInt8) : Bool := c == 10

def startupMarker : Bytes := ascii "XposedStartupMarker"

def limitNotice : Bytes :=
  ascii "\nReached maximum log size (5120 kB), further lines won't be logged.\n"

/-- A line or a chunk that begins with `-`. -/
def Dashed (buf : Bytes) : Prop := buf.head? = some 45

instance : DecidablePred Dashed := fun buf => inferInstanceAs (Decidable (buf.head? = some 45))

def strstr (haystack needle : Bytes) : Bool := decide (needle <:+: cstr haystack)

structure Daemon where
  foundMarker : Bool
  totalSize : Nat
  /-- what has been written to the log -/
  logfile : Bytes
  exited : Bool
  deriving DecidableEq

/-- One turn of the loop. -/
def turn (marker : Bytes) (s : Daemon) (buf : Bytes) : Daemon :=
  if Dashed buf then s
  else if !s.foundMarker then
    if strstr buf startupMarker && strstr buf marker then { s with foundMarker := true } else s
  else
    let logfile := s.logfile ++ cstr buf
    let totalSize := s.totalSize + (cstr buf).length
    if totalSize > XPOSEDLOG_MAX_SIZE then
      { s with totalSize, logfile := logfile ++ limitNotice, exited := true }
    else { s with totalSize, logfile }

def daemonLoop (marker : Bytes) : List Bytes → Daemon → Daemon
  | [], s => s
  | buf :: rest, s =>
    let s := turn marker s buf
    if s.exited then s else daemonLoop marker rest s

def Daemon.start : Daemon := ⟨false, 0, [], false⟩

/-- The chunks of what `fgets` reads into the buffer. -/
def pieces (stream : Bytes) : List Bytes := chunks newline (bufSize - 1) stream

/-- `runDaemon`, until the pipe breaks after `stream`. -/
def runDaemon (marker stream : Bytes) : Daemon := daemonLoop marker (pieces stream) .start

/-! ## The loop over the chunks -/

section
variable {marker : Bytes} {s : Daemon}

theorem daemonLoop_append (going : s.exited = false) (front back : List Bytes) :
    daemonLoop marker (front ++ back) s =
      if (daemonLoop marker front s).exited then daemonLoop marker front s
      else daemonLoop marker back (daemonLoop marker front s) := by
  induction front generalizing s with
  | nil => simp [daemonLoop, going]
  | cons buf front ih =>
    simp only [List.cons_append, daemonLoop]
    by_cases exits : (turn marker s buf).exited = true
    · simp only [exits, if_true]
    · simp only [exits]
      exact ih (by simpa using exits)

/-- A chunk that the daemon does not pass by. -/
def shown (chunks : List Bytes) : List Bytes := chunks.filter fun buf => ¬ Dashed buf

theorem turn_dashed {buf : Bytes} (h : Dashed buf) : turn marker s buf = s := by
  rw [turn, if_pos h]

theorem daemonLoop_shown (going : s.exited = false) (chunks : List Bytes) :
    daemonLoop marker (shown chunks) s = daemonLoop marker chunks s := by
  induction chunks generalizing s with
  | nil => rfl
  | cons buf rest ih =>
    by_cases dashed : Dashed buf
    · have skipped : shown (buf :: rest) = shown rest := by simp [shown, dashed]
      rw [skipped, ih going, daemonLoop, turn_dashed dashed, going]
      rfl
    · have kept : shown (buf :: rest) = buf :: shown rest := by simp [shown, dashed]
      rw [kept, daemonLoop, daemonLoop]
      by_cases exits : (turn marker s buf).exited = true
      · simp only [exits, if_true]
      · simp only [exits]
        exact ih (by simpa using exits)

/-- The line or the chunk has both texts. -/
def IsMarker (marker l : Bytes) : Prop := startupMarker <:+: l ∧ marker <:+: l

instance (marker l : Bytes) : Decidable (IsMarker marker l) :=
  inferInstanceAs (Decidable (startupMarker <:+: l ∧ marker <:+: l))

theorem turn_searching {buf : Bytes} (clean : 0 ∉ buf) (looking : s.foundMarker = false)
    (plain : ¬ Dashed buf) :
    turn marker s buf = if IsMarker marker buf then { s with foundMarker := true } else s := by
  by_cases both : IsMarker marker buf
  · have texts : startupMarker <:+: buf ∧ marker <:+: buf := both
    simp [turn, plain, looking, strstr, cstr_clean clean, both, texts]
  · have texts : ¬ (startupMarker <:+: buf ∧ marker <:+: buf) := both
    simp [turn, plain, looking, strstr, cstr_clean clean, both, texts]

/-- Until a chunk has both texts nothing happens. -/
theorem daemonLoop_searching (marker : Bytes) (going : s.exited = false)
    (looking : s.foundMarker = false) {chunks : List Bytes} (clean : ∀ buf ∈ chunks, 0 ∉ buf) :
    (∀ buf ∈ chunks, Dashed buf ∨ ¬ IsMarker marker buf) ∧ daemonLoop marker chunks s = s ∨
      ∃ front buf back, chunks = front ++ buf :: back ∧
        (∀ buf ∈ front, Dashed buf ∨ ¬ IsMarker marker buf) ∧ ¬ Dashed buf ∧ IsMarker marker buf ∧
        daemonLoop marker chunks s = daemonLoop marker back { s with foundMarker := true } := by
  induction chunks with
  | nil => exact .inl ⟨by simp, rfl⟩
  | cons buf rest ih =>
    obtain ⟨clean_, clean⟩ := List.forall_mem_cons.mp clean
    by_cases found : ¬ Dashed buf ∧ IsMarker marker buf
    · refine .inr ⟨[], buf, rest, rfl, by simp, found.1, found.2, ?_⟩
      rw [daemonLoop, turn_searching clean_ looking found.1, if_pos found.2]
      simp [going]
    · have passed : turn marker s buf = s := by
        by_cases dashed : Dashed buf
        · exact turn_dashed dashed
        · rw [turn_searching clean_ looking dashed, if_neg fun both => found ⟨dashed, both⟩]
      have same : daemonLoop marker (buf :: rest) s = daemonLoop marker rest s := by
        rw [daemonLoop, passed, going]
        rfl
      have passes : Dashed buf ∨ ¬ IsMarker marker buf := by
        by_cases dashed : Dashed buf
        · exact .inl dashed
        · exact .inr fun both => found ⟨dashed, both⟩
      rw [same]
      rcases ih clean with ⟨none, still⟩ | ⟨front, buf', back, rfl, first, plain, both, onwards⟩
      · exact .inl ⟨List.forall_mem_cons.mpr ⟨passes, none⟩, still⟩
      · exact .inr ⟨buf :: front, buf', back, rfl, List.forall_mem_cons.mpr ⟨passes, first⟩, plain,
          both, onwards⟩

/-- The log with `text` behind it. -/
def Daemon.wrote (s : Daemon) (text : Bytes) : Daemon :=
  { s with totalSize := s.totalSize + text.length, logfile := s.logfile ++ text }

/-- The log with `text` and the notice behind it. -/
def Daemon.stopped (s : Daemon) (text : Bytes) : Daemon :=
  { s.wrote text with logfile := s.logfile ++ text ++ limitNotice, exited := true }

theorem turn_copying {buf : Bytes} (clean : 0 ∉ buf) (found : s.foundMarker = true)
    (plain : ¬ Dashed buf) :
    turn marker s buf =
      if XPOSEDLOG_MAX_SIZE < s.totalSize + buf.length then s.stopped buf else s.wrote buf := by
  simp [turn, plain, found, cstr_clean clean, Daemon.stopped, Daemon.wrote]

/-- The chunks are written one after the other, until they exceed the limit. -/
theorem daemonLoop_copying (marker : Bytes) (going : s.exited = false) (found : s.foundMarker = true)
    (within : s.totalSize ≤ XPOSEDLOG_MAX_SIZE) {chunks : List Bytes}
    (clean : ∀ buf ∈ chunks, 0 ∉ buf) (plain : ∀ buf ∈ chunks, ¬ Dashed buf) :
    (s.totalSize + chunks.flatten.length ≤ XPOSEDLOG_MAX_SIZE ∧
        daemonLoop marker chunks s = s.wrote chunks.flatten) ∨
      ∃ front buf back, chunks = front ++ buf :: back ∧
        s.totalSize + front.flatten.length ≤ XPOSEDLOG_MAX_SIZE ∧
        XPOSEDLOG_MAX_SIZE < s.totalSize + front.flatten.length + buf.length ∧
        daemonLoop marker chunks s = s.stopped (front.flatten ++ buf) := by
  induction chunks generalizing s with
  | nil => exact .inl ⟨within, by simp [daemonLoop, Daemon.wrote]⟩
  | cons buf rest ih =>
    obtain ⟨clean_, clean⟩ := List.forall_mem_cons.mp clean
    obtain ⟨plain_, plain⟩ := List.forall_mem_cons.mp plain
    rw [daemonLoop, turn_copying clean_ found plain_]
    by_cases exceeds : XPOSEDLOG_MAX_SIZE < s.totalSize + buf.length
    · right
      refine ⟨[], buf, rest, rfl, by simpa using within, by simpa using exceeds, ?_⟩
      rw [if_pos exceeds]
      rfl
    · rw [if_neg exceeds]
      have same : (s.wrote buf).exited = false := going
      simp only [same, Bool.false_eq_true, if_false]
      have next := @ih (s.wrote buf) going found (by simp only [Daemon.wrote]; omega) clean plain
      have text (t : Bytes) : (s.wrote buf).wrote t = s.wrote (buf ++ t) := by
        simp [Daemon.wrote, Nat.add_assoc]
      have text' (t : Bytes) : (s.wrote buf).stopped t = s.stopped (buf ++ t) := by
        simp [Daemon.stopped, Daemon.wrote, Nat.add_assoc]
      have size : (s.wrote buf).totalSize = s.totalSize + buf.length := rfl
      rw [size] at next
      rcases next with ⟨fits, all⟩ | ⟨front, last, back, rfl, fits, over_, all⟩
      · left
        rw [List.flatten_cons, List.length_append, all, text]
        exact ⟨by omega, rfl⟩
      · right
        refine ⟨buf :: front, last, back, rfl, ?_, ?_, ?_⟩
        · rw [List.flatten_cons, List.length_append]
          omega
        · rw [List.flatten_cons, List.length_append]
          omega
        · rw [all, text', List.flatten_cons, List.append_assoc]

end

end Xposed.Logcat
