import Xposed.Safemode.Sequence
import Xposed.Startup

/-!
# From the trigger to the boot without Xposed

The decision of the detection reaches the rest of `initialize` through the flag
file `conf/disabled`: Zygote creates it itself, and asks for it the way it asks
for every file, directly or through the service.
-/

namespace Xposed.Safemode

open ForkTree (Pid)
open Membased (Memory)

/-- The flag files under `XPOSED_DIR`. -/
inductive ConfFile where
  /-- `XPOSED_LOAD_BLOCKER`, `conf/disabled` -/
  | disabled
  /-- `XPOSED_SAFEMODE_NODELAY`, `conf/safemode_nodelay` -/
  | safemode_nodelay
  /-- `XPOSED_SAFEMODE_DISABLE`, `conf/safemode_disable` -/
  | safemode_disable
  deriving DecidableEq

/-- Which of the flag files exist. -/
abbrev Conf := ConfFile → Bool

def XPOSED_JAR : String := "/system/framework/XposedBridge.jar"

/-- What one run of `initialize` finds. -/
structure Boot where
  enableForTools : Bool
  zygote : Bool
  startSystemServer : Bool
  isMinimalFramework : Bool
  isSELinuxEnabled : Bool
  determineXposedInstallerUidGid : Bool
  starting : Starting
  shouldIgnoreCommand : Bool
  conf : Conf
  /-- `open` with `O_CREAT` gives a descriptor for `conf/disabled`. -/
  creates : Bool
  /-- Zygote may look the file up itself. -/
  access : ConfFile → Bool
  /-- The service answers, and may look the file up. -/
  accessFile : ConfFile → Bool
  keys : Input
  /-- `access(XPOSED_JAR, R_OK)` gives 0. -/
  jar : Bool
  CLASSPATH : Option String

/-- The route to a file is open. -/
def Boot.reaches (e : Boot) (path : ConfFile) : Bool :=
  if e.isSELinuxEnabled then e.accessFile path else e.access path

/-- With mode `F_OK`. -/
def Boot.zygote_access (e : Boot) (conf : Conf) (path : ConfFile) : Int :=
  if e.reaches path && conf path then 0 else -1

def Boot.isDisabled (e : Boot) (conf : Conf) : Bool := e.zygote_access conf .disabled == 0

def Boot.isSafemodeDisabled (e : Boot) (conf : Conf) : Bool :=
  e.zygote_access conf .safemode_disable == 0

def Boot.shouldSkipSafemodeDelay (e : Boot) (conf : Conf) : Bool :=
  e.zygote_access conf .safemode_nodelay == 0

/-- Its result is not looked at. -/
def Boot.disableXposed (e : Boot) (conf : Conf) : Conf :=
  fun path => conf path || (path == .disabled && e.creates)

/-- The value of an environment variable with `path` in front, unless it gets
too long. -/
def addPathToEnv (path : String) (oldPath : Option String) : Option String :=
  match oldPath with
  | none => some path
  | some oldPath =>
    if path.utf8ByteSize + 1 + oldPath.utf8ByteSize ≥ 4096 then none
    else some (path ++ ":" ++ oldPath)

def Boot.addJarToClasspath (e : Boot) : Bool :=
  if e.jar then (addPathToEnv XPOSED_JAR e.CLASSPATH).isSome else false

/-- What `initialize` returns, whether the trigger was detected, and the flag
files that are left. -/
structure Outcome where
  loaded : Bool
  triggered : Bool
  conf : Conf

/-- The services run, in the Zygotes that start them. -/
def Boot.services (e : Boot) (pid : Pid) (m : Memory) : Bool :=
  if e.startSystemServer then
    e.determineXposedInstallerUidGid && (startAll e.isSELinuxEnabled e.starting pid m).1
  else if e.isSELinuxEnabled then (startMembased e.isSELinuxEnabled e.starting pid m).1
  else true

/-- The detection is made and answers `true`. -/
def Boot.triggered (e : Boot) : Bool :=
  e.zygote && !e.isSafemodeDisabled e.conf &&
    detectSafemodeTrigger e.keys (e.shouldSkipSafemodeDelay e.conf)

/-- The flag files behind the detection. -/
def Boot.confLeft (e : Boot) : Conf := if e.triggered then e.disableXposed e.conf else e.conf

/-- Behind the start of the services. -/
def Boot.load (e : Boot) : Outcome :=
  if e.isDisabled e.confLeft || (!e.zygote && e.shouldIgnoreCommand) then
    ⟨false, e.triggered, e.confLeft⟩
  else ⟨e.addJarToClasspath, e.triggered, e.confLeft⟩

def initializeXposed (e : Boot) (pid : Pid) (m : Memory) : Outcome :=
  if !e.enableForTools && !e.zygote then ⟨false, false, e.conf⟩
  else if e.isMinimalFramework then ⟨false, false, e.conf⟩
  else if !e.services pid m then ⟨false, false, e.conf⟩
  else e.load

def XPOSED_CLASS_DOTS_ZYGOTE : String := "de.robv.android.xposed.XposedBridge"

def ZygoteInit : String := "com.android.internal.os.ZygoteInit"

/-- The class that `main` starts in Zygote mode. -/
def startedClass (isXposedLoaded : Bool) : String :=
  if isXposedLoaded then XPOSED_CLASS_DOTS_ZYGOTE else ZygoteInit

/-! ## The globals -/

/-- The same run as the one that decides about the globals. -/
def Boot.toStartup (e : Boot) : Xposed.Boot where
  enableForTools := e.enableForTools
  zygote := e.zygote
  startSystemServer := e.startSystemServer
  isMinimalFramework := e.isMinimalFramework
  determineXposedInstallerUidGid := e.determineXposedInstallerUidGid
  starting := e.starting
  isSafemodeDisabled := e.isSafemodeDisabled e.conf
  isDisabled := e.isDisabled e.confLeft
  shouldIgnoreCommand := e.shouldIgnoreCommand
  addJarToClasspath := e.addJarToClasspath

theorem load_eq (e : Boot) :
    e.load = ⟨!(e.isDisabled e.confLeft || (!e.zygote && e.shouldIgnoreCommand)) &&
      e.addJarToClasspath, e.triggered, e.confLeft⟩ := by
  unfold Boot.load
  cases e.isDisabled e.confLeft || (!e.zygote && e.shouldIgnoreCommand) <;> rfl

theorem loadXposed_toStartup (e : Boot) (pid : Pid) (m : Memory) :
    (loadXposed e.isSELinuxEnabled e.toStartup pid m).1 = e.load.loaded := by
  rw [load_eq]
  unfold loadXposed
  cases h : e.isDisabled e.confLeft || (!e.zygote && e.shouldIgnoreCommand) <;>
    simp [Boot.toStartup, h]

/-- Both models of `initialize` return the same. -/
theorem initialize_loaded (e : Boot) (pid : Pid) (m : Memory) :
    (initializeXposed e pid m).loaded =
      (Xposed.initializeXposed e.isSELinuxEnabled e.toStartup pid m).1 := by
  have behind := loadXposed_toStartup e pid
  unfold initializeXposed Xposed.initializeXposed
  cases enters : !e.enableForTools && !e.zygote with
  | true => simp [Boot.toStartup, enters]
  | false =>
    cases full : e.isMinimalFramework with
    | true => simp [Boot.toStartup, enters, full]
    | false =>
      have started : e.services pid m = (if e.toStartup.startSystemServer then
          if !e.toStartup.determineXposedInstallerUidGid then (false, m)
          else startAll e.isSELinuxEnabled e.toStartup.starting pid m
        else if e.isSELinuxEnabled then
          startMembased e.isSELinuxEnabled e.toStartup.starting pid m
        else (true, m)).1 := by
        unfold Boot.services
        cases system : e.startSystemServer with
        | true => cases uid : e.determineXposedInstallerUidGid <;> simp [Boot.toStartup, system, uid]
        | false => cases selinux : e.isSELinuxEnabled <;> simp [Boot.toStartup, system]
      have same : (!e.toStartup.enableForTools && !e.toStartup.zygote) = false := enters
      have whole : e.toStartup.isMinimalFramework = false := full
      simp only [same, whole, Bool.false_eq_true, if_false, started]
      generalize (if e.toStartup.startSystemServer then
          if !e.toStartup.determineXposedInstallerUidGid then (false, m)
          else startAll e.isSELinuxEnabled e.toStartup.starting pid m
        else if e.isSELinuxEnabled then
          startMembased e.isSELinuxEnabled e.toStartup.starting pid m
        else (true, m)) = start
      cases start.1 with
      | false => rfl
      | true => exact (behind _).symm

/-! ## The trigger and its effect -/

theorem zygote_access_eq_zero (e : Boot) (conf : Conf) (path : ConfFile) :
    (e.zygote_access conf path == 0) = (e.reaches path && conf path) := by
  unfold Boot.zygote_access
  cases e.reaches path && conf path <;> rfl

/-- Where the trigger was detected, the run got as far as the flag file. -/
theorem triggered_loads {e : Boot} {pid : Pid} {m : Memory}
    (h : (initializeXposed e pid m).triggered = true) :
    initializeXposed e pid m = e.load ∧ e.triggered = true := by
  have reached : initializeXposed e pid m = e.load := by
    unfold initializeXposed at h ⊢
    split at h
    · cases h
    · rename_i enters
      rw [if_neg enters]
      split at h
      · cases h
      · rename_i full
        rw [if_neg full]
        split at h
        · cases h
        · rename_i started
          rw [if_neg started]
  rw [reached, load_eq] at h
  exact ⟨reached, h⟩

/-- The flag file is there, or can be created, and Zygote's way of asking for it
reaches it. -/
def Boot.flagHolds (e : Boot) : Bool := e.reaches .disabled && (e.conf .disabled || e.creates)

/-- **A detected trigger keeps Xposed out of the boot** exactly if the flag file
holds or Xposed's jar cannot be added anyway. -/
theorem trigger_keeps_out_iff {e : Boot} {pid : Pid} {m : Memory}
    (h : (initializeXposed e pid m).triggered = true) :
    ((initializeXposed e pid m).loaded = false ∧
      startedClass (initializeXposed e pid m).loaded = ZygoteInit) ↔
    e.flagHolds = true ∨ e.jar = false ∨ addPathToEnv XPOSED_JAR e.CLASSPATH = none := by
  obtain ⟨reached, detected⟩ := triggered_loads h
  have zygote : e.zygote = true := by
    simp only [Boot.triggered, Bool.and_eq_true] at detected
    exact detected.1.1
  have asked : e.isDisabled e.confLeft = e.flagHolds := by
    rw [Boot.isDisabled, zygote_access_eq_zero, Boot.confLeft, detected]
    simp [Boot.disableXposed, Boot.flagHolds]
  have loaded : (initializeXposed e pid m).loaded = (!e.flagHolds && e.addJarToClasspath) := by
    rw [reached, load_eq, asked, zygote]
    simp
  rw [loaded]
  constructor
  · rintro ⟨out, _⟩
    cases holds : e.flagHolds with
    | true => exact .inl rfl
    | false =>
      cases jar : e.jar with
      | false => exact .inr (.inl rfl)
      | true =>
        simp only [holds, Boot.addJarToClasspath, jar, if_true, Bool.not_false, Bool.true_and,
          Option.isSome_eq_false_iff, Option.isNone_iff_eq_none] at out
        exact .inr (.inr out)
  · intro stops
    have out : (!e.flagHolds && e.addJarToClasspath) = false := by
      rcases stops with holds | jar | long
      · rw [holds]
        rfl
      · simp [Boot.addJarToClasspath, jar]
      · simp [Boot.addJarToClasspath, long]
    exact ⟨out, by rw [out]; rfl⟩

/-- Zygote with SELinux switched off, in which the trigger is pressed. -/
def recovering (creates : Bool) : Boot where
  enableForTools := false
  zygote := true
  startSystemServer := true
  isMinimalFramework := false
  isSELinuxEnabled := false
  determineXposedInstallerUidGid := true
  starting := ⟨none, true, true, true, true⟩
  shouldIgnoreCommand := false
  conf := fun _ => false
  creates
  access := fun _ => true
  accessFile := fun _ => false
  keys := fivePresses
  jar := true
  CLASSPATH := none

theorem recovering_keeps_out :
    (initializeXposed (recovering true) 1 Memory.start).loaded = false ∧
      startedClass (initializeXposed (recovering true) 1 Memory.start).loaded = ZygoteInit :=
  (trigger_keeps_out_iff (by decide)).mpr (.inl rfl)

/-- The flag file cannot be created: there is no directory `conf`. -/
theorem loaded_despite_trigger :
    (recovering false).zygote = true ∧
      (initializeXposed (recovering false) 1 Memory.start).triggered = true ∧
      (initializeXposed (recovering false) 1 Memory.start).loaded = true ∧
      startedClass (initializeXposed (recovering false) 1 Memory.start).loaded =
        XPOSED_CLASS_DOTS_ZYGOTE := by
  have detected : (initializeXposed (recovering false) 1 Memory.start).triggered = true := by decide
  have loaded : (initializeXposed (recovering false) 1 Memory.start).loaded = true := by decide
  exact ⟨rfl, detected, loaded, by rw [loaded]; rfl⟩

end Xposed.Safemode
