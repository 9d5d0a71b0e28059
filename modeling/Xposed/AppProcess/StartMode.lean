import Xposed.Fork.FdUtils

/-!
# How `app_process` starts

`app_main2.cpp`: `main`, behind `handleOptions`. The list of arguments for the
runtime is put together in one place, and what is started is chosen in another.
-/

namespace Xposed.AppProcess

open Fork (ascii)

/-- The build, and what the calls of `main` give. -/
structure Env where
  lp64 : Bool
  kInstructionSet : Bytes
  /-- `getenv("ANDROID_DATA")` -/
  androidData : Option Bytes
  /-- The directory is there after `mkdir`. -/
  mkdir : Bool
  chown : Bool
  chmod : Bool
  /-- The value of `ABI_LIST_PROPERTY`, empty if it is not set. -/
  abiList : Bytes
  /-- What `xposed::initialize` returns for its first three arguments. -/
  initialize_ : Bool → Bool → Option Bytes → Bool

structure AppRuntime where
  options : List Bytes
  mClassName : Bytes
  mArgs : List Bytes
  deriving DecidableEq

inductive Ending where
  /-- `LOG_ALWAYS_FATAL` -/
  | fatal
  /-- The usage is printed, and `main` returns. -/
  | usage (status : Nat)
  /-- The usage is printed, and `LOG_ALWAYS_FATAL` aborts before `main` returns. -/
  | usageFatal
  | runtimeStart (runtime : AppRuntime) (classname : Bytes) (options : List Bytes) (zygote : Bool)
  deriving DecidableEq

/-- A run of `main`. -/
structure Run where
  /-- The dalvik-cache directory has been created. -/
  dalvikCache : Bool
  /-- the name that the process is given -/
  argv0 : Option Bytes
  ending : Ending
  deriving DecidableEq

def ZYGOTE_NICE_NAME (lp64 : Bool) : Bytes := if lp64 then ascii "zygote64" else ascii "zygote"

def XPOSED_CLASS_DOTS_ZYGOTE : Bytes := ascii "de.robv.android.xposed.XposedBridge"
def XPOSED_CLASS_DOTS_TOOLS : Bytes := ascii "de.robv.android.xposed.XposedBridge$ToolEntryPoint"
def ZygoteInit : Bytes := ascii "com.android.internal.os.ZygoteInit"
def RuntimeInit : Bytes := ascii "com.android.internal.os.RuntimeInit"

/-- Whether the directory is created, and nothing fails. -/
def maybeCreateDalvikCache (e : Env) : Bool × Bool :=
  match e.androidData with
  | none => (false, false)
  | some androidRoot =>
    if PATH_MAX ≤ (androidRoot ++ ascii "/dalvik-cache/" ++ e.kInstructionSet).length then
      (false, false)
    else if !e.mkdir then (false, false)
    else (true, e.chown && e.chmod)

/-- The arguments for the VM, and those from index `i` on. -/
def vmOptions : List Bytes → List Bytes × List Bytes
  | [] => ([], [])
  | arg :: rest =>
    if arg.head? ≠ some 45 then ([], arg :: rest)
    else if arg = ascii "--" then ([], rest)
    else
      let (options, rest) := vmOptions rest
      (arg :: options, rest)

/-- The variables that the second loop sets. -/
structure Parsed where
  zygote : Bool
  startSystemServer : Bool
  application : Bool
  niceName : Bytes
  className : Bytes
  deriving DecidableEq

def Parsed.start : Parsed := ⟨false, false, false, [], []⟩

/-- The second loop, from index `i` on, and the arguments behind it. -/
def parseArgs (lp64 : Bool) : List Bytes → Parsed → Parsed × List Bytes
  | [], p => (p, [])
  | arg :: rest, p =>
    if arg = ascii "--zygote" then
      parseArgs lp64 rest { p with zygote := true, niceName := ZYGOTE_NICE_NAME lp64 }
    else if arg = ascii "--start-system-server" then
      parseArgs lp64 rest { p with startSystemServer := true }
    else if arg = ascii "--application" then
      parseArgs lp64 rest { p with application := true }
    else if (ascii "--nice-name=").isPrefixOf arg then
      parseArgs lp64 rest { p with niceName := arg.drop 12 }
    else if !(ascii "--").isPrefixOf arg then ({ p with className := arg }, rest)
    else (p, arg :: rest)

/-- A `String8` as a condition: the pointer it converts to. -/
def notNull (_ : Bytes) : Bool := true

/-- The end of `main`, where the mode is chosen. -/
def chooseMode (e : Env) (p : Parsed) (runtime : AppRuntime) (args : List Bytes) : Ending :=
  if p.zygote then
    let isXposedLoaded := e.initialize_ true p.startSystemServer none
    .runtimeStart runtime (if isXposedLoaded then XPOSED_CLASS_DOTS_ZYGOTE else ZygoteInit) args
      p.zygote
  else if notNull p.className then
    let isXposedLoaded := e.initialize_ false false (some p.className)
    .runtimeStart runtime (if isXposedLoaded then XPOSED_CLASS_DOTS_TOOLS else RuntimeInit) args
      p.zygote
  else .usageFatal

/-- `main` behind the loops, where `rest` is what they leave. -/
def startMode (e : Env) (options : List Bytes) (p : Parsed) (rest : List Bytes) : Run :=
  let argv0 := if p.niceName = [] then none else some p.niceName
  if p.className ≠ [] then
    let args := [if p.application then ascii "application" else ascii "tool"]
    ⟨false, argv0, chooseMode e p ⟨options, p.className, rest⟩ args⟩
  else
    let (created, done) := maybeCreateDalvikCache e
    if !done then ⟨created, none, .fatal⟩
    else if e.abiList = [] then ⟨created, none, .fatal⟩
    else
      let args := (if p.startSystemServer then [ascii "start-system-server"] else []) ++
        [ascii "--abi-list=" ++ e.abiList] ++ rest
      ⟨created, argv0, chooseMode e p ⟨options, [], []⟩ args⟩

/-- `main`, with the arguments behind `argv[0]`. -/
def main (e : Env) (argv : List Bytes) : Run :=
  let (options, rest) := vmOptions argv
  let (p, rest) := parseArgs e.lp64 (rest.drop 1) .start
  startMode e options p rest

/-! ## What the arguments say -/

/-- An option that the second loop knows. -/
def known (arg : Bytes) : Bool :=
  arg = ascii "--zygote" || arg = ascii "--start-system-server" || arg = ascii "--application" ||
    (ascii "--nice-name=").isPrefixOf arg

/-- The arguments behind those for the VM and the parent directory. -/
def internal (argv : List Bytes) : List Bytes :=
  match argv.dropWhile fun arg => arg.head? = some 45 ∧ arg ≠ ascii "--" with
  | [] => []
  | arg :: rest => if arg = ascii "--" then rest.drop 1 else rest

/-- The option is given. -/
def given (option : String) (argv : List Bytes) : Prop :=
  ascii option ∈ (internal argv).takeWhile known

instance (option : String) (argv : List Bytes) : Decidable (given option argv) :=
  inferInstanceAs (Decidable (ascii option ∈ (internal argv).takeWhile known))

/-- The class name, empty if there is none, and the arguments behind it. -/
def classAndArgs (argv : List Bytes) : Bytes × List Bytes :=
  match (internal argv).dropWhile known with
  | [] => ([], [])
  | arg :: rest => if (ascii "--").isPrefixOf arg then ([], arg :: rest) else (arg, rest)

/-- The start mode is what the arguments ask for. -/
structure Consistent (e : Env) (argv : List Bytes) (run : Run) : Prop where
  zygote : ∀ runtime classname args zygote,
    run.ending = .runtimeStart runtime classname args zygote →
      classname = XPOSED_CLASS_DOTS_ZYGOTE ∨ classname = ZygoteInit →
      given "--zygote" argv ∧
        args = (if given "--start-system-server" argv then [ascii "start-system-server"] else []) ++
          [ascii "--abi-list=" ++ e.abiList] ++ (classAndArgs argv).2
  application : ∀ runtime classname args zygote,
    run.ending = .runtimeStart runtime classname args zygote →
      classname = XPOSED_CLASS_DOTS_TOOLS ∨ classname = RuntimeInit →
      (classAndArgs argv).1 ≠ [] ∧
        args = [if given "--application" argv then ascii "application" else ascii "tool"] ∧
        runtime.mClassName = (classAndArgs argv).1 ∧ runtime.mArgs = (classAndArgs argv).2
  usage : ¬ given "--zygote" argv → (classAndArgs argv).1 = [] →
    run.ending = .usage 10 ∧ run.dalvikCache = false

theorem vmOptions_eq (argv : List Bytes) : ((vmOptions argv).2).drop 1 = internal argv := by
  induction argv with
  | nil => rfl
  | cons arg rest ih =>
    unfold internal at ih ⊢
    rw [vmOptions]
    by_cases dash : arg.head? = some 45
    · by_cases ends : arg = ascii "--"
      · have first : ascii "--" = 45 :: [45] := by decide
        simp [ends, first]
      · simp [dash, ends, ih]
    · have other : arg ≠ ascii "--" := by
        rintro rfl
        exact dash (by decide)
      simp [dash, other]

/-- What the loop has read of `args` when it stops, from the variables `p` on. -/
structure Reads (args : List Bytes) (p : Parsed) (r : Parsed × List Bytes) : Prop where
  zygote : r.1.zygote = (p.zygote || decide (ascii "--zygote" ∈ args.takeWhile known))
  startSystemServer : r.1.startSystemServer =
    (p.startSystemServer || decide (ascii "--start-system-server" ∈ args.takeWhile known))
  application : r.1.application =
    (p.application || decide (ascii "--application" ∈ args.takeWhile known))
  classAndArgs : (r.1.className, r.2) =
    match args.dropWhile known with
    | [] => ([], [])
    | arg :: rest => if (ascii "--").isPrefixOf arg then ([], arg :: rest) else (arg, rest)

/-- One option, which changes `p` into `p'`. -/
theorem Reads.option {arg : Bytes} {rest : List Bytes} {p p' : Parsed} {r : Parsed × List Bytes}
    (is_known : known arg = true) (reads : Reads rest p' r)
    (zygote : p'.zygote = (p.zygote || decide (ascii "--zygote" = arg)))
    (startSystemServer : p'.startSystemServer =
      (p.startSystemServer || decide (ascii "--start-system-server" = arg)))
    (application : p'.application = (p.application || decide (ascii "--application" = arg))) :
    Reads (arg :: rest) p r := by
  refine ⟨?_, ?_, ?_, ?_⟩
  · rw [reads.zygote, zygote, List.takeWhile_cons_of_pos is_known]
    simp [Bool.or_assoc]
  · rw [reads.startSystemServer, startSystemServer, List.takeWhile_cons_of_pos is_known]
    simp [Bool.or_assoc]
  · rw [reads.application, application, List.takeWhile_cons_of_pos is_known]
    simp [Bool.or_assoc]
  · rw [reads.classAndArgs, List.dropWhile_cons_of_pos is_known]

theorem parseArgs_reads (lp64 : Bool) (args : List Bytes) {p : Parsed} (empty : p.className = []) :
    Reads args p (parseArgs lp64 args p) := by
  have zs : ascii "--start-system-server" ≠ ascii "--zygote" := by decide
  have za : ascii "--application" ≠ ascii "--zygote" := by decide
  have sa : ascii "--application" ≠ ascii "--start-system-server" := by decide
  induction args generalizing p with
  | nil =>
    exact ⟨by simp [parseArgs], by simp [parseArgs], by simp [parseArgs],
      by simp [parseArgs, empty]⟩
  | cons arg rest ih =>
    rw [parseArgs]
    by_cases zygote : arg = ascii "--zygote"
    · subst zygote
      rw [if_pos rfl]
      apply (ih (p := { p with zygote := true, niceName := ZYGOTE_NICE_NAME lp64 }) empty).option
      · decide
      · simp
      · simp [zs]
      · simp [za]
    rw [if_neg zygote]
    by_cases startSystemServer : arg = ascii "--start-system-server"
    · subst startSystemServer
      rw [if_pos rfl]
      apply (ih (p := { p with startSystemServer := true }) empty).option
      · decide
      · simp [Ne.symm zs]
      · simp
      · simp [sa]
    rw [if_neg startSystemServer]
    by_cases application : arg = ascii "--application"
    · subst application
      rw [if_pos rfl]
      apply (ih (p := { p with application := true }) empty).option
      · decide
      · simp [Ne.symm za]
      · simp [Ne.symm sa]
      · simp
    rw [if_neg application]
    by_cases niceName : (ascii "--nice-name=").isPrefixOf arg = true
    · rw [if_pos niceName]
      apply (ih (p := { p with niceName := arg.drop 12 }) empty).option
      · simp [known, niceName]
      · simp [Ne.symm zygote]
      · simp [Ne.symm startSystemServer]
      · simp [Ne.symm application]
    rw [if_neg niceName]
    have stops : ¬ known arg = true := by
      simp [known, zygote, startSystemServer, application, niceName]
    have none : (arg :: rest).takeWhile known = [] := List.takeWhile_cons_of_neg stops
    have all : (arg :: rest).dropWhile known = arg :: rest := List.dropWhile_cons_of_neg stops
    by_cases dashes : (ascii "--").isPrefixOf arg = true
    · rw [if_neg (by simp [dashes])]
      exact ⟨by simp [none], by simp [none], by simp [none], by simp [all, dashes, empty]⟩
    · rw [if_pos (by simp [dashes])]
      exact ⟨by simp [none], by simp [none], by simp [none], by simp [all, dashes]⟩

/-- What `main` has read before it puts the arguments together. -/
theorem main_reads (e : Env) (argv : List Bytes) :
    let r := parseArgs e.lp64 ((vmOptions argv).2.drop 1) .start
    r.1.zygote = decide (given "--zygote" argv) ∧
      r.1.startSystemServer = decide (given "--start-system-server" argv) ∧
      r.1.application = decide (given "--application" argv) ∧
      (r.1.className, r.2) = classAndArgs argv := by
  obtain ⟨zygote, startSystemServer, application, rest⟩ :=
    parseArgs_reads e.lp64 ((vmOptions argv).2.drop 1) (p := .start) rfl
  rw [vmOptions_eq] at zygote startSystemServer application rest ⊢
  exact ⟨zygote, startSystemServer, application, rest⟩

theorem classes_apart : ∀ isXposedLoaded : Bool,
    ¬ ((if isXposedLoaded then XPOSED_CLASS_DOTS_ZYGOTE else ZygoteInit) = XPOSED_CLASS_DOTS_TOOLS ∨
      (if isXposedLoaded then XPOSED_CLASS_DOTS_ZYGOTE else ZygoteInit) = RuntimeInit) ∧
    ¬ ((if isXposedLoaded then XPOSED_CLASS_DOTS_TOOLS else RuntimeInit) = XPOSED_CLASS_DOTS_ZYGOTE ∨
      (if isXposedLoaded then XPOSED_CLASS_DOTS_TOOLS else RuntimeInit) = ZygoteInit) := by
  decide

/-- The argument for the tools is none for the Zygote. -/
theorem not_zygote_args (application startSystemServer : Prop) [Decidable application]
    [Decidable startSystemServer] (abiList : Bytes) (rest : List Bytes) :
    [if application then ascii "application" else ascii "tool"] ≠
      (if startSystemServer then [ascii "start-system-server"] else []) ++
        [ascii "--abi-list=" ++ abiList] ++ rest := by
  intro same
  by_cases system : startSystemServer
  · rw [if_pos system] at same
    simp at same
  · rw [if_neg system, List.nil_append, List.singleton_append] at same
    have flag := congrArg List.head? (List.cons.inj same).1
    by_cases app : application
    · rw [if_pos app] at flag
      exact absurd flag (by simp [ascii])
    · rw [if_neg app] at flag
      exact absurd flag (by simp [ascii])

theorem startMode_named (e : Env) (options : List Bytes) {p : Parsed} (rest : List Bytes)
    (named : p.className ≠ []) :
    (startMode e options p rest).ending = chooseMode e p ⟨options, p.className, rest⟩
      [if p.application then ascii "application" else ascii "tool"] := by
  rw [startMode, if_pos named]

/-- Without a class name the arguments are those for the Zygote, in every mode. -/
theorem startMode_unnamed (e : Env) (options : List Bytes) {p : Parsed} (rest : List Bytes)
    (unnamed : p.className = []) :
    (startMode e options p rest).ending = .fatal ∨
      (startMode e options p rest).ending = chooseMode e p ⟨options, [], []⟩
        ((if p.startSystemServer then [ascii "start-system-server"] else []) ++
          [ascii "--abi-list=" ++ e.abiList] ++ rest) := by
  simp only [startMode, unnamed, ne_eq, not_true_eq_false, if_false]
  split
  · exact .inl rfl
  · split
    · exact .inl rfl
    · exact .inr rfl

section
variable {e : Env} {argv options args : List Bytes} {p : Parsed}

/-- In the Zygote's mode a class name spoils the arguments. -/
theorem consistent_zygote (mode : given "--zygote" argv) (inMode : p.zygote = true)
    (startSystemServer : p.startSystemServer = decide (given "--start-system-server" argv))
    (rest : (p.className, args) = classAndArgs argv) :
    Consistent e argv (startMode e options p args) ↔ (classAndArgs argv).1 = [] := by
  have className : p.className = (classAndArgs argv).1 := congrArg Prod.fst rest
  have behind : args = (classAndArgs argv).2 := congrArg Prod.snd rest
  have apart := (classes_apart (e.initialize_ true p.startSystemServer none)).1
  by_cases named : (classAndArgs argv).1 = []
  · have ending := startMode_unnamed e options args (className.trans named)
    rw [chooseMode, if_pos inMode] at ending
    refine iff_of_true ⟨?_, ?_, fun none => absurd mode none⟩ named
    · intro runtime classname args' zygote' start _
      rw [start] at ending
      rcases ending with ended | started
      · cases ended
      · obtain ⟨_, _, rfl, _⟩ := Ending.runtimeStart.inj started
        refine ⟨mode, ?_⟩
        rw [behind, startSystemServer]
        simp only [decide_eq_true_eq]
    · intro runtime classname args' zygote' start class_
      rw [start] at ending
      rcases ending with ended | started
      · cases ended
      · obtain ⟨_, rfl, _⟩ := Ending.runtimeStart.inj started
        exact absurd class_ apart
  · have ending := startMode_named e options args (by rwa [className])
    rw [chooseMode, if_pos inMode] at ending
    refine iff_of_false (fun consistent => ?_) named
    have list := (consistent.zygote _ _ _ _ ending (by split <;> simp)).2
    exact not_zygote_args _ _ _ _ list

/-- Otherwise there must be one, as the usage is never printed. -/
theorem consistent_class (mode : ¬ given "--zygote" argv) (inMode : p.zygote = false)
    (application : p.application = decide (given "--application" argv))
    (rest : (p.className, args) = classAndArgs argv) :
    Consistent e argv (startMode e options p args) ↔ (classAndArgs argv).1 ≠ [] := by
  have className : p.className = (classAndArgs argv).1 := congrArg Prod.fst rest
  have behind : args = (classAndArgs argv).2 := congrArg Prod.snd rest
  have apart := (classes_apart (e.initialize_ false false (some p.className))).2
  by_cases named : (classAndArgs argv).1 = []
  · have ending := startMode_unnamed e options args (className.trans named)
    refine iff_of_false (fun consistent => ?_) (fun other => other named)
    have usage := (consistent.usage mode named).1
    rw [usage, chooseMode, if_neg (by simp [inMode]), notNull] at ending
    rcases ending with ended | started
    · cases ended
    · cases started
  · have ending := startMode_named e options args (by rwa [className])
    rw [chooseMode, if_neg (by simp [inMode]), notNull, if_pos rfl] at ending
    refine iff_of_true ⟨?_, ?_, fun _ none => absurd none named⟩ named
    · intro runtime classname args' zygote' start class_
      rw [start] at ending
      obtain ⟨_, rfl, _⟩ := Ending.runtimeStart.inj ending
      exact absurd class_ apart
    · intro runtime classname args' zygote' start _
      rw [start] at ending
      obtain ⟨rfl, _, rfl, _⟩ := Ending.runtimeStart.inj ending
      refine ⟨named, ?_, className, behind⟩
      rw [application]
      simp only [decide_eq_true_eq]

end

/-- **The start mode is consistent** exactly if either `--zygote` is given or a
class name that is not empty, and not both. -/
theorem start_mode_iff (e : Env) (argv : List Bytes) :
    Consistent e argv (main e argv) ↔ (given "--zygote" argv ↔ (classAndArgs argv).1 = []) := by
  obtain ⟨zygote, startSystemServer, application, rest⟩ := main_reads e argv
  have run : main e argv = startMode e (vmOptions argv).1
    (parseArgs e.lp64 ((vmOptions argv).2.drop 1) .start).1
    (parseArgs e.lp64 ((vmOptions argv).2.drop 1) .start).2 := rfl
  rw [run]
  by_cases mode : given "--zygote" argv
  · have inMode := zygote.trans (decide_eq_true mode)
    rw [consistent_zygote mode inMode startSystemServer rest]
    simp only [mode, true_iff]
  · have inMode := zygote.trans (decide_eq_false mode)
    rw [consistent_class mode inMode application rest]
    simp only [mode, false_iff, ne_eq]

def arm : Env where
  lp64 := false
  kInstructionSet := ascii "arm"
  androidData := some (ascii "/data")
  mkdir := true
  chown := true
  chmod := true
  abiList := ascii "armeabi-v7a"
  initialize_ := fun _ _ _ => false

/-- With no arguments at all, `RuntimeInit` is started for no class, with the
arguments for the Zygote. -/
theorem nothing_given :
    main arm [] = ⟨true, none,
        .runtimeStart ⟨[], [], []⟩ RuntimeInit [ascii "--abi-list=armeabi-v7a"] false⟩ ∧
      ¬ ∀ (e : Env) (argv : List Bytes), Consistent e argv (main e argv) := by
  have run : main arm [] = ⟨true, none,
      .runtimeStart ⟨[], [], []⟩ RuntimeInit [ascii "--abi-list=armeabi-v7a"] false⟩ := by decide
  refine ⟨run, fun consistent => ?_⟩
  have usage := ((consistent arm []).usage (by decide) (by decide)).1
  rw [run] at usage
  cases usage

end Xposed.AppProcess
