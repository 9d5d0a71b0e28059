import Xposed.AppProcess.ProcessName

/-!
# `app_process` before Android 5

`app_main.cpp`: `main`, behind `handleOptions`. It takes the first argument that
it does not know for the class name, whatever it is, and overwrites no argument
but the first one with the name of the process.
-/

namespace Xposed.AppProcess.Old

open CStrings (Memory layout strAt)
open Fork (ascii)

/-- `AndroidRuntime::addVmArguments`, which is not part of the source.
"Everything up to '--' or first non '-' arg goes to the vm". -/
structure AddVmArguments where
  addVmArguments : List Bytes → Nat
  behind : ∀ argv, argv.drop (addVmArguments argv) = (vmOptions argv).2

/-- The variables that the loop sets. `NULL` is `none`. -/
structure Parsed where
  zygote : Bool
  startSystemServer : Bool
  application : Bool
  parentDir : Option Bytes
  niceName : Option Bytes
  className : Option Bytes
  deriving DecidableEq

def Parsed.start : Parsed := ⟨false, false, false, none, none, none⟩

/-- The loop, and the arguments behind it. -/
def parseArgs : List Bytes → Parsed → Parsed × List Bytes
  | [], p => (p, [])
  | arg :: rest, p =>
    if p.parentDir = none then parseArgs rest { p with parentDir := some arg }
    else if arg = ascii "--zygote" then
      parseArgs rest { p with zygote := true, niceName := some (ascii "zygote") }
    else if arg = ascii "--start-system-server" then
      parseArgs rest { p with startSystemServer := true }
    else if arg = ascii "--application" then parseArgs rest { p with application := true }
    else if (ascii "--nice-name=").isPrefixOf arg then
      parseArgs rest { p with niceName := some (arg.drop 12) }
    else ({ p with className := some arg }, rest)

def commandLine (vm : AddVmArguments) (argv : List Bytes) : Parsed × List Bytes :=
  parseArgs (argv.drop (vm.addVmArguments argv)) .start

inductive Ending where
  /-- The usage is printed, and `LOG_ALWAYS_FATAL` aborts before `main` returns. -/
  | usageFatal
  | start (mClassName : Option Bytes) (mArgV : List Bytes) (className options : Bytes)
  deriving DecidableEq

/-- The end of `main`, where `initialize_` is what `xposed::initialize` returns
for its first three arguments. -/
def chooseMode (initialize_ : Bool → Bool → Option Bytes → Bool) (p : Parsed) (rest : List Bytes) :
    Ending :=
  let isXposedLoaded := initialize_ p.zygote p.startSystemServer p.className
  if p.zygote then
    .start none [] (if isXposedLoaded then XPOSED_CLASS_DOTS_ZYGOTE else ZygoteInit)
      (if p.startSystemServer then ascii "start-system-server" else [])
  else
    match p.className with
    | some className =>
      .start (some className) rest (if isXposedLoaded then XPOSED_CLASS_DOTS_TOOLS else RuntimeInit)
        (if p.application then ascii "application" else ascii "tool")
    | none => .usageFatal

/-- `main`, with the arguments behind `argv[0]`. -/
def main (vm : AddVmArguments) (initialize_ : Bool → Bool → Option Bytes → Bool)
    (argv : List Bytes) : Ending :=
  chooseMode initialize_ (commandLine vm argv).1 (commandLine vm argv).2

/-! ## What both versions read -/

/-- The first argument that is none of the options, and those behind it. -/
def unknown (args : List Bytes) : Option Bytes × List Bytes :=
  match args.dropWhile known with
  | [] => (none, [])
  | arg :: rest => (some arg, rest)

/-- The same has been read by both. -/
structure Same (old : Parsed) (new : AppProcess.Parsed) : Prop where
  zygote : old.zygote = new.zygote
  startSystemServer : old.startSystemServer = new.startSystemServer
  application : old.application = new.application

theorem parseArgs_same (lp64 : Bool) (args : List Bytes) {old : Parsed} {new : AppProcess.Parsed}
    (same : Same old new) (dir : old.parentDir ≠ none) (none_ : old.className = none) :
    Same (parseArgs args old).1 (AppProcess.parseArgs lp64 args new).1 ∧
      ((parseArgs args old).1.className, (parseArgs args old).2) = unknown args := by
  induction args generalizing old new with
  | nil => exact ⟨same, congrArg (·, []) none_⟩
  | cons arg rest ih =>
    rw [parseArgs, AppProcess.parseArgs, if_neg dir]
    have skips (is_known : known arg = true) : unknown (arg :: rest) = unknown rest := by
      rw [unknown, List.dropWhile_cons_of_pos is_known]
      rfl
    by_cases zygote : arg = ascii "--zygote"
    · rw [if_pos zygote, if_pos zygote, skips (by simp [known, zygote])]
      exact ih ⟨rfl, same.startSystemServer, same.application⟩ dir none_
    rw [if_neg zygote, if_neg zygote]
    by_cases startSystemServer : arg = ascii "--start-system-server"
    · rw [if_pos startSystemServer, if_pos startSystemServer,
        skips (by simp [known, startSystemServer])]
      exact ih ⟨same.zygote, rfl, same.application⟩ dir none_
    rw [if_neg startSystemServer, if_neg startSystemServer]
    by_cases application : arg = ascii "--application"
    · rw [if_pos application, if_pos application, skips (by simp [known, application])]
      exact ih ⟨same.zygote, same.startSystemServer, rfl⟩ dir none_
    rw [if_neg application, if_neg application]
    by_cases niceName : (ascii "--nice-name=").isPrefixOf arg = true
    · rw [if_pos niceName, if_pos niceName, skips (by simp [known, niceName])]
      exact ih ⟨same.zygote, same.startSystemServer, same.application⟩ dir none_
    rw [if_neg niceName, if_neg niceName]
    have stops : ¬ known arg = true := by
      simp [known, zygote, startSystemServer, application, niceName]
    have here : unknown (arg :: rest) = (some arg, rest) := by
      rw [unknown, List.dropWhile_cons_of_neg stops]
    rw [here]
    refine ⟨?_, rfl⟩
    split
    · exact ⟨same.zygote, same.startSystemServer, same.application⟩
    · exact ⟨same.zygote, same.startSystemServer, same.application⟩

theorem commandLine_same (vm : AddVmArguments) (lp64 : Bool) (argv : List Bytes) :
    Same (commandLine vm argv).1 (AppProcess.commandLine lp64 argv).1 ∧
      ((commandLine vm argv).1.className, (commandLine vm argv).2) = unknown (internal argv) := by
  rw [commandLine, vm.behind, AppProcess.commandLine, ← vmOptions_eq]
  cases (vmOptions argv).2 with
  | nil => exact ⟨⟨rfl, rfl, rfl⟩, rfl⟩
  | cons dir rest =>
    have first : parseArgs (dir :: rest) .start =
        parseArgs rest { Parsed.start with parentDir := some dir } := if_pos rfl
    rw [first, List.drop_one, List.tail_cons]
    exact parseArgs_same lp64 rest ⟨rfl, rfl, rfl⟩ (Option.some_ne_none dir) rfl

/-- What the old `main` has read before it chooses the mode. -/
theorem commandLine_reads (vm : AddVmArguments) (argv : List Bytes) :
    (commandLine vm argv).1.zygote = decide (given "--zygote" argv) ∧
      (commandLine vm argv).1.startSystemServer = decide (given "--start-system-server" argv) ∧
      (commandLine vm argv).1.application = decide (given "--application" argv) ∧
      ((commandLine vm argv).1.className, (commandLine vm argv).2) = unknown (internal argv) := by
  obtain ⟨same, className⟩ := commandLine_same vm false argv
  obtain ⟨zygote, startSystemServer, application, _⟩ :=
    parseArgs_reads false ((vmOptions argv).2.drop 1) (p := .start) rfl
  rw [vmOptions_eq] at zygote startSystemServer application
  rw [same.zygote, same.startSystemServer, same.application, AppProcess.commandLine, vmOptions_eq]
  exact ⟨zygote, startSystemServer, application, className⟩

/-! ## What is started -/

inductive Start where
  | zygote (startSystemServer : Bool)
  | tool (application : Bool) (className : Bytes) (args : List Bytes)
  | usage

/-- What an end of the old `main` means. -/
inductive Starts : Ending → Start → Prop where
  | zygote {className : Bytes} {startSystemServer : Bool}
      (class_ : className = XPOSED_CLASS_DOTS_ZYGOTE ∨ className = ZygoteInit) :
      Starts (.start none [] className
        (if startSystemServer then ascii "start-system-server" else [])) (.zygote startSystemServer)
  | tool {className mClassName : Bytes} {args : List Bytes} {application : Bool}
      (class_ : className = XPOSED_CLASS_DOTS_TOOLS ∨ className = RuntimeInit) :
      Starts (.start (some mClassName) args className
        (if application then ascii "application" else ascii "tool"))
        (.tool application mClassName args)
  | usage : Starts .usageFatal .usage

/-- What an end of the new `main` means. Zygote needs the list of ABIs, and must
have no class name. -/
inductive StartsNew (e : Env) : AppProcess.Ending → Start → Prop where
  | zygote {options rest : List Bytes} {className : Bytes} {startSystemServer : Bool}
      (class_ : className = XPOSED_CLASS_DOTS_ZYGOTE ∨ className = ZygoteInit) :
      StartsNew e (.runtimeStart ⟨options, [], []⟩ className
        ((if startSystemServer then [ascii "start-system-server"] else []) ++
          [ascii "--abi-list=" ++ e.abiList] ++ rest) true) (.zygote startSystemServer)
  | tool {options args : List Bytes} {className mClassName : Bytes} {application : Bool}
      (class_ : className = XPOSED_CLASS_DOTS_TOOLS ∨ className = RuntimeInit)
      (named : mClassName ≠ []) :
      StartsNew e (.runtimeStart ⟨options, mClassName, args⟩ className
        [if application then ascii "application" else ascii "tool"] false)
        (.tool application mClassName args)
  | usage : StartsNew e .usageFatal .usage

/-- What the arguments ask for, if the class name is the first one that is unknown. -/
def asked (argv : List Bytes) : Start :=
  if given "--zygote" argv then .zygote (given "--start-system-server" argv)
  else
    match unknown (internal argv) with
    | (none, _) => .usage
    | (some className, args) => .tool (given "--application" argv) className args

/-- The old `main` starts what it is asked for. -/
theorem main_starts (vm : AddVmArguments) (initialize_ : Bool → Bool → Option Bytes → Bool)
    (argv : List Bytes) : Starts (main vm initialize_ argv) (asked argv) := by
  obtain ⟨zygote, startSystemServer, application, className⟩ := commandLine_reads vm argv
  unfold main chooseMode asked
  rw [← className, zygote, startSystemServer, application]
  by_cases mode : given "--zygote" argv
  · simp only [mode, decide_true, if_true]
    apply Starts.zygote
    split <;> simp
  · simp only [mode, decide_false, if_false, Bool.false_eq_true]
    cases (commandLine vm argv).1.className with
    | none => exact .usage
    | some className =>
      apply Starts.tool
      split <;> simp

/-! ## When the new `main` starts the same -/

theorem startMode_unnamed_eq (e : Env) (options : List Bytes) {p : AppProcess.Parsed}
    (rest : List Bytes) (unnamed : p.className = []) : (startMode e options p rest).ending =
      if (maybeCreateDalvikCache e).2 = true ∧ e.abiList ≠ [] then
        AppProcess.chooseMode e p ⟨options, [], []⟩
          ((if p.startSystemServer then [ascii "start-system-server"] else []) ++
            [ascii "--abi-list=" ++ e.abiList] ++ rest)
      else .fatal := by
  simp only [startMode, unnamed, ne_eq, not_true_eq_false, if_false]
  cases (maybeCreateDalvikCache e).2 with
  | false => simp
  | true =>
    by_cases list : e.abiList = []
    · simp [list]
    · simp [list]

/-- The class name of the new `main`, where the old one has one. -/
theorem classAndArgs_unknown (argv : List Bytes) : classAndArgs argv =
    match unknown (internal argv) with
    | (none, _) => ([], [])
    | (some arg, rest) =>
      if (ascii "--").isPrefixOf arg then ([], arg :: rest) else (arg, rest) := by
  unfold classAndArgs unknown
  cases (internal argv).dropWhile known <;> rfl

theorem unknown_named {argv : List Bytes} (named : (classAndArgs argv).1 ≠ []) :
    unknown (internal argv) = (some (classAndArgs argv).1, (classAndArgs argv).2) := by
  have same := classAndArgs_unknown argv
  cases found : unknown (internal argv) with
  | mk className rest =>
    rw [found] at same
    cases className with
    | none =>
      rw [same] at named
      exact absurd rfl named
    | some arg =>
      by_cases dashes : (ascii "--").isPrefixOf arg = true
      · simp only [if_pos dashes] at same
        rw [same] at named
        exact absurd rfl named
      · simp only [if_neg dashes] at same
        rw [same]

/-- Whatever `initialize` returns, the runtime is started with the same arguments. -/
theorem chooseMode_starts (e : Env) (p : AppProcess.Parsed) (runtime : AppRuntime)
    (args : List Bytes) : ∃ className,
      AppProcess.chooseMode e p runtime args = .runtimeStart runtime className args p.zygote ∧
      if p.zygote then className = XPOSED_CLASS_DOTS_ZYGOTE ∨ className = ZygoteInit
      else className = XPOSED_CLASS_DOTS_TOOLS ∨ className = RuntimeInit := by
  unfold AppProcess.chooseMode notNull
  cases p.zygote with
  | false =>
    refine ⟨_, rfl, ?_⟩
    cases e.initialize_ false false (some p.className) <;> simp
  | true =>
    refine ⟨_, rfl, ?_⟩
    cases e.initialize_ true p.startSystemServer none <;> simp

variable {e : Env} {argv options args : List Bytes} {p : AppProcess.Parsed}

/-- A tool has a class name, and Zygote none. -/
theorem StartsNew.named {runtime : AppRuntime} {className : Bytes} {args : List Bytes}
    {zygote : Bool} {s : Start}
    (starts : StartsNew e (.runtimeStart runtime className args zygote) s) :
    zygote = true ↔ runtime.mClassName = [] := by
  cases starts with
  | zygote class_ => exact iff_of_true rfl rfl
  | tool class_ named => exact iff_of_false Bool.false_ne_true named

/-- Either Zygote is asked for, which can have what it needs, or a class. -/
def OneOf (e : Env) (argv : List Bytes) : Prop :=
  (given "--zygote" argv ∧ (classAndArgs argv).1 = [] ∧ (maybeCreateDalvikCache e).2 = true ∧
    e.abiList ≠ []) ∨ (¬ given "--zygote" argv ∧ (classAndArgs argv).1 ≠ [])

theorem oneOf_of_starts (zygote : p.zygote = decide (given "--zygote" argv))
    (rest : (p.className, args) = classAndArgs argv) {s : Start}
    (starts : StartsNew e (startMode e options p args).ending s) : OneOf e argv := by
  have className : p.className = (classAndArgs argv).1 := congrArg Prod.fst rest
  by_cases named : p.className = []
  · rw [startMode_unnamed_eq e options args named] at starts
    split at starts
    · rename_i ready
      obtain ⟨_, ends, _⟩ := chooseMode_starts e p ⟨options, [], []⟩
        ((if p.startSystemServer then [ascii "start-system-server"] else []) ++
          [ascii "--abi-list=" ++ e.abiList] ++ args)
      rw [ends] at starts
      have mode := starts.named.mpr rfl
      rw [zygote, decide_eq_true_eq] at mode
      exact .inl ⟨mode, className.symm.trans named, ready⟩
    · cases starts
  · rw [startMode_named e options args named] at starts
    obtain ⟨_, ends, _⟩ := chooseMode_starts e p ⟨options, p.className, args⟩
      [if p.application then ascii "application" else ascii "tool"]
    rw [ends] at starts
    refine .inr ⟨fun mode => named (starts.named.mp ?_), className ▸ named⟩
    rw [zygote]
    exact decide_eq_true mode

theorem starts_of_oneOf (zygote : p.zygote = decide (given "--zygote" argv))
    (startSystemServer : p.startSystemServer = decide (given "--start-system-server" argv))
    (application : p.application = decide (given "--application" argv))
    (rest : (p.className, args) = classAndArgs argv) (oneOf : OneOf e argv) :
    StartsNew e (startMode e options p args).ending (asked argv) := by
  have className : p.className = (classAndArgs argv).1 := congrArg Prod.fst rest
  obtain ⟨mode, unnamed, ready⟩ | ⟨mode, named⟩ := oneOf
  · have inMode := zygote.trans (decide_eq_true mode)
    rw [startMode_unnamed_eq e options args (className.trans unnamed), if_pos ready, asked,
      if_pos mode, ← startSystemServer]
    obtain ⟨_, ends, class_⟩ := chooseMode_starts e p ⟨options, [], []⟩
      ((if p.startSystemServer then [ascii "start-system-server"] else []) ++
        [ascii "--abi-list=" ++ e.abiList] ++ args)
    rw [inMode, if_pos rfl] at class_
    rw [ends, inMode]
    exact .zygote class_
  · have inMode := zygote.trans (decide_eq_false mode)
    rw [startMode_named e options args (by rwa [className]), asked, if_neg mode, unknown_named named,
      ← rest, ← application]
    obtain ⟨_, ends, class_⟩ := chooseMode_starts e p ⟨options, p.className, args⟩
      [if p.application then ascii "application" else ascii "tool"]
    rw [inMode, if_neg Bool.false_ne_true] at class_
    rw [ends, inMode]
    exact .tool class_ (by rwa [className])

/-- **Both versions start the same** exactly if the arguments ask for one thing
only: for Zygote without a class name, where its cache directory and the list of
ABIs are there, or for a class without `--zygote`. -/
theorem mains_agree_iff (vm : AddVmArguments) (initialize_ : Bool → Bool → Option Bytes → Bool)
    (e : Env) (argv : List Bytes) :
    (∃ s, Starts (main vm initialize_ argv) s ∧ StartsNew e (AppProcess.main e argv).ending s) ↔
      OneOf e argv := by
  obtain ⟨zygote, startSystemServer, application, rest⟩ := main_reads e argv
  rw [main_commandLine]
  constructor
  · rintro ⟨s, _, starts⟩
    exact oneOf_of_starts zygote rest starts
  · intro oneOf
    exact ⟨asked argv, main_starts vm initialize_ argv,
      starts_of_oneOf zygote startSystemServer application rest oneOf⟩

/-! ## The commands that Xposed ignores -/

/-- `shouldIgnoreCommand`, which compares the class name if there are enough
arguments. `none`: it is `NULL`. -/
def shouldIgnoreCommand (startClassName : Option Bytes) (argv : List Bytes) : Option Bool :=
  if argv.length < 4 then some false
  else startClassName.map fun className => AppProcess.shouldIgnoreCommand className argv

/-- What has been read is a command that is to be ignored. -/
def ToIgnore (read : Parsed × List Bytes) : Prop :=
  read.1.zygote = false ∧
    ∃ className, read.1.className = some className ∧ AppProcess.ToIgnore className read.2

/-- Neither the class name nor what stands in front of it does any harm. -/
structure Placed (read : Parsed × List Bytes) (argv : List Bytes) : Prop where
  /-- Without a class name, there are too few arguments to look at it. -/
  named : read.1.zygote = false → read.1.className = none → argv.length < 4
  found : ToIgnore read → CommandThird argv
  mistaken : read.1.zygote = false → read.1.className = some Am → CommandThird argv →
    Superuser (argv.drop 3) → ToIgnore read

end Xposed.AppProcess.Old
