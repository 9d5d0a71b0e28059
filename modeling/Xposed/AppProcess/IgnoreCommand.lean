import Xposed.AppProcess.StartMode

/-!
# The commands that Xposed ignores

`xposed.cpp`: `shouldIgnoreCommand`, with the arguments that `main` hands to
`initialize`. `main` finds the class name behind any number of options, and
`shouldIgnoreCommand` looks for the command of `am` at a fixed index.
-/

namespace Xposed.AppProcess

open Fork (ascii)

def Am : Bytes := ascii "com.android.commands.am.Am"

/-- The loop over the arguments of the command, with `mightBeSuperuser`. -/
def scanArgs : List Bytes → Bool → Bool
  | [], _ => false
  | arg :: rest, mightBeSuperuser =>
    if arg = ascii "com.noshufou.android.su.RESULT" ∨
        arg = ascii "eu.chainfire.supersu.NativeAccess" then true
    else if mightBeSuperuser ∧ arg = ascii "--user" then true
    else
      match strrchr arg 46 with
      | none => scanArgs rest mightBeSuperuser
      | some lastComponent =>
        if lastComponent = ascii ".RequestActivity" ∨ lastComponent = ascii ".NotifyActivity" ∨
            lastComponent = ascii ".SuReceiver" then scanArgs rest true
        else scanArgs rest mightBeSuperuser

def shouldIgnoreCommand (startClassName : Bytes) : List Bytes → Bool
  | _ :: _ :: command :: arg :: rest =>
    if startClassName ≠ Am then false
    else if command ≠ ascii "broadcast" ∧ command ≠ ascii "start" then false
    else scanArgs (arg :: rest) false
  -- `argc < 4`
  | _ => false

/-- What the loops of `main` find out, and the arguments behind it. -/
def commandLine (lp64 : Bool) (argv : List Bytes) : Parsed × List Bytes :=
  parseArgs lp64 ((vmOptions argv).2.drop 1) .start

theorem main_commandLine (e : Env) (argv : List Bytes) : main e argv =
    startMode e (vmOptions argv).1 (commandLine e.lp64 argv).1 (commandLine e.lp64 argv).2 :=
  rfl

/-! ## The block of the arguments -/

/-- `AppRuntime::setArgv0`, which is not part of the source. The arguments are
pointers into the block that it rewrites, so each of them becomes the end of a
name. -/
structure ArgBlock where
  /-- What the arguments read when the process has got its name. -/
  setArgv0 : Bytes → List Bytes → List Bytes
  endings : ∀ name argv, (setArgv0 name argv).Pairwise fun a b => b <:+ a

/-- What the pointers `argv` read when their block holds `block` and then NULs. -/
def pointers (block : Bytes) : List Bytes → List Bytes
  | [] => []
  | arg :: rest => block :: pointers (block.drop (arg.length + 1)) rest

theorem pointers_suffix {block : Bytes} {argv : List Bytes} {a : Bytes}
    (mem : a ∈ pointers block argv) : a <:+ block := by
  induction argv generalizing block with
  | nil => cases mem
  | cons arg rest ih =>
    rcases List.mem_cons.mp mem with rfl | later
    · exact List.suffix_rfl
    · exact (ih later).trans (List.drop_suffix _ block)

theorem pointers_endings (block : Bytes) (argv : List Bytes) :
    (pointers block argv).Pairwise fun a b => b <:+ a := by
  induction argv generalizing block with
  | nil => exact .nil
  | cons arg rest ih =>
    rw [pointers, List.pairwise_cons]
    exact ⟨fun b later => (pointers_suffix later).trans (List.drop_suffix _ block), ih _⟩

/-- The block is filled as in `setProcessName`, and starts with `program`. -/
def ArgBlock.behind (program : Bytes) : ArgBlock where
  setArgv0 name argv :=
    let argBlockLength := ((program :: argv).flatMap (· ++ [0])).length
    pointers (((cstr name).take (argBlockLength - 1)).drop (program.length + 1)) argv
  endings _ _ := pointers_endings _ _

/-- The arguments as `initialize` gets them. -/
def ArgBlock.seen (block : ArgBlock) (p : Parsed) (argv : List Bytes) : List Bytes :=
  if p.niceName = [] then argv else block.setArgv0 p.niceName argv

def IsCommand (command : Bytes) : Prop := command = ascii "broadcast" ∨ command = ascii "start"

/-- The argument of a Superuser implementation. -/
def Named (arg : Bytes) : Prop :=
  arg = ascii "com.noshufou.android.su.RESULT" ∨ arg = ascii "eu.chainfire.supersu.NativeAccess"

/-- The last component of the argument, behind a dot, is one of theirs. -/
def Activity (arg : Bytes) : Prop :=
  ∃ package component, arg = package ++ 46 :: component ∧ 46 ∉ component ∧
    (component = ascii "RequestActivity" ∨ component = ascii "NotifyActivity" ∨
      component = ascii "SuReceiver")

/-- The arguments of the command are those of a Superuser implementation. -/
def Superuser (args : List Bytes) : Prop :=
  (∃ arg ∈ args, Named arg) ∨
    ∃ front activity back, args = front ++ activity :: back ∧ Activity activity ∧
      ascii "--user" ∈ back

/-- The class and its arguments are a command that is to be ignored. -/
def ToIgnore (className : Bytes) (args : List Bytes) : Prop :=
  className = Am ∧ ∃ command later, args = command :: later ∧ IsCommand command ∧ Superuser later

theorem commandLine_reads (lp64 : Bool) (argv : List Bytes) :
    ((commandLine lp64 argv).1.className, (commandLine lp64 argv).2) = classAndArgs argv := by
  have reads := (parseArgs_reads lp64 ((vmOptions argv).2.drop 1) (p := .start) rfl).classAndArgs
  rw [commandLine, vmOptions_eq, classAndArgs]
  rwa [vmOptions_eq] at reads

/-- The argument at index 2 reads as the command. -/
def CommandThird (argv : List Bytes) : Prop :=
  ∃ command, argv[2]? = some command ∧ IsCommand command

theorem toIgnore_third (className : Bytes) (argv : List Bytes) :
    ToIgnore className (argv.drop 2) ↔
      className = Am ∧ CommandThird argv ∧ Superuser (argv.drop 3) := by
  match argv with
  | [] | [_] | [_, _] => simp [ToIgnore, CommandThird]
  | _ :: _ :: third :: rest =>
    constructor
    · rintro ⟨am, command, later, split, known, superuser⟩
      obtain ⟨rfl, rfl⟩ := List.cons.inj split
      exact ⟨am, ⟨third, rfl, known⟩, superuser⟩
    · rintro ⟨am, ⟨command, here, known⟩, superuser⟩
      obtain rfl := Option.some.inj here
      exact ⟨am, third, rest, rfl, known, superuser⟩

/-- What stands in front of the class name does no harm. -/
structure Placed (read : Parsed × List Bytes) (argv : List Bytes) : Prop where
  /-- A command that is to be ignored gives the process no name, and it comes
  third, or what comes third reads as one. -/
  found : read.1.zygote = false → ToIgnore read.1.className read.2 →
    read.1.niceName = [] ∧ CommandThird argv
  /-- If it is the parent directory that reads as a command, then what reads as
  its arguments are the arguments of one. -/
  mistaken : read.1.zygote = false → read.1.className = Am → read.1.niceName = [] →
    CommandThird argv → Superuser (argv.drop 3) → ToIgnore read.1.className read.2

theorem isCommand_plain {command : Bytes} (isCommand : IsCommand command) :
    command.head? ≠ some 45 ∧ known command = false ∧
      (ascii "--").isPrefixOf command = false ∧ command ≠ Am := by
  rcases isCommand with rfl | rfl <;> decide

theorem vmOptions_cases (arg : Bytes) (rest : List Bytes) :
    (vmOptions (arg :: rest)).2 = arg :: rest ∨ (vmOptions (arg :: rest)).2 = rest ∨
      (vmOptions (arg :: rest)).2 = (vmOptions rest).2 := by
  rw [vmOptions]
  by_cases plain : arg.head? ≠ some 45
  · rw [if_pos plain]
    exact .inl rfl
  · by_cases ends : arg = ascii "--"
    · rw [if_neg plain, if_pos ends]
      exact .inr (.inl rfl)
    · rw [if_neg plain, if_neg ends]
      exact .inr (.inr rfl)

/-- The parent directory comes first, in front of what comes second, or a command
comes behind it, or it comes third. -/
theorem dir_cases {first second third : Bytes} (isCommand : IsCommand third) (rest : List Bytes) :
    internal (first :: second :: third :: rest) = second :: third :: rest ∨
      internal (first :: second :: third :: rest) = third :: rest ∨
      (vmOptions (first :: second :: third :: rest)).2 = third :: rest := by
  have last : (vmOptions (third :: rest)).2 = third :: rest := by
    rw [vmOptions, if_pos (isCommand_plain isCommand).1]
  rw [← vmOptions_eq]
  rcases vmOptions_cases first (second :: third :: rest) with here | next | later
  · rw [here]
    exact .inl rfl
  · rw [next]
    exact .inr (.inl rfl)
  · rw [later]
    rcases vmOptions_cases second (third :: rest) with here | next | later
    · rw [here]
      exact .inr (.inl rfl)
    · exact .inr (.inr next)
    · exact .inr (.inr (later.trans last))

/-- A command behind nothing but options is the class name. -/
theorem classAndArgs_command {command : Bytes} (isCommand : IsCommand command)
    {argv options rest : List Bytes} (behind : internal argv = options ++ command :: rest)
    (are_known : ∀ option ∈ options, known option = true) :
    classAndArgs argv = (command, rest) := by
  obtain ⟨_, other, name, _⟩ := isCommand_plain isCommand
  rw [classAndArgs, behind, List.dropWhile_append_of_pos are_known,
    List.dropWhile_cons_of_neg (by simp [other])]
  simp only [name, Bool.false_eq_true, if_false]

/-- A command that comes third is that of the class in front of it, unless it is
the parent directory. -/
theorem third_cases {argv args : List Bytes} (am : classAndArgs argv = (Am, args))
    (third : CommandThird argv) : args = argv.drop 2 ∨ (vmOptions argv).2 = argv.drop 2 := by
  obtain ⟨command, here, isCommand⟩ := third
  match argv with
  | [] | [_] | [_, _] => cases here
  | first :: second :: _ :: rest =>
    obtain rfl := Option.some.inj here
    obtain ⟨_, _, _, apart⟩ := isCommand_plain isCommand
    rcases dir_cases isCommand rest with inFront | behind | dir
    · by_cases option : known second = true
      · rw [classAndArgs_command isCommand (inFront.trans (List.singleton_append ..).symm) (by simpa using option)] at am
        exact absurd (congrArg Prod.fst am) apart
      · rw [classAndArgs, inFront, List.dropWhile_cons_of_neg option] at am
        dsimp only at am
        split at am
        · have nothing : [] = Am := congrArg Prod.fst am
          exact absurd nothing (by decide)
        · exact .inl (congrArg Prod.snd am).symm
    · rw [classAndArgs_command isCommand (behind.trans (List.nil_append _).symm) (by simp)] at am
      exact absurd (congrArg Prod.fst am) apart
    · exact .inr dir

/-- The parent directory comes third, and reads as the command. -/
def DirThird (argv : List Bytes) : Prop :=
  CommandThird argv ∧ (vmOptions argv).2 = argv.drop 2

/-- Where what comes third is no parent directory, it is mistaken for nothing. -/
theorem toIgnore_of_third {lp64 : Bool} {argv : List Bytes}
    (am : (commandLine lp64 argv).1.className = Am) (third : CommandThird argv)
    (superuser : Superuser (argv.drop 3)) (other : ¬ DirThird argv) :
    ToIgnore (commandLine lp64 argv).1.className (commandLine lp64 argv).2 := by
  have reads := (commandLine_reads lp64 argv).symm
  rw [am] at reads
  rcases third_cases reads third with args | dir
  · rw [args, am]
    exact (toIgnore_third Am argv).mpr ⟨rfl, third, superuser⟩
  · exact absurd ⟨third, dir⟩ other

/-- Nothing but the parent directory is mistaken for the command. -/
theorem placed_iff (lp64 : Bool) (argv : List Bytes) :
    Placed (commandLine lp64 argv) argv ↔
      ((commandLine lp64 argv).1.zygote = false →
        ToIgnore (commandLine lp64 argv).1.className (commandLine lp64 argv).2 →
          (commandLine lp64 argv).1.niceName = [] ∧ CommandThird argv) ∧
      (DirThird argv → (commandLine lp64 argv).1.zygote = false →
        (commandLine lp64 argv).1.className = Am → (commandLine lp64 argv).1.niceName = [] →
          Superuser (argv.drop 3) →
            ToIgnore (commandLine lp64 argv).1.className (commandLine lp64 argv).2) := by
  constructor
  · rintro ⟨found, mistaken⟩
    exact ⟨found, fun dir tool am plain => mistaken tool am plain dir.1⟩
  · rintro ⟨found, mistaken⟩
    refine ⟨found, fun tool am plain third superuser => ?_⟩
    by_cases dir : DirThird argv
    · exact mistaken dir tool am plain superuser
    · exact toIgnore_of_third am third superuser dir

/-- As the script for `am` starts it, with nothing but the parent directory in
front of the class. -/
theorem commandLine_script (lp64 : Bool) {dir : Bytes} (plain : dir.head? ≠ some 45)
    (args : List Bytes) :
    commandLine lp64 (dir :: Am :: args) = ({ Parsed.start with className := Am }, args) := by
  rw [commandLine, vmOptions, if_pos plain, List.drop_one, List.tail_cons, parseArgs]
  rw [if_neg (by decide), if_neg (by decide), if_neg (by decide), if_neg (by decide),
    if_pos (by decide)]

theorem placed_script (lp64 : Bool) {dir : Bytes} (plain : dir.head? ≠ some 45)
    (args : List Bytes) :
    Placed (commandLine lp64 (dir :: Am :: args)) (dir :: Am :: args) := by
  have first : ¬ DirThird (dir :: Am :: args) := by
    rintro ⟨_, behind⟩
    rw [vmOptions, if_pos plain] at behind
    have shorter := congrArg List.length behind
    simp only [List.length_cons, List.drop_succ_cons, List.drop_zero] at shorter
    omega
  refine (placed_iff lp64 (dir :: Am :: args)).mpr ⟨?_, fun third => absurd third first⟩
  rw [commandLine_script lp64 plain]
  rintro _ ⟨_, command, later, rfl, known, _⟩
  exact ⟨rfl, command, rfl, known⟩

end Xposed.AppProcess
