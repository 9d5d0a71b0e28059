import Xposed.AppProcess.IgnoreCommand
import Xposed.Lib.CStrings

/-!
# The name of the process

The name is written over the arguments that the process was started with: over
the first one by `setArgv0` of `app_main.cpp`, over all of them by `setProcessName`.
-/

namespace Xposed.AppProcess

open CStrings (Memory Block layout strAt)
open Fork (ascii)

/-- `argBlockStart` and `argBlockLength`, as `handleOptions` finds them, and
`computeArgBlockSize`. -/
def argBlock (mem : Memory) (argv : List Nat) : Option (Nat × Nat) := do
  let start ← argv.head?
  let last ← argv.getLast?
  let text ← strAt mem last
  return (start, last + text.length + 1 - start)

/-- `setArgv0` of `app_main.cpp` -/
def setArgv0 (mem : Memory) (argv0 : Nat) (newArgv0 : Bytes) : Option Memory := do
  let text ← strAt mem argv0
  CStrings.strlcpy mem argv0 newArgv0 text.length

def setProcessName (mem : Memory) (argBlockStart argBlockLength : Nat) (name : Bytes) :
    Option Memory :=
  (CStrings.memset mem argBlockStart 0 argBlockLength).bind fun mem =>
    CStrings.strlcpy mem argBlockStart name argBlockLength

/-- The process gets a name. -/
inductive Naming where
  | setArgv0 (newArgv0 : Bytes)
  | setProcessName (name : Bytes)

def Naming.name : Naming → Bytes
  | .setArgv0 name | .setProcessName name => name

def Naming.run (argBlockStart argBlockLength : Nat) (mem : Memory) : Naming → Option Memory
  | .setArgv0 newArgv0 => AppProcess.setArgv0 mem argBlockStart newArgv0
  | .setProcessName name => AppProcess.setProcessName mem argBlockStart argBlockLength name

/-- A process that finds its arguments and then gets one name after the other. -/
def nameAll (mem : Memory) (argv : List Nat) (namings : List Naming) : Option Memory :=
  (argBlock mem argv).bind fun block =>
    namings.foldlM (Naming.run block.1 block.2) mem

/-- What is left of a name, where another one was shown before. -/
def Naming.shown (argBlockLength : Nat) (before : Bytes) : Naming → Bytes
  | .setArgv0 newArgv0 => newArgv0.take (before.length - 1)
  | .setProcessName name => name.take (argBlockLength - 1)

variable {front back mem : Memory} {total : Nat} {argv0 shown : Bytes} {args : List Bytes}

theorem argBlock_layout (front back : Memory) {argv : List Bytes} (clean : ∀ arg ∈ argv, 0 ∉ arg)
    (some_ : argv ≠ []) : argBlock (front ++ (layout argv ++ back))
      (CStrings.pointers front.length argv) = some (front.length, (layout argv).length) := by
  obtain none | ⟨argv, last, rfl⟩ := List.eq_nil_or_concat argv
  · exact absurd none some_
  · rw [List.concat_eq_append] at clean ⊢
    have first : (CStrings.pointers front.length (argv ++ [last])).head? = some front.length := by
      cases argv <;> rfl
    have final : (CStrings.pointers front.length (argv ++ [last])).getLast? =
        some (front.length + (layout argv).length) := by
      rw [CStrings.pointers_append, List.getLast?_append]
      rfl
    have text : strAt (front ++ (layout (argv ++ [last]) ++ back))
        (front.length + (layout argv).length) = some last := by
      have here : front ++ (layout (argv ++ [last]) ++ back) =
          (front ++ layout argv) ++ (last ++ 0 :: back) := by
        simp [layout]
      rw [here, ← List.length_append]
      exact CStrings.strAt_append _ (clean last (List.mem_append_right argv List.mem_cons_self)) back
    have length : (layout (argv ++ [last])).length = (layout argv).length + last.length + 1 := by
      rw [layout, List.flatMap_append, List.length_append]
      simp [layout, Nat.add_assoc]
    simp only [argBlock, first, final, text, length, Option.bind_eq_bind, Option.bind_some,
      Option.pure_def, Option.some.injEq, Prod.mk.injEq, true_and]
    omega

theorem setArgv0_block (block : Block front back total mem shown) {newArgv0 : Bytes}
    (clean : 0 ∉ newArgv0) : ∃ mem', setArgv0 mem front.length newArgv0 = some mem' ∧
      Block front back total mem' (newArgv0.take (shown.length - 1)) ∧
      mem'.drop (front.length + shown.length) = mem.drop (front.length + shown.length) := by
  unfold setArgv0
  rw [block.first, Option.bind_eq_bind, Option.bind_some]
  by_cases none : shown.length = 0
  · rw [CStrings.strlcpy, if_pos none]
    refine ⟨mem, rfl, ?_, rfl⟩
    have empty : shown = [] := List.eq_nil_of_length_eq_zero none
    rw [empty] at block ⊢
    exact block
  · exact block.strlcpy clean (Nat.pos_of_ne_zero none) (Nat.le_of_lt block.room)

/-- One name: it is cut, and nothing outside of the block changes. -/
theorem Naming.run_block (naming : Naming) (block : Block front back total mem shown)
    (clean : 0 ∉ naming.name) : ∃ mem', naming.run front.length total mem = some mem' ∧
      Block front back total mem' (naming.shown total shown) := by
  have room := block.room
  cases naming with
  | setArgv0 newArgv0 =>
    obtain ⟨mem', copied, after, _⟩ := setArgv0_block block clean
    exact ⟨mem', copied, after⟩
  | setProcessName name =>
    refine ⟨_, block.refilled name, ?_⟩
    apply Block.padded
    · exact fun zero => clean (List.mem_of_mem_take zero)
    · have short : (name.take (total - 1)).length ≤ total - 1 := List.length_take_le _ _
      omega

theorem namings_block (namings : List Naming) (block : Block front back total mem shown)
    (clean : ∀ naming ∈ namings, 0 ∉ naming.name) :
    ∃ mem', namings.foldlM (Naming.run front.length total) mem = some mem' ∧
      Block front back total mem' (namings.foldl (Naming.shown total) shown) := by
  induction namings generalizing mem shown with
  | nil => exact ⟨mem, rfl, block⟩
  | cons naming namings ih =>
    obtain ⟨first, later⟩ := List.forall_mem_cons.mp clean
    obtain ⟨mem', run, after⟩ := naming.run_block block first
    obtain ⟨last, runs, ends⟩ := ih after later
    refine ⟨last, ?_, ends⟩
    rw [List.foldlM_cons, run]
    exact runs

/-- **Names stay in the block of the arguments.** Whatever names the process gets,
and in whatever order, what lies around its arguments does not change, `argv[0]`
is the last name as far as there was room for it, and each argument is still a
string that ends in the block. -/
theorem names_confined (front back : Memory) (argv0 : Bytes) (args : List Bytes)
    (clean : ∀ arg ∈ argv0 :: args, 0 ∉ arg) (namings : List Naming)
    (named : ∀ naming ∈ namings, 0 ∉ naming.name) :
    ∃ mem, nameAll (front ++ (layout (argv0 :: args) ++ back))
        (CStrings.pointers front.length (argv0 :: args)) namings = some mem ∧
      mem.take front.length = front ∧
      mem.drop (front.length + (layout (argv0 :: args)).length) = back ∧
      strAt mem front.length =
        some (namings.foldl (Naming.shown (layout (argv0 :: args)).length) argv0) ∧
      ∀ p ∈ CStrings.pointers front.length (argv0 :: args), ∃ text, strAt mem p = some text ∧
        p + text.length < front.length + (layout (argv0 :: args)).length := by
  have start := Block.start front back args (clean argv0 List.mem_cons_self)
  obtain ⟨mem, runs, block⟩ := namings_block namings start named
  refine ⟨mem, ?_, block.outside.1, block.outside.2, block.first, fun p there => ?_⟩
  · rw [nameAll, argBlock_layout front back clean (List.cons_ne_nil _ _)]
    exact runs
  · have inside := CStrings.mem_pointers there
    obtain ⟨text, reads, ends⟩ := CStrings.strAt_some block.ends (by omega : p ≤ _)
    exact ⟨text, reads, by omega⟩

/-- How init starts Zygote. -/
def zygoteCommand : Bytes × List Bytes :=
  (ascii "/system/bin/app_process",
    [ascii "-Xzygote", ascii "/system/bin", ascii "--zygote", ascii "--start-system-server"])

/-- The daemon for the logcat gets its name after Zygote has got one. -/
theorem logcat_named : ∃ mem, nameAll (7 :: (layout (zygoteCommand.1 :: zygoteCommand.2) ++ [8]))
      (CStrings.pointers 1 (zygoteCommand.1 :: zygoteCommand.2))
      [.setArgv0 (ascii "zygote"), .setProcessName (ascii "xposed_logcat")] = some mem ∧
    mem.take 1 = [7] ∧ strAt mem 1 = some (ascii "xposed_logcat") := by
  obtain ⟨mem, runs, front, _, shown, _⟩ := names_confined [7] [8] zygoteCommand.1 zygoteCommand.2
    (by decide) [.setArgv0 (ascii "zygote"), .setProcessName (ascii "xposed_logcat")] (by decide)
  exact ⟨mem, runs, front, shown⟩

theorem strAt_pointers (front back : Memory) {name : Bytes} (clean : 0 ∉ name) {n k : Nat}
    (args : List Bytes) (ends : 0 < n) (inside : k + (layout args).length ≤ name.length + n) :
    (CStrings.pointers (front.length + k) args).map
        (strAt (front ++ ((name ++ List.replicate n 0) ++ back))) =
      (pointers (name.drop k) args).map some := by
  induction args generalizing k with
  | nil => rfl
  | cons arg args ih =>
    rw [CStrings.layout_length] at inside
    simp only [CStrings.pointers, pointers, List.map_cons]
    congr 1
    · exact CStrings.strAt_padded front clean ends (by omega) back
    · rw [List.drop_drop, ← ih (by omega), Nat.add_assoc, Nat.add_assoc]

/-- `setProcessName` makes of the arguments what `ArgBlock.behind` says. -/
theorem setProcessName_arguments (front back : Memory) {argv0 : Bytes} {args : List Bytes}
    (clean : 0 ∉ argv0) {name : Bytes} (named : 0 ∉ name) :
    ∃ mem, setProcessName (front ++ (layout (argv0 :: args) ++ back)) front.length
        (layout (argv0 :: args)).length name = some mem ∧
      (CStrings.pointers front.length (argv0 :: args)).tail.mapM (strAt mem) =
        some ((ArgBlock.behind argv0).setArgv0 name args) := by
  have start := Block.start front back args clean
  refine ⟨_, start.refilled name, CStrings.mapM_strAt ?_⟩
  have length := CStrings.layout_length argv0 args
  have cut : 0 ∉ name.take ((layout (argv0 :: args)).length - 1) :=
    fun zero => named (List.mem_of_mem_take zero)
  have short := List.length_take_le ((layout (argv0 :: args)).length - 1) name
  have reads := strAt_pointers front back cut args (k := argv0.length + 1)
    (n := (layout (argv0 :: args)).length - (name.take ((layout (argv0 :: args)).length - 1)).length)
    (by omega) (by omega)
  have seen : (ArgBlock.behind argv0).setArgv0 name args =
      pointers ((name.take ((layout (argv0 :: args)).length - 1)).drop (argv0.length + 1)) args := by
    simp only [ArgBlock.behind, cstr_clean named]
    rfl
  rw [seen, ← reads, ← Nat.add_assoc]
  rfl

end Xposed.AppProcess
