import Xposed.Lib.ForkTree
import Xposed.Libc

/-!
# Who may call the memory-based service

The three globals `shared`, `zygotePid` and `canAlwaysAccessService`, the
mappings they talk about, and what becomes of both in a process tree.
-/

namespace Xposed.Membased

open ForkTree (Past Pid Process)

/-- The name of one `MemBasedState` in shared memory. -/
abbrev Block := Nat

/-- The globals of one process and its mappings of shared blocks, each with its
`MADV_DONTFORK`. `shared` is `none` for `NULL`, `zygotePid` for 0, which is no
process's pid. -/
structure Memory where
  shared : Option Block
  zygotePid : Option Pid
  canAlwaysAccessService : Bool
  maps : Block → Option Bool

/-- The globals as they are initialized, and no block mapped. -/
def Memory.start : Memory := ⟨none, none, false, fun _ => none⟩

def Memory.mapped (m : Memory) (b : Block) : Prop := m.maps b ≠ none

instance (m : Memory) (b : Block) : Decidable (m.mapped b) :=
  inferInstanceAs (Decidable (m.maps b ≠ none))

/-- `init` in process `pid`; `mmap` is the block it gets, or `none`. -/
def Memory.init (pid : Pid) (mmap : Option Block) (m : Memory) : Bool × Memory :=
  match mmap with
  | none => (false, { m with shared := none })
  | some b =>
    (true,
      { shared := some b
        zygotePid := some pid
        canAlwaysAccessService := true
        maps := Function.update m.maps b (some false) })

/-- `madvise` does nothing to a range that is not mapped. -/
def Memory.restrictMemoryInheritance (m : Memory) : Memory :=
  { m with
    maps := fun b => if m.shared = some b then (m.maps b).map fun _ => true else m.maps b
    canAlwaysAccessService := false }

def Memory.isServiceAccessible (pid : Pid) (m : Memory) : Bool × Memory :=
  if !m.canAlwaysAccessService && (m.shared.isNone || m.zygotePid != some pid) then
    (false, { m with shared := none })
  else (true, m)

/-- The guard lets process `pid` through and changes nothing, or it refuses and
clears `shared`. -/
inductive Memory.Guarded (pid : Pid) (m : Memory) : Bool × Memory → Prop where
  | accessible
      (may : m.canAlwaysAccessService = true ∨ m.shared ≠ none ∧ m.zygotePid = some pid) :
      Guarded pid m (true, m)
  | refused (shut : m.canAlwaysAccessService = false)
      (other : m.shared = none ∨ m.zygotePid ≠ some pid) :
      Guarded pid m (false, { m with shared := none })

theorem Memory.isServiceAccessible_guarded (pid : Pid) (m : Memory) :
    m.Guarded pid (m.isServiceAccessible pid) := by
  unfold isServiceAccessible
  split
  · rename_i refused
    simp only [Bool.and_eq_true, Bool.not_eq_true', Bool.or_eq_true, Option.isNone_iff_eq_none,
      bne_iff_ne] at refused
    exact .refused refused.1 refused.2
  · rename_i accessible
    apply Guarded.accessible
    cases always : m.canAlwaysAccessService with
    | true => exact .inl rfl
    | false =>
      right
      simpa [always, Option.isNone_iff_eq_none] using accessible

theorem Memory.isServiceAccessible_iff {pid : Pid} {m : Memory} :
    (m.isServiceAccessible pid).1 = true ↔
      m.canAlwaysAccessService = true ∨ m.shared ≠ none ∧ m.zygotePid = some pid := by
  have guarded := m.isServiceAccessible_guarded pid
  generalize m.isServiceAccessible pid = r at guarded ⊢
  cases guarded with
  | accessible may => exact ⟨fun _ => may, fun _ => rfl⟩
  | refused shut other =>
    refine ⟨fun now => absurd now (by simp), ?_⟩
    rintro (always | ⟨shared, own⟩)
    · simp [shut] at always
    · exact absurd other (by simp [shared, own])

/-- A child has the globals, and the mappings that may be forked. -/
def Memory.inherit (m : Memory) : Memory :=
  { m with maps := fun b => if m.maps b = some false then some false else none }

inductive Act where
  | init (mmap : Option Block)
  | restrictMemoryInheritance
  /-- A service call, as far as it depends on the globals. -/
  | call
  deriving DecidableEq

def Act.run (pid : Pid) (a : Act) (m : Memory) : Memory :=
  match a with
  | .init mmap => (m.init pid mmap).2
  | .restrictMemoryInheritance => m.restrictMemoryInheritance
  | .call => (m.isServiceAccessible pid).2

def processes : ForkTree.Code Memory Act := ⟨Act.run, Memory.inherit⟩

abbrev Tree := ForkTree.World Memory Act

/-- Who ran the newest successful `init` of a lineage. -/
def maker : List (Past Act) → Option Pid
  | [] => none
  | .act p (.init (some _)) :: _ => some p
  | _ :: older => maker older

/-- There is one, and no `restrictMemoryInheritance` since then. -/
def unrestricted : List (Past Act) → Bool
  | [] => false
  | .act _ (.init (some _)) :: _ => true
  | .act _ .restrictMemoryInheritance :: _ => false
  | _ :: older => unrestricted older

/-- Process `pid` made its block itself, or its chain of forks left the process
that did before the inheritance was restricted. -/
def Entitled (pid : Pid) (lineage : List (Past Act)) : Prop :=
  maker lineage = some pid ∨ unrestricted lineage = true

instance (pid : Pid) (l : List (Past Act)) : Decidable (Entitled pid l) :=
  inferInstanceAs (Decidable (_ ∨ _))

/-- The processes that `init` made Zygotes stay alive. -/
abbrev ZygotesStay (w : Tree) : ForkTree.Label Act → Prop :=
  ForkTree.AnchorsStay Memory.zygotePid w

/-- No `init` fails where an earlier one has succeeded. -/
def InitOnce (w : Tree) : ForkTree.Label Act → Prop
  | .act p (.init none) => ∀ x, w p = some x → ¬ Entitled p x.lineage
  | _ => True

instance (w : Tree) (l : ForkTree.Label Act) : Decidable (InitOnce w l) := by
  unfold InitOnce
  split
  · rename_i p
    cases w p <;> simp <;> infer_instance
  · infer_instance

/-! ## The globals along a lineage -/

theorem names_zygotePid : ForkTree.Names processes Memory.zygotePid where
  act p a m := by
    cases a with
    | init mmap =>
      cases mmap with
      | none => exact .inl rfl
      | some b => exact .inr rfl
    | restrictMemoryInheritance => exact .inl rfl
    | call =>
      change (m.isServiceAccessible p).2.zygotePid = _ ∨ _
      have guarded := m.isServiceAccessible_guarded p
      generalize m.isServiceAccessible p = r at guarded ⊢
      cases guarded <;> exact .inl rfl
  inherit _ := rfl

/-- What the globals of process `pid` say about its lineage and its mappings. -/
structure Kept (pid : Pid) (x : Process Memory Act) : Prop where
  zygotePid : x.memory.zygotePid = maker x.lineage
  canAlways : x.memory.canAlwaysAccessService = unrestricted x.lineage
  /-- An unrestricted block is mapped, and children get it too. -/
  inherited : unrestricted x.lineage = true →
    ∃ b, x.memory.shared = some b ∧ x.memory.maps b = some false
  own : maker x.lineage = some pid → ∃ b, x.memory.shared = some b ∧ x.memory.mapped b

theorem start_kept (pid : Pid) : Kept pid ⟨Memory.start, []⟩ :=
  ⟨rfl, rfl, by simp [unrestricted], by simp [maker]⟩

theorem init_kept {pid : Pid} {x : Process Memory Act} {mmap : Option Block} (h : Kept pid x)
    (once : mmap = none → ¬ Entitled pid x.lineage) :
    Kept pid (processes.did pid (.init mmap) x) := by
  cases mmap with
  | some b =>
    have mapped : (Function.update x.memory.maps b (some false)) b = some false := by simp
    exact ⟨rfl, rfl, fun _ => ⟨b, rfl, mapped⟩, fun _ => ⟨b, rfl, by
      simp [Memory.mapped, ForkTree.Code.did, processes, Act.run, Memory.init]⟩⟩
  | none =>
    have out := once rfl
    refine ⟨h.zygotePid, h.canAlways, fun now => ?_, fun now => ?_⟩
    · exact absurd (.inr now) out
    · exact absurd (.inl now) out

theorem restrict_kept {pid : Pid} {x : Process Memory Act} (h : Kept pid x) :
    Kept pid (processes.did pid .restrictMemoryInheritance x) := by
  refine ⟨h.zygotePid, rfl, fun now => ?_, fun now => ?_⟩
  · simp [ForkTree.Code.did, unrestricted] at now
  · obtain ⟨b, shared, mapped⟩ := h.own now
    refine ⟨b, shared, ?_⟩
    simpa [Memory.mapped, ForkTree.Code.did, processes, Act.run, Memory.restrictMemoryInheritance,
      shared] using mapped

theorem call_kept {pid : Pid} {x : Process Memory Act} (h : Kept pid x) :
    Kept pid (processes.did pid .call x) := by
  have guarded := x.memory.isServiceAccessible_guarded pid
  have memory : (processes.did pid .call x).memory = (x.memory.isServiceAccessible pid).2 := rfl
  generalize x.memory.isServiceAccessible pid = r at guarded memory
  cases guarded with
  | accessible =>
    constructor <;> rw [memory]
    · exact h.zygotePid
    · exact h.canAlways
    · exact h.inherited
    · exact h.own
  | refused shut other =>
    -- what the guard clears is of no use to the process
    constructor <;> rw [memory]
    · exact h.zygotePid
    · exact h.canAlways
    · intro now
      exact absurd ((h.canAlways.trans now).symm.trans shut) (by simp)
    · intro now
      obtain ⟨b, shared, _⟩ := h.own now
      rcases other with null | other
      · simp [shared] at null
      · exact absurd (h.zygotePid.trans now) other

theorem born_kept {parent child : Pid} {x : Process Memory Act} (h : Kept parent x)
    (other : x.memory.zygotePid ≠ some child) : Kept child (processes.born parent child x) := by
  refine ⟨h.zygotePid, h.canAlways, fun now => ?_, fun now => ?_⟩
  · obtain ⟨b, shared, mapped⟩ := h.inherited now
    exact ⟨b, shared, if_pos mapped⟩
  · exact absurd (h.zygotePid.trans now) other

/-- A tree that begins with one process, before anything has run in it. -/
def root (zygote : Pid) : Tree := ForkTree.single zygote ⟨Memory.start, []⟩

theorem root_anchored (zygote : Pid) : ForkTree.Anchored Memory.zygotePid (root zygote) := by
  intro p x q live named
  obtain ⟨_, rfl⟩ := ForkTree.single_eq_some live
  cases named

theorem reachable_kept {zygote : Pid} {w : Tree}
    (h : ForkTree.Reachable processes (root zygote) (fun w l => ZygotesStay w l ∧ InitOnce w l) w) :
    ∀ p x, w p = some x → Kept p x := by
  apply h.each Kept
  · intro p x live
    obtain ⟨_, rfl⟩ := ForkTree.single_eq_some live
    exact start_kept p
  · intro w p a x _ hok live kept
    cases a with
    | init mmap =>
      refine init_kept kept fun fails => ?_
      subst fails
      exact hok.2 x live
    | restrictMemoryInheritance => exact restrict_kept kept
    | call => exact call_kept kept
  · intro w p c x hw _ live free kept
    have anchored := ForkTree.anchors_live names_zygotePid (fun _ _ ok => ok.1)
      (root_anchored zygote) hw
    exact born_kept kept (ForkTree.fresh_unnamed anchored live free)

/-- **The guard tells who has the block**, in every process of every tree in
which no `init` fails after one that succeeded: it lets a process through just
if that one is entitled, and then the block is mapped there. -/
theorem guard_exact {zygote : Pid} {w : Tree}
    (h : ForkTree.Reachable processes (root zygote) (fun w l => ZygotesStay w l ∧ InitOnce w l) w)
    {p : Pid} {x : Process Memory Act} (live : w p = some x) :
    ((x.memory.isServiceAccessible p).1 = true →
      ∃ b, x.memory.shared = some b ∧ x.memory.mapped b) ∧
    ((x.memory.isServiceAccessible p).1 = true ↔ Entitled p x.lineage) := by
  have kept := reachable_kept h p x live
  have entitled : Entitled p x.lineage → ∃ b, x.memory.shared = some b ∧ x.memory.mapped b := by
    rintro (made | unrestricted)
    · exact kept.own made
    · obtain ⟨b, shared, maps⟩ := kept.inherited unrestricted
      exact ⟨b, shared, by simp [Memory.mapped, maps]⟩
  have same : (x.memory.isServiceAccessible p).1 = true ↔ Entitled p x.lineage := by
    rw [Memory.isServiceAccessible_iff, kept.canAlways, kept.zygotePid]
    constructor
    · rintro (always | ⟨_, made⟩)
      · exact .inr always
      · exact .inl made
    · intro now
      obtain ⟨b, shared, _⟩ := entitled now
      rcases now with made | always
      · exact .inr ⟨by simp [shared], made⟩
      · exact .inl always
  exact ⟨fun now => entitled (same.mp now), same⟩

/-- Zygote makes the block, forks a child, restricts the inheritance, forks
another, and both children call the service. -/
def boot : List (ForkTree.Label Act) :=
  [.act 1 (.init (some 0)), .fork 1 2, .act 1 .restrictMemoryInheritance, .fork 1 3, .act 3 .call,
    .act 2 .call]

theorem boot_guarded : ∃ w, ForkTree.execAll processes (fun w l => ZygotesStay w l ∧ InitOnce w l)
      (root 1) boot = some w ∧ ∃ early late, w 2 = some early ∧ w 3 = some late ∧
    (∃ b, early.memory.shared = some b ∧ early.memory.mapped b) ∧
    ((late.memory.isServiceAccessible 3).1 = true ↔ Entitled 3 late.lineage) := by
  obtain ⟨w, run, early, late, he, hl, accessible⟩ : ∃ w, ForkTree.execAll processes
      (fun w l => ZygotesStay w l ∧ InitOnce w l) (root 1) boot = some w ∧
      ∃ early late, w 2 = some early ∧ w 3 = some late ∧
        (early.memory.isServiceAccessible 2).1 = true := ⟨_, rfl, _, _, rfl, rfl, rfl⟩
  have reached := ForkTree.execAll_reachable .start run
  exact ⟨w, run, early, late, he, hl, (guard_exact reached he).1 accessible,
    (guard_exact reached hl).2⟩

/-- A second `init` that fails leaves `shared` cleared and the flag set. -/
theorem init_twice : ¬ ∀ zygote w, ForkTree.Reachable processes (root zygote) ZygotesStay w →
    ∀ p x, w p = some x →
      ((x.memory.isServiceAccessible p).1 = true →
        ∃ b, x.memory.shared = some b ∧ x.memory.mapped b) ∧
      (Entitled p x.lineage → (x.memory.isServiceAccessible p).1 = true) := by
  intro guarded
  obtain ⟨w, run, x, live, accessible, null⟩ : ∃ w, ForkTree.execAll processes ZygotesStay (root 1)
      [.act 1 (.init (some 0)), .act 1 (.init none)] = some w ∧ ∃ x, w 1 = some x ∧
      (x.memory.isServiceAccessible 1).1 = true ∧ x.memory.shared = none := ⟨_, rfl, _, rfl, rfl, rfl⟩
  obtain ⟨b, shared, _⟩ := (guarded 1 w (ForkTree.execAll_reachable .start run) 1 x live).1 accessible
  simp [null] at shared

end Xposed.Membased
