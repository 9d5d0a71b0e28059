import Xposed.Membased.Access
import Xposed.Membased.Client

/-!
# Starting up

`initialize` and the starting of the services, as far as they decide what the
process that runs them, and those it forks later, have of the shared block.
-/

namespace Xposed

open ForkTree (Pid)
open Membased (Act Block Call Memory Tree processes)

/-- What the calls in `startAll` and `startMembased` give. A fork that succeeds
is `true`, in the parent. -/
structure Starting where
  mmap : Option Block
  forkSystem : Bool
  forkApp : Bool
  forkMembased : Bool
  /-- The looper runs before the wait for it times out. -/
  running : Bool

/-- The arguments of `initialize` and what the functions it calls return. -/
structure Boot where
  /-- `XPOSED_ENABLE_FOR_TOOLS` -/
  enableForTools : Bool
  zygote : Bool
  startSystemServer : Bool
  isMinimalFramework : Bool
  determineXposedInstallerUidGid : Bool
  starting : Starting
  isSafemodeDisabled : Bool
  isDisabled : Bool
  shouldIgnoreCommand : Bool
  addJarToClasspath : Bool

def waitForRunning (e : Starting) (m : Memory) : Bool := m.shared.isSome && e.running

def checkMembasedRunning (e : Starting) (m : Memory) : Bool := waitForRunning e m

/-- In the process that calls it. The children never return. -/
def startAll (isSELinuxEnabled : Bool) (e : Starting) (pid : Pid) (m : Memory) : Bool × Memory :=
  let (made, m) := if isSELinuxEnabled then m.init pid e.mmap else (true, m)
  if !made then (false, m)
  else if !e.forkSystem then (false, m)
  else if !e.forkApp then (false, m)
  else if isSELinuxEnabled && !checkMembasedRunning e m then (false, m)
  else (true, m)

def startMembased (isSELinuxEnabled : Bool) (e : Starting) (pid : Pid) (m : Memory) :
    Bool × Memory :=
  if !isSELinuxEnabled then (true, m)
  else
    let (made, m) := m.init pid e.mmap
    if !made then (false, m)
    else if !e.forkMembased then (false, m)
    else (checkMembasedRunning e m, m)

/-- What `zygote_access` does to the globals. -/
def zygoteAccess (isSELinuxEnabled : Bool) (pid : Pid) (m : Memory) : Memory :=
  if isSELinuxEnabled then (m.isServiceAccessible pid).2 else m

/-- The part of `initialize` behind `restrictMemoryInheritance`. -/
def loadXposed (isSELinuxEnabled : Bool) (e : Boot) (pid : Pid) (m : Memory) : Bool × Memory :=
  let m := if e.zygote then zygoteAccess isSELinuxEnabled pid m else m
  -- `shouldSkipSafemodeDelay` asks the service once more
  let m := if e.zygote && !e.isSafemodeDisabled then zygoteAccess isSELinuxEnabled pid m else m
  let m := zygoteAccess isSELinuxEnabled pid m
  if e.isDisabled || (!e.zygote && e.shouldIgnoreCommand) then (false, m)
  else (e.addJarToClasspath, m)

/-- `initialize`: what it returns and what it leaves of the globals. -/
def initializeXposed (isSELinuxEnabled : Bool) (e : Boot) (pid : Pid) (m : Memory) : Bool × Memory :=
  if !e.enableForTools && !e.zygote then (false, m)
  else if e.isMinimalFramework then (false, m)
  else
    let (started, m) :=
      if e.startSystemServer then
        if !e.determineXposedInstallerUidGid then (false, m)
        else startAll isSELinuxEnabled e.starting pid m
      else if isSELinuxEnabled then startMembased isSELinuxEnabled e.starting pid m
      else (true, m)
    if !started then (false, m)
    else
      let m := if isSELinuxEnabled then m.restrictMemoryInheritance else m
      loadXposed isSELinuxEnabled e pid m

/-- `initialize` gets as far as the services. -/
def Boot.reachesServices (e : Boot) : Bool :=
  (e.enableForTools || e.zygote) && !e.isMinimalFramework &&
    (!e.startSystemServer || e.determineXposedInstallerUidGid)

/-- Every fork for a service succeeds and the looper comes up in time. -/
def Boot.servicesRun (e : Boot) : Bool :=
  (if e.startSystemServer then e.starting.forkSystem && e.starting.forkApp
    else e.starting.forkMembased) && e.starting.running

/-- The shared block is made, and then a fork fails or the looper does not come
up in time. -/
def Boot.halfStarted (e : Boot) : Bool :=
  e.reachesServices && e.starting.mmap.isSome && !e.servicesRun

/-! ## The processes forked later -/

/-- After `initialize`, processes fork, call the service and exit, all but the
one that ran it. -/
def Later (pid : Pid) (_ : Tree) : ForkTree.Label Act → Prop
  | .act _ a => a = .call
  | .fork _ _ => True
  | .exit p => p ≠ pid

/-- Every service call in process `pid` is refused with `EPERM`. -/
def Refused (pid : Pid) (m : Memory) : Prop :=
  ∀ call : Call, ∃ out, call.refusal (m.isServiceAccessible pid).1 = some out ∧
    out.failed = true ∧ out.errno = EPERM

/-- No process forked from process `pid`, which has memory `m`, reaches the service. -/
def Sealed (pid : Pid) (m : Memory) : Prop :=
  ∀ w, ForkTree.Reachable processes (ForkTree.single pid ⟨m, []⟩) (Later pid) w →
    ∀ p x, w p = some x → p ≠ pid → (∀ b, ¬ x.memory.mapped b) ∧ Refused p x.memory

/-- The service is out of reach for all but process `zygote`. -/
structure Tight (zygote : Pid) (m : Memory) : Prop where
  shut : m.canAlwaysAccessService = false
  own : m.shared ≠ none → m.zygotePid = some zygote
  maps : ∀ b, m.maps b ≠ some false

theorem Tight.call {zygote pid : Pid} {m : Memory} (h : Tight zygote m) :
    Tight zygote (m.isServiceAccessible pid).2 := by
  have guarded := m.isServiceAccessible_guarded pid
  generalize m.isServiceAccessible pid = r at guarded ⊢
  cases guarded with
  | accessible => exact h
  | refused => exact ⟨h.shut, by simp, h.maps⟩

theorem call_maps (pid : Pid) (m : Memory) : (m.isServiceAccessible pid).2.maps = m.maps := by
  have guarded := m.isServiceAccessible_guarded pid
  generalize m.isServiceAccessible pid = r at guarded ⊢
  cases guarded <;> rfl

theorem Tight.inherit {zygote : Pid} {m : Memory} (h : Tight zygote m) : Tight zygote m.inherit :=
  ⟨h.shut, h.own, fun b => by simp [Memory.inherit, h.maps b]⟩

theorem Tight.refused {zygote pid : Pid} {m : Memory} (h : Tight zygote m) (other : pid ≠ zygote) :
    Refused pid m := by
  have shut : (m.isServiceAccessible pid).1 = false := by
    rw [← Bool.not_eq_true, Memory.isServiceAccessible_iff]
    rintro (always | ⟨shared, own⟩)
    · simp [h.shut] at always
    · have same := (h.own shared).symm.trans own
      exact other (Option.some.inj same).symm
  intro call
  rw [shut]
  cases call <;> exact ⟨_, rfl, rfl, rfl⟩

/-- Children of a tight process find no block mapped. -/
theorem Tight.sealed {zygote : Pid} {m : Memory} (h : Tight zygote m) : Sealed zygote m := by
  intro w reached
  have here : ∀ w, ForkTree.Reachable processes (ForkTree.single zygote ⟨m, []⟩) (Later zygote) w →
      w zygote ≠ none :=
    fun w reached => reached.stays (by simp [ForkTree.single]) fun w stays => stays rfl
  have inv := reached.each
    (fun p x => Tight zygote x.memory ∧ (p ≠ zygote → ∀ b, ¬ x.memory.mapped b)) ?_ ?_ ?_
  · intro p x live other
    exact ⟨(inv p x live).2 other, (inv p x live).1.refused other⟩
  · intro p x live
    obtain ⟨rfl, rfl⟩ := ForkTree.single_eq_some live
    exact ⟨h, fun other => absurd rfl other⟩
  · rintro w p a x _ ok _ ⟨tight, unmapped⟩
    cases ok
    refine ⟨tight.call, fun other b => ?_⟩
    have maps : (processes.did p .call x).memory.maps = x.memory.maps := call_maps p x.memory
    rw [Memory.mapped, maps]
    exact unmapped other b
  · rintro w p c x _ _ _ _ ⟨tight, _⟩
    refine ⟨tight.inherit, fun _ b => ?_⟩
    simp [ForkTree.Code.born, processes, Memory.mapped, Memory.inherit, tight.maps b]

/-- A child finds the blocks that may be forked. -/
theorem not_sealed {pid : Pid} {m : Memory} {b : Block} (h : m.maps b = some false) :
    ¬ Sealed pid m := by
  intro hidden
  have other : pid + 1 ≠ pid := Nat.succ_ne_self pid
  have step : ForkTree.Step processes (ForkTree.single pid ⟨m, []⟩) (.fork pid (pid + 1)) _ :=
    .fork _ pid (pid + 1) ⟨m, []⟩ (by simp [ForkTree.single]) (by simp [ForkTree.single])
  have allowed : Later pid (ForkTree.single pid ⟨m, []⟩) (.fork pid (pid + 1)) := trivial
  have forked := Run.Reachable.next .start allowed step
  have born : processes.born pid (pid + 1) (⟨m, []⟩ : ForkTree.Process Memory Act) =
      ⟨m.inherit, [.fork pid (pid + 1)]⟩ := rfl
  refine (hidden _ forked (pid + 1) _ (Function.update_self ..) other).1 b ?_
  simp [born, Memory.mapped, Memory.inherit, h]

/-! ## Every way through `initialize` -/

theorem start_tight (zygote : Pid) : Tight zygote Memory.start :=
  ⟨rfl, by simp [Memory.start], by simp [Memory.start]⟩

/-- The globals behind an `init` that gets block `b`. -/
def made (pid : Pid) (b : Block) : Memory := (Memory.start.init pid (some b)).2

theorem made_restricted (pid : Pid) (b : Block) : Tight pid (made pid b).restrictMemoryInheritance := by
  refine ⟨rfl, fun _ => rfl, fun c => ?_⟩
  by_cases same : b = c
  · subst same
    simp [made, Memory.init, Memory.restrictMemoryInheritance]
  · simp [made, Memory.init, Memory.restrictMemoryInheritance, same, Ne.symm same, Memory.start]

/-- A service call that is made or not. -/
theorem Tight.zygoteAccess {zygote : Pid} {m : Memory} (h : Tight zygote m) (pid : Pid) (b : Bool) :
    Tight zygote (if b then Xposed.zygoteAccess true pid m else m) := by
  split
  · exact h.call
  · exact h

theorem loadXposed_tight {zygote pid : Pid} {m : Memory} (e : Boot) (h : Tight zygote m) :
    Tight zygote (loadXposed true e pid m).2 := by
  unfold loadXposed
  dsimp only
  have first := h.zygoteAccess pid e.zygote
  have second := first.zygoteAccess pid (e.zygote && !e.isSafemodeDisabled)
  split <;> exact second.call

theorem startAll_start (e : Starting) (pid : Pid) : startAll true e pid Memory.start =
    match e.mmap with
    | none => (false, Memory.start)
    | some b => (e.forkSystem && e.forkApp && e.running, made pid b) := by
  cases h : e.mmap with
  | none => simp [startAll, h, Memory.init, Memory.start]
  | some b =>
    cases hs : e.forkSystem <;> cases ha : e.forkApp <;> cases hr : e.running <;>
      simp [startAll, h, hs, ha, hr, made, Memory.init, checkMembasedRunning, waitForRunning]

theorem startMembased_start (e : Starting) (pid : Pid) : startMembased true e pid Memory.start =
    match e.mmap with
    | none => (false, Memory.start)
    | some b => (e.forkMembased && e.running, made pid b) := by
  cases h : e.mmap with
  | none => simp [startMembased, h, Memory.init, Memory.start]
  | some b =>
    cases hf : e.forkMembased <;> cases hr : e.running <;>
      simp [startMembased, h, hf, hr, made, Memory.init, checkMembasedRunning, waitForRunning]

theorem initialize_stops {e : Boot} (pid : Pid) (h : e.reachesServices = false) :
    initializeXposed true e pid Memory.start = (false, Memory.start) := by
  unfold initializeXposed
  split
  · rfl
  · rename_i entered
    split
    · rfl
    · rename_i full
      have stops : e.startSystemServer = true ∧ e.determineXposedInstallerUidGid = false := by
        cases hz : e.zygote <;> simp_all [Boot.reachesServices]
      simp [stops]

theorem initialize_goes_on {e : Boot} (pid : Pid) (h : e.reachesServices = true) :
    initializeXposed true e pid Memory.start =
      match e.starting.mmap with
      | none => (false, Memory.start)
      | some b =>
        if e.servicesRun then loadXposed true e pid (made pid b).restrictMemoryInheritance
        else (false, made pid b) := by
  simp only [Boot.reachesServices, Bool.and_eq_true, Bool.not_eq_true'] at h
  obtain ⟨⟨entered, full⟩, uid⟩ := h
  have enters : (!e.enableForTools && !e.zygote) = false := by
    cases hz : e.zygote <;> simp_all
  unfold initializeXposed Boot.servicesRun
  cases system : e.startSystemServer with
  | true =>
    have found : e.determineXposedInstallerUidGid = true := by simpa [system] using uid
    cases mmap : e.starting.mmap with
    | none => simp [enters, full, found, startAll_start, mmap]
    | some b =>
      cases run : e.starting.forkSystem && e.starting.forkApp && e.starting.running <;>
        simp [enters, full, found, startAll_start, mmap, run]
  | false =>
    cases mmap : e.starting.mmap with
    | none => simp [enters, full, startMembased_start, mmap]
    | some b =>
      cases run : e.starting.forkMembased && e.starting.running <;>
        simp [enters, full, startMembased_start, mmap, run]

theorem initialize_tight {e : Boot} (pid : Pid) (h : e.halfStarted = false) :
    Tight pid (initializeXposed true e pid Memory.start).2 := by
  cases reaches : e.reachesServices with
  | false =>
    rw [initialize_stops pid reaches]
    exact start_tight pid
  | true =>
    rw [initialize_goes_on pid reaches]
    cases mmap : e.starting.mmap with
    | none => exact start_tight pid
    | some b =>
      have run : e.servicesRun = true := by simpa [Boot.halfStarted, reaches, mmap] using h
      simpa [run] using loadXposed_tight e (made_restricted pid b)

theorem initialize_open {e : Boot} (pid : Pid) (h : e.halfStarted = true) :
    ∃ b, initializeXposed true e pid Memory.start = (false, made pid b) := by
  simp only [Boot.halfStarted, Bool.and_eq_true, Bool.not_eq_true', Option.isSome_iff_exists] at h
  obtain ⟨⟨reaches, b, mmap⟩, run⟩ := h
  exact ⟨b, by simp [initialize_goes_on pid reaches, mmap, run]⟩

/-- **Later processes are kept from the service** by `initialize` exactly if it
does not give up half-way: whatever it returns and whatever tree is forked from
its process afterwards, no other process in it has the shared block mapped, and
every service call there is refused with `EPERM`. -/
theorem children_sealed (e : Boot) (pid : Pid) :
    Sealed pid (initializeXposed true e pid Memory.start).2 ↔ e.halfStarted = false := by
  constructor
  · intro hidden
    by_contra half
    obtain ⟨b, gave_up⟩ := initialize_open pid (by simpa using half)
    rw [gave_up] at hidden
    exact not_sealed (b := b) (by simp [made, Memory.init]) hidden
  · intro whole
    exact (initialize_tight pid whole).sealed

/-- The fork for the app service fails in the Zygote that starts the system server. -/
def appForkFails : Boot where
  enableForTools := false
  zygote := true
  startSystemServer := true
  isMinimalFramework := false
  determineXposedInstallerUidGid := true
  starting := ⟨some 0, true, false, true, true⟩
  isSafemodeDisabled := true
  isDisabled := false
  shouldIgnoreCommand := false
  addJarToClasspath := true

/-- Its child finds the block mapped. -/
theorem apps_inherit : ¬ ∀ e pid, Sealed pid (initializeXposed true e pid Memory.start).2 := by
  intro hidden
  have gave_up : (initializeXposed true appForkFails 1 Memory.start).2 = made 1 0 := rfl
  have shut := hidden appForkFails 1
  rw [gave_up] at shut
  exact not_sealed (b := 0) rfl shut

end Xposed
