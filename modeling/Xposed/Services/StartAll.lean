import Xposed.Binder.Denial
import Xposed.Services.Privileges

/-!
# Starting the services

`startAll` in Zygote, the system and the app service that it forks, the looper
and the service manager, step by step in any order, with calls that fail,
services that die and other processes that call the system service meanwhile.
-/

namespace Xposed.Services

open Credentials
open Binder (Parcel String16 IBinder Platform Files IXposedService XposedService ProxyCall Performed
  Transaction Transacted NO_ERROR EX_HAS_REPLY_HEADER onTransact deliver)

def XPOSED_BINDER_SYSTEM_SERVICE_NAME : String16 :=
  "user.xposed.system".toList.map fun c => c.toNat.toUInt16

def XPOSED_BINDER_APP_SERVICE_NAME : String16 :=
  "user.xposed.app".toList.map fun c => c.toNat.toUInt16

/-- Who had the service manager register a service: the system service its own
or one for a caller, or another process. -/
inductive Via where
  | own
  | proxy (caller : UInt32)
  | other
  deriving DecidableEq

structure Registration where
  name : String16
  service : IBinder
  allowIsolated : Bool
  /-- the process that called the service manager -/
  registrar : Process
  via : Via

/-- Where `startAll` is in Zygote. -/
inductive Parent where
  | init
  | forkSystem
  | forkApp
  | checkMembasedRunning
  | returned (result : Bool)
  deriving DecidableEq

/-- Where a service is. -/
inductive Child where
  | unborn
  | preparing (todo : List Does) (c : Process)
  /-- has the system service's object, as `getService` gave it -/
  | found (object : IBinder) (c : Process)
  | registered (c : Process)
  | serving (c : Process)
  | dead

structure World where
  parent : Parent
  system : Child
  app : Child
  /-- what the service manager registered, the latest first -/
  registry : List Registration
  /-- the looper has been started as a thread -/
  looper : Bool
  /-- `shared->state` is not `STATE_NOT_RUNNING` any more -/
  running : Bool

/-- `systemBinder` and `appBinder` are the objects of the two services. -/
structure Setting where
  xposed : XposedShared
  zygote : Process
  lib : Platform
  systemBinder : IBinder
  appBinder : IBinder

/-- What a method of the system service finds. -/
structure Inputs where
  pid : Int32
  errno : Int32
  files : Files
  locals : Int64 × Int64

inductive Event (P : Type) where
  | init (mmap : Bool)
  | forkSystem (ok : Bool)
  | forkApp (ok : Bool)
  | checkMembasedRunning (timedOut : Bool)
  | systemPrepares (refused : Bool)
  | systemRegisters (err : Int32)
  | appPrepares (refused : Bool)
  /-- `false`: the service manager knows no system service for too long. -/
  | appGetsService (known : Bool)
  /-- `gone` is what `transact` gives when the object is not that of a live system service. -/
  | appAddsService (i : Inputs) (gone : Int32 × P)
  | appCreatesThread (ok : Bool)
  | looperRuns
  | systemDies
  | appDies
  | transacts (uid : UInt32) (code : Transaction) (data : P) (i : Inputs)
  | otherRegisters (r : Registration)

def World.start : World := ⟨.init, .unborn, .unborn, [], false, false⟩

/-- The next of the steps before a service's work. -/
def Child.prepare (refused : Bool) : Child → Option Child
  | .preparing (s :: todo) c =>
    match s.run linux refused c with
    | some d => some (.preparing todo d)
    | none => some .dead
  | _ => none

/-- What of the calls of a method the service manager registered. -/
def registrations (err : Int32) (registrar : Process) (caller : UInt32) (performed : List Performed) :
    List Registration :=
  performed.filterMap fun
    | .addService name service allowIsolated =>
      if err = NO_ERROR then some ⟨name, service, allowIsolated, registrar, .proxy caller⟩ else none
    | _ => none

/-- `getService`: the latest of that name. -/
def getService (registry : List Registration) (name : String16) : Option IBinder :=
  (registry.find? fun r => r.name == name).map Registration.service

section
variable {P : Type} [Parcel P]

/-- The system service's object, for a caller. -/
def Setting.system (S : Setting) (i : Inputs) (uid : UInt32) : IXposedService :=
  (⟨true⟩ : XposedService).methods S.lib ⟨i.pid, uid, S.xposed.installer_uid, i.errno⟩ i.files i.locals

def Setting.registers (S : Setting) (i : Inputs) (registrar : Process) (uid : UInt32)
    (code : Transaction) (data : P) : List Registration :=
  registrations i.files.addService registrar uid
    (onTransact (S.system i uid) code data Parcel.empty).performed

def Setting.appCall (S : Setting) : ProxyCall :=
  .addService XPOSED_BINDER_APP_SERVICE_NAME S.appBinder true

/-- The registration that the system service makes of itself, and those it makes
of the app service for a caller. -/
def Setting.ownEntry (S : Setting) (d : Process) : Registration :=
  ⟨XPOSED_BINDER_SYSTEM_SERVICE_NAME, S.systemBinder, true, d, .own⟩

def Setting.appEntry (S : Setting) (d : Process) (uid : UInt32) : Registration :=
  ⟨XPOSED_BINDER_APP_SERVICE_NAME, S.appBinder, true, d, .proxy uid⟩

/-- `xposedSystemService->addService`: the result, and what the service manager
registers. -/
def Setting.appAddsService (S : Setting) (system : Child) (object : IBinder) (c : Process) (i : Inputs)
    (gone : Int32 × P) : Int32 × List Registration :=
  let uid := c.uid.effective
  match system with
  | .serving d =>
    if object = S.systemBinder then
      ((S.appCall.run (deliver (S.system i uid) : Transaction → P → Int32 × P) i.errno).ret,
        S.registers i d uid .addService ((S.appCall.writeData : StateM P Unit) Parcel.empty).2)
    else ((S.appCall.run (fun _ _ => gone) i.errno).ret, [])
  | _ => ((S.appCall.run (fun _ _ => gone) i.errno).ret, [])

def exec (S : Setting) (w : World) : Event P → Option World
  | .init mmap =>
    match w.parent with
    | .init =>
      if S.xposed.isSELinuxEnabled && !mmap then some { w with parent := .returned false }
      else some { w with parent := .forkSystem }
    | _ => none
  | .forkSystem ok =>
    match w.parent, systemService S.xposed with
    | .forkSystem, some todo =>
      if ok then some { w with parent := .forkApp, system := .preparing todo S.zygote }
      else some { w with parent := .returned false }
    | _, _ => none
  | .forkApp ok =>
    match w.parent, appService S.xposed with
    | .forkApp, some todo =>
      if !ok then some { w with parent := .returned false }
      else if S.xposed.isSELinuxEnabled then
        some { w with parent := .checkMembasedRunning, app := .preparing todo S.zygote }
      else some { w with parent := .returned true, app := .preparing todo S.zygote }
    | _, _ => none
  | .checkMembasedRunning timedOut =>
    match w.parent with
    | .checkMembasedRunning =>
      if timedOut then some { w with parent := .returned false }
      else if w.running then some { w with parent := .returned true }
      else none
    | _ => none
  | .systemPrepares refused => (w.system.prepare refused).map fun system => { w with system }
  | .systemRegisters err =>
    match w.system with
    | .preparing [] d =>
      if err ≠ NO_ERROR then some { w with system := .dead }
      else some { w with system := .serving d, registry := S.ownEntry d :: w.registry }
    | _ => none
  | .appPrepares refused => (w.app.prepare refused).map fun app => { w with app }
  | .appGetsService known =>
    match w.app with
    | .preparing [] c =>
      if known then
        (getService w.registry XPOSED_BINDER_SYSTEM_SERVICE_NAME).map fun object =>
          { w with app := .found object c }
      -- a call through the null pointer
      else some { w with app := .dead }
    | _ => none
  | .appAddsService i gone =>
    match w.app with
    | .found object c =>
      let (err, new) := S.appAddsService w.system object c i gone
      some { w with
        app := if err ≠ NO_ERROR then .dead else .registered c
        registry := new ++ w.registry }
    | _ => none
  | .appCreatesThread ok =>
    match w.app with
    | .registered c =>
      if S.xposed.isSELinuxEnabled then
        if ok then some { w with app := .serving c, looper := true } else some { w with app := .dead }
      else some { w with app := .serving c }
    | _ => none
  | .looperRuns =>
    match w.app with
    | .serving _ => if w.looper then some { w with running := true } else none
    | _ => none
  | .systemDies =>
    match w.system with
    | .unborn => none
    | _ => some { w with system := .dead }
  | .appDies =>
    match w.app with
    | .unborn => none
    | _ => some { w with app := .dead }
  | .transacts uid code data i =>
    match w.system with
    | .serving d => some { w with registry := S.registers i d uid code data ++ w.registry }
    | _ => none
  | .otherRegisters r => some { w with registry := { r with via := .other } :: w.registry }

/-! ## What the system service registers -/

/-- Methods that read files register nothing. -/
theorem reads_register_nothing {self : XposedService} {lib : Platform} {ctx : Binder.Context}
    {files : Files} {locals : Int64 × Int64} {i : Binder.Invocation}
    (other : i.transaction ≠ .addService) (name : String16) (service : IBinder) (isolated : Bool) :
    .addService name service isolated ∉ (i.invoke (self.methods lib ctx files locals)).performed := by
  cases i with
  | test => exact List.not_mem_nil
  | addService => exact absurd rfl other
  | accessFile filename mode =>
    simp only [Binder.Invocation.invoke, XposedService.methods, XposedService.accessFile]
    split
    · simp
    · split <;> simp
  | statFile filename =>
    simp only [Binder.Invocation.invoke, XposedService.methods, XposedService.statFile]
    split
    · simp
    · split <;> simp
  | readFile filename offset length size mtime =>
    have range : ∀ at_, .addService name service isolated ∉
        (XposedService.readRange lib files (lib.string8 filename) at_ offset length).performed := by
      intro at_
      unfold XposedService.readRange
      dsimp only
      repeat' split
      all_goals simp
    simp only [Binder.Invocation.invoke, XposedService.methods, XposedService.readFile]
    repeat' split
    all_goals simp [range]

theorem performed_addService {S : Setting} {i : Inputs} {uid : UInt32} {code : Transaction} {data : P}
    {name : String16} {service : IBinder} {isolated : Bool}
    (h : .addService name service isolated ∈
      (onTransact (S.system i uid) code data Parcel.empty).performed) :
    uid = S.xposed.installer_uid := by
  by_contra other
  cases accepted : ((Binder.checkInterface Binder.descriptor : StateM P Bool) data).1 with
  | false =>
    rw [Binder.onTransact_rejects accepted] at h
    cases h
  | true =>
    obtain ⟨call, _, kind, does⟩ := Binder.onTransact_accepts (S.system i uid) code Parcel.empty accepted
    rw [does] at h
    by_cases adds : call.transaction = .addService
    · obtain ⟨which, b, allow, rfl⟩ : ∃ which b allow, call = .addService which b allow := by
        cases call with
        | addService which b allow => exact ⟨which, b, allow, rfl⟩
        | test | accessFile | statFile | readFile => cases adds
      have nothing : (Binder.Invocation.addService which b allow).invoke (S.system i uid) =
          ⟨.addService (-1), []⟩ :=
        Binder.addService_denied ⟨true⟩ S.lib i.files i.locals which b allow (.inr other)
      rw [nothing] at h
      cases h
    · exact reads_register_nothing adds name service isolated h

theorem mem_registers {S : Setting} {i : Inputs} {d : Process} {uid : UInt32} {code : Transaction}
    {data : P} {r : Registration} (h : r ∈ S.registers i d uid code data) :
    r.registrar = d ∧ r.via = .proxy uid ∧ uid = S.xposed.installer_uid := by
  obtain ⟨call, performed, same⟩ := List.mem_filterMap.mp h
  cases call with
  | addService name service isolated =>
    obtain ⟨_, same⟩ := Option.ite_none_right_eq_some.mp same
    cases same
    exact ⟨rfl, rfl, performed_addService performed⟩
  | access | stat | fopen => cases same

theorem onTransact_performed {s : IXposedService} {code : Transaction} {data reply : P}
    {i : Binder.Invocation} (h : (onTransact s code data reply).invoked = some i) :
    (onTransact s code data reply).performed = (i.invoke s).performed := by
  cases accepted : ((Binder.checkInterface Binder.descriptor : StateM P Bool) data).1 with
  | false =>
    rw [Binder.onTransact_rejects accepted] at h
    cases h
  | true =>
    obtain ⟨call, _, _, does⟩ := Binder.onTransact_accepts s code reply accepted
    rw [does] at h ⊢
    cases h
    rfl

theorem appCall_invoked (S : Setting) (i : Inputs) (uid : UInt32) :
    S.appCall.invocation.invoke (S.system i uid) =
      if uid = S.xposed.installer_uid then
        ⟨.addService i.files.addService,
          [.addService XPOSED_BINDER_APP_SERVICE_NAME S.appBinder true]⟩
      else ⟨.addService (-1), []⟩ := by
  split
  · rename_i own
    simp [Setting.appCall, ProxyCall.invocation, Binder.Invocation.invoke, Setting.system,
      XposedService.methods, XposedService.addService, own]
  · rename_i other
    exact Binder.addService_denied ⟨true⟩ S.lib i.files i.locals _ _ _ (.inr other)

/-- The app service's call of a system service that lives: it fails and nothing
is registered, or the app service is. -/
theorem appCall_answered {S : Setting} {i : Inputs} (d : Process) (uid : UInt32)
    (plain : i.files.addService ≠ EX_HAS_REPLY_HEADER) :
    let ret := (S.appCall.run (deliver (S.system i uid) : Transaction → P → Int32 × P) i.errno).ret
    let new := S.registers i d uid .addService ((S.appCall.writeData : StateM P Unit) Parcel.empty).2
    (ret ≠ NO_ERROR ∧ new = []) ∨ (ret = NO_ERROR ∧ uid = S.xposed.installer_uid ∧
      new = [S.appEntry d uid]) := by
  have plain : (S.appCall.invocation.invoke (S.system i uid)).value.plain := by
    by_cases own : uid = S.xposed.installer_uid
    · rw [appCall_invoked, if_pos own]
      exact plain
    · rw [appCall_invoked, if_neg own]
      exact (by decide : (-1 : Int32) ≠ EX_HAS_REPLY_HEADER)
  obtain ⟨invoked, received⟩ := Binder.run_deliver (P := P) (S.system i uid) S.appCall i.errno plain
  have performed := onTransact_performed invoked
  have same : S.appCall.transaction = .addService := rfl
  rw [same] at performed
  rw [appCall_invoked] at received performed
  dsimp only
  rw [received, Setting.registers, performed]
  by_cases own : uid = S.xposed.installer_uid
  · rw [if_pos own]
    by_cases ok : i.files.addService = NO_ERROR
    · exact .inr ⟨ok, own, by simp [registrations, ok, Setting.appEntry]⟩
    · exact .inl ⟨ok, by simp [registrations, ok]⟩
  · rw [if_neg own]
    exact .inl ⟨(by decide : (-1 : Int32) ≠ NO_ERROR), rfl⟩

/-- A call of an object that is not there fails. -/
theorem appCall_fails (S : Setting) {gone : Int32 × P} (failed : gone.1 ≠ NO_ERROR) (errno : Int32) :
    (S.appCall.run (fun _ _ => gone) errno).ret ≠ NO_ERROR := by
  have same : (S.appCall.run (fun _ _ => gone) errno).ret = gone.1 := by
    simp only [ProxyCall.run, Setting.appCall, ProxyCall.readReply, failed, if_false]
    rfl
  rw [same]
  exact failed

theorem appAddsService_cases (S : Setting) {i : Inputs} (system : Child) (c : Process)
    (plain : i.files.addService ≠ EX_HAS_REPLY_HEADER) {gone : Int32 × P} (failed : gone.1 ≠ NO_ERROR) :
    let out := S.appAddsService system S.systemBinder c i gone
    (out.1 ≠ NO_ERROR ∧ out.2 = []) ∨ (out.1 = NO_ERROR ∧ ∃ d, system = .serving d ∧
      c.uid.effective = S.xposed.installer_uid ∧ out.2 = [S.appEntry d c.uid.effective]) := by
  have lost : (S.appCall.run (fun _ _ => gone) i.errno).ret ≠ NO_ERROR := appCall_fails S failed i.errno
  cases system with
  | serving d =>
    simp only [Setting.appAddsService, if_true]
    rcases appCall_answered (P := P) d c.uid.effective plain with fails | ⟨ok, own, new⟩
    · exact .inl fails
    · exact .inr ⟨ok, d, rfl, own, new⟩
  | unborn | preparing | found | registered | dead => exact .inl ⟨lost, rfl⟩

/-! ## The invariant -/

/-- The kernel may refuse the next step. -/
def Child.Refusable (denied : Call Caps Context → Prop) : Child → Prop
  | .preparing (s :: _) _ => denied s.call
  | _ => True

/-- Calls are refused for a reason, the service manager's errors are not those
of a longer header, an object that is gone does not answer, and nobody else
registers a service under the name of the system service. -/
def Allowed (S : Setting) (denied : Call Caps Context → Prop) (w : World) : Event P → Prop
  | .systemPrepares refused => refused = true → w.system.Refusable denied
  | .appPrepares refused => refused = true → w.app.Refusable denied
  | .appAddsService i gone => i.files.addService ≠ EX_HAS_REPLY_HEADER ∧ gone.1 ≠ NO_ERROR
  | .transacts uid code data i => ∀ d, ∀ r ∈ S.registers i d uid code data,
    r.name ≠ XPOSED_BINDER_SYSTEM_SERVICE_NAME
  | .otherRegisters r => r.name ≠ XPOSED_BINDER_SYSTEM_SERVICE_NAME
  | _ => True

section
variable {S : Setting} {denied : Call Caps Context → Prop} {w v : World}

/-- A service has done so far what it has to do before its work. -/
def Child.Sound (S : Setting) (denied : Call Caps Context → Prop) (service : Service) : Child → Prop
  | .unborn | .dead => True
  | .preparing todo c => ∃ made, service.steps S.xposed = some (made ++ todo) ∧
      Passes linux denied made S.zygote c
  | .found _ c | .registered c | .serving c => service.Starts S.xposed denied S.zygote c

theorem Child.Sound.starts {service : Service} {c : Process}
    (h : (Child.preparing [] c).Sound S denied service) :
    service.Starts S.xposed denied S.zygote c := by
  obtain ⟨made, steps, passes⟩ := h
  rw [List.append_nil] at steps
  exact ⟨made, steps, passes⟩

theorem Child.Sound.prepare {service : Service} {child child' : Child} {refused : Bool}
    (h : child.Sound S denied service) (may : refused = true → child.Refusable denied)
    (does : child.prepare refused = some child') : child'.Sound S denied service := by
  unfold Child.prepare at does
  split at does
  · rename_i s todo c
    obtain ⟨made, steps, passes⟩ := h
    split at does
    · rename_i d ran
      cases does
      refine ⟨made ++ [s], ?_, passes.append (Step.run_passes may ran)⟩
      rw [List.append_assoc]
      exact steps
    · cases does
      trivial
  · cases does

/-- Some time after its own, the system service, as it was then, made the
registration of the app service, for the user of the installer. -/
def Ordered (S : Setting) (denied : Call Caps Context → Prop) (registry : List Registration) : Prop :=
  ∃ d, Service.systemService.Starts S.xposed denied S.zygote d ∧ ∃ later between before,
    registry = later ++ S.appEntry d S.xposed.installer_uid :: (between ++ S.ownEntry d :: before)

theorem Ordered.extend {registry : List Registration} (h : Ordered S denied registry)
    (new : List Registration) : Ordered S denied (new ++ registry) := by
  obtain ⟨d, starts, later, between, before, rfl⟩ := h
  exact ⟨d, starts, new ++ later, between, before, by rw [List.append_assoc]⟩

/-- What holds whatever the order of the steps. -/
structure Inv (S : Setting) (denied : Call Caps Context → Prop) (w : World) : Prop where
  system : w.system.Sound S denied .systemService
  app : w.app.Sound S denied .appService
  served : ∀ d, w.system = .serving d → S.ownEntry d ∈ w.registry
  names : ∀ r ∈ w.registry, r.name = XPOSED_BINDER_SYSTEM_SERVICE_NAME → r.service = S.systemBinder
  proxied : ∀ r ∈ w.registry, ∀ uid, r.via = .proxy uid → uid = S.xposed.installer_uid
  found : ∀ object c, w.app = .found object c → object = S.systemBinder
  ordered : ∀ c, w.app = .registered c ∨ w.app = .serving c → Ordered S denied w.registry
  looper : w.looper = true → Ordered S denied w.registry ∧
    ∃ c, Service.appService.Starts S.xposed denied S.zygote c
  running : w.running = true → w.looper = true
  waiting : w.parent = .checkMembasedRunning → S.xposed.isSELinuxEnabled = true
  returned : w.parent = .returned true → S.xposed.isSELinuxEnabled = true → w.running = true

theorem Inv.start : Inv S denied .start where
  system := trivial
  app := trivial
  served _ h := nomatch h
  names _ h := nomatch h
  proxied _ h := nomatch h
  found _ _ h := nomatch h
  ordered _ h := h.elim nofun nofun
  looper h := nomatch h
  running h := nomatch h
  waiting h := nomatch h
  returned h := nomatch h

/-- Zygote goes on. -/
theorem Inv.parent (h : Inv S denied w) {parent : Parent}
    (waiting : parent = .checkMembasedRunning → S.xposed.isSELinuxEnabled = true)
    (returned : parent = .returned true → S.xposed.isSELinuxEnabled = true → w.running = true) :
    Inv S denied { w with parent } :=
  { h with waiting, returned }

/-- The system service goes on without serving yet, or is gone. -/
theorem Inv.system' (h : Inv S denied w) {system : Child} (sound : system.Sound S denied .systemService)
    (idle : ∀ d, system ≠ .serving d) : Inv S denied { w with system } :=
  { h with
    system := sound
    served := fun d serving => absurd serving (idle d) }

/-- The app service goes on before it has called the system service, or is gone. -/
theorem Inv.app' (h : Inv S denied w) {app : Child} (sound : app.Sound S denied .appService)
    (found : ∀ object c, app = .found object c → object = S.systemBinder)
    (early : ∀ c, app ≠ .registered c ∧ app ≠ .serving c) : Inv S denied { w with app } :=
  { h with
    app := sound
    found
    ordered := fun c at_ =>
      at_.elim (fun at_ => absurd at_ (early c).1) fun at_ => absurd at_ (early c).2 }

/-- Registrations that are not under the name of the system service. -/
theorem Inv.register (h : Inv S denied w) {new : List Registration}
    (names : ∀ r ∈ new, r.name ≠ XPOSED_BINDER_SYSTEM_SERVICE_NAME)
    (proxied : ∀ r ∈ new, ∀ uid, r.via = .proxy uid → uid = S.xposed.installer_uid) :
    Inv S denied { w with registry := new ++ w.registry } :=
  { h with
    served := fun d serving => List.mem_append_right _ (h.served d serving)
    names := fun r member same => by
      rcases List.mem_append.mp member with fresh | old
      · exact absurd same (names r fresh)
      · exact h.names r old same
    proxied := fun r member => by
      rcases List.mem_append.mp member with fresh | old
      · exact proxied r fresh
      · exact h.proxied r old
    ordered := fun c at_ => (h.ordered c at_).extend new
    looper := fun runs => ⟨(h.looper runs).1.extend new, (h.looper runs).2⟩ }

theorem Child.prepare_cases {child child' : Child} {refused : Bool}
    (h : child.prepare refused = some child') :
    (∃ todo c, child' = .preparing todo c) ∨ child' = .dead := by
  unfold Child.prepare at h
  split at h
  · split at h
    · cases h
      exact .inl ⟨_, _, rfl⟩
    · cases h
      exact .inr rfl
  · cases h

theorem getService_mem {registry : List Registration} {name : String16} {object : IBinder}
    (h : getService registry name = some object) :
    ∃ r ∈ registry, r.name = name ∧ r.service = object := by
  obtain ⟨r, found, rfl⟩ := Option.map_eq_some_iff.mp h
  have same := List.find?_some found
  exact ⟨r, List.mem_of_find?_eq_some found, by simpa using same, rfl⟩

theorem names_differ : XPOSED_BINDER_APP_SERVICE_NAME ≠ XPOSED_BINDER_SYSTEM_SERVICE_NAME := by
  decide

/-- The app service has called the system service. -/
theorem Inv.adds (h : Inv S denied w) {object : IBinder} {c : Process} (calls : w.app = .found object c)
    {i : Inputs} {gone : Int32 × P} (plain : i.files.addService ≠ EX_HAS_REPLY_HEADER)
    (failed : gone.1 ≠ NO_ERROR) :
    Inv S denied { w with
      app := if (S.appAddsService w.system object c i gone).1 ≠ NO_ERROR then .dead else .registered c
      registry := (S.appAddsService w.system object c i gone).2 ++ w.registry } := by
  have sound := h.app
  rw [calls] at sound
  obtain rfl := h.found object c calls
  have adds := appAddsService_cases S w.system c plain failed
  revert adds
  generalize S.appAddsService w.system S.systemBinder c i gone = out
  obtain ⟨err, new⟩ := out
  rintro (⟨fails, rfl⟩ | ⟨ok, d, serving, own, rfl⟩)
  · rw [if_pos fails]
    exact h.app' trivial nofun fun _ => ⟨nofun, nofun⟩
  · rw [if_neg (not_not.mpr ok)]
    have names : ∀ r ∈ [S.appEntry d c.uid.effective], r.name ≠ XPOSED_BINDER_SYSTEM_SERVICE_NAME := by
      intro r member
      cases List.mem_singleton.mp member
      exact names_differ
    have proxied : ∀ r ∈ [S.appEntry d c.uid.effective], ∀ uid, r.via = .proxy uid →
        uid = S.xposed.installer_uid := by
      intro r member uid via
      cases List.mem_singleton.mp member
      cases via
      exact own
    have starts := h.system
    rw [serving] at starts
    obtain ⟨between, before, split⟩ := List.append_of_mem (h.served d serving)
    have ordered : Ordered S denied (S.appEntry d c.uid.effective :: w.registry) :=
      ⟨d, starts, [], between, before, by rw [split, own]; rfl⟩
    exact { h.register names proxied with
      app := sound
      found := nofun
      ordered := fun _ _ => ordered }

/-- Every step keeps the invariant. -/
theorem Inv.step {e : Event P} (h : Inv S denied w)
    (allowed : Allowed S denied w e) (does : exec S w e = some v) : Inv S denied v := by
  cases e with
  | init mmap =>
    simp only [exec] at does
    split at does
    · split at does <;> cases does
      · exact h.parent nofun nofun
      · exact h.parent nofun nofun
    · cases does
  | forkSystem ok =>
    simp only [exec] at does
    split at does
    · rename_i todo _ steps
      split at does <;> cases does
      · have sound : (Child.preparing todo S.zygote).Sound S denied .systemService :=
          ⟨[], steps, .done _⟩
        exact (h.system' sound nofun).parent nofun nofun
      · exact h.parent nofun nofun
    · cases does
  | forkApp ok =>
    simp only [exec] at does
    split at does
    · rename_i todo _ steps
      have sound : (Child.preparing todo S.zygote).Sound S denied .appService := ⟨[], steps, .done _⟩
      have next := h.app' sound nofun fun _ => ⟨nofun, nofun⟩
      split at does
      · cases does
        exact h.parent nofun nofun
      · split at does <;> cases does
        · rename_i enabled
          exact next.parent (fun _ => enabled) nofun
        · rename_i disabled
          exact next.parent nofun fun _ enabled => absurd enabled disabled
    · cases does
  | checkMembasedRunning timedOut =>
    simp only [exec] at does
    split at does
    · split at does
      · cases does
        exact h.parent nofun nofun
      · split at does <;> cases does
        rename_i runs
        exact h.parent nofun fun _ _ => runs
    · cases does
  | systemPrepares refused =>
    obtain ⟨system, prepares, rfl⟩ := Option.map_eq_some_iff.mp does
    refine h.system' (h.system.prepare allowed prepares) fun d => ?_
    rcases Child.prepare_cases prepares with ⟨todo, c, rfl⟩ | rfl <;> exact nofun
  | systemRegisters err =>
    simp only [exec] at does
    split at does
    · rename_i d prepared
      have starts : Service.systemService.Starts S.xposed denied S.zygote d := by
        have sound := h.system
        rw [prepared] at sound
        exact sound.starts
      split at does <;> cases does
      · exact h.system' trivial nofun
      · exact { h with
          system := starts
          served := fun d' serving => by
            cases serving
            exact List.mem_cons_self
          names := fun r member name => by
            rcases List.mem_cons.mp member with rfl | old
            · rfl
            · exact h.names r old name
          proxied := fun r member uid via => by
            rcases List.mem_cons.mp member with rfl | old
            · cases via
            · exact h.proxied r old uid via
          ordered := fun c at_ => (h.ordered c at_).extend [_]
          looper := fun runs => ⟨(h.looper runs).1.extend [_], (h.looper runs).2⟩ }
    · cases does
  | appPrepares refused =>
    obtain ⟨app, prepares, rfl⟩ := Option.map_eq_some_iff.mp does
    have sound := h.app.prepare allowed prepares
    rcases Child.prepare_cases prepares with ⟨todo, c, rfl⟩ | rfl
    · exact h.app' sound nofun fun _ => ⟨nofun, nofun⟩
    · exact h.app' sound nofun fun _ => ⟨nofun, nofun⟩
  | appGetsService known =>
    simp only [exec] at does
    split at does
    · rename_i c prepared
      have starts : Service.appService.Starts S.xposed denied S.zygote c := by
        have sound := h.app
        rw [prepared] at sound
        exact sound.starts
      split at does
      · obtain ⟨object, got, rfl⟩ := Option.map_eq_some_iff.mp does
        obtain ⟨r, member, name, rfl⟩ := getService_mem got
        refine h.app' starts (fun object c' at_ => ?_) fun _ => ⟨nofun, nofun⟩
        cases at_
        exact h.names r member name
      · cases does
        exact h.app' trivial nofun fun _ => ⟨nofun, nofun⟩
    · cases does
  | appAddsService i gone =>
    simp only [exec] at does
    split at does
    · rename_i object c calls
      cases does
      exact h.adds calls allowed.1 allowed.2
    · cases does
  | appCreatesThread ok =>
    simp only [exec] at does
    split at does
    · rename_i c registered
      have starts : Service.appService.Starts S.xposed denied S.zygote c := by
        have sound := h.app
        rw [registered] at sound
        exact sound
      have ordered := h.ordered c (.inl registered)
      split at does
      · split at does <;> cases does
        · exact { h with
            app := starts
            found := nofun
            ordered := fun _ _ => ordered
            looper := fun _ => ⟨ordered, c, starts⟩
            running := fun _ => rfl }
        · exact h.app' trivial nofun fun _ => ⟨nofun, nofun⟩
      · cases does
        exact { h with
          app := starts
          found := nofun
          ordered := fun _ _ => ordered }
    · cases does
  | looperRuns =>
    simp only [exec] at does
    split at does
    · split at does <;> cases does
      rename_i thread
      exact { h with
        running := fun _ => thread
        returned := fun _ _ => rfl }
    · cases does
  | systemDies =>
    simp only [exec] at does
    split at does <;> cases does
    exact h.system' trivial nofun
  | appDies =>
    simp only [exec] at does
    split at does <;> cases does
    exact h.app' trivial nofun fun _ => ⟨nofun, nofun⟩
  | transacts uid code data i =>
    simp only [exec] at does
    split at does
    · rename_i d serving
      cases does
      refine h.register (allowed d) fun r member uid' via => ?_
      obtain ⟨_, via', own⟩ := mem_registers member
      cases via.symm.trans via'
      exact own
    · cases does
  | otherRegisters r =>
    cases does
    have names : ∀ r' ∈ [{ r with via := .other }], r'.name ≠ XPOSED_BINDER_SYSTEM_SERVICE_NAME := by
      intro r' member
      cases List.mem_singleton.mp member
      exact allowed
    refine h.register names fun r' member uid via => ?_
    cases List.mem_singleton.mp member
    cases via

end

end

def inputs : Inputs := ⟨100, 0, Binder.noFiles, (0, 0)⟩

end Xposed.Services
