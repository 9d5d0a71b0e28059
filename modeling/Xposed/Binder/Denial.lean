import Xposed.Binder.RoundTrip

/-!
# Transactions that fail and callers that may not

What a proxy reports when its transaction failed, and what a caller without
permission learns from the service.
-/

namespace Xposed.Binder

/-! ## Failed transactions -/

section
variable {P : Type} [Parcel P]

/-- The outcome of a call whose reply is empty. -/
def ProxyCall.unanswered (call : ProxyCall) (errno status : Int32) : ProxyOutcome :=
  match call with
  | .test => call.untouched 0 errno
  | .addService _ _ _ => call.untouched status errno
  | .accessFile _ _ => call.untouched 0 0
  | .statFile _ size mtime =>
    { call.untouched 0 0 with size := assign size 0, mtime := assign mtime 0 }
  | .readFile _ _ _ size mtime bytesRead errormsg _ =>
    ⟨0, 0, assign size 0, assign mtime 0, assign bytesRead 0, assign errormsg [], none, false⟩

theorem unanswered_gives (call : ProxyCall) (errno : Int32) {status : Int32}
    (failed : status ≠ NO_ERROR) :
    Gives (call.readReply errno status : StateM P ProxyOutcome) [] (call.unanswered errno status) := by
  have header := Runs.exceptionCode_end (P := P)
  cases call with
  | test => exact header.gives ((Runs.read_end .int32).gives (.pure _ _))
  | addService name service allowIsolated =>
    simp only [ProxyCall.readReply, failed, ↓reduceIte]
    exact .pure _ _
  | accessFile name mode => exact header.gives ((Runs.read_end .int32).gives (.pure _ _))
  | statFile name size mtime =>
    exact header.gives <| (Runs.read_end .int32).gives <| (Runs.read_end .int64).gives <|
      (Runs.read_end .int64).gives (.pure _ _)
  | readFile filename offset length size mtime bytesRead errormsg buffer =>
    have nothing : Gives (readContent 0 : StateM P _) [] (none, false) :=
      readContent_gives ⟨0, 0, 0, none, 0, []⟩
    exact header.gives <| (Runs.read_end .int32).gives <| (Runs.read_end .string16).gives <|
      (Runs.read_end .int64).gives <| (Runs.read_end .int64).gives <|
      (Runs.read_end .int32).gives nothing.bind

/-- The return values that stand for a failure. -/
def ProxyCall.isFailure (call : ProxyCall) (ret : Int32) : Bool :=
  match call with
  | .addService _ _ _ => ret != NO_ERROR
  | .test | .accessFile _ _ | .statFile _ _ _ | .readFile _ _ _ _ _ _ _ _ => ret == -1

/-- The method returns a failure, and `size`, `mtime` and `buffer` are as they were. -/
def FailureReported (call : ProxyCall) (out : ProxyOutcome) : Prop :=
  call.isFailure out.ret = true ∧
  out.size = (call.untouched out.ret out.errno).size ∧
  out.mtime = (call.untouched out.ret out.errno).mtime ∧
  out.buffer = (call.untouched out.ret out.errno).buffer

/-- **A failed transaction is reported as a failure** by `addService`, and by no
other method: they leave `transact`'s status aside, and an empty reply reads as
success. -/
theorem failure_reported (P : Type) [Parcel P] (call : ProxyCall)
    (transact : Transaction → P → Int32 × P) (errno : Int32)
    (failed : (transact call.transaction
      ((call.writeData : StateM P Unit) Parcel.empty).2).1 ≠ NO_ERROR)
    (empty : Parcel.Holds (transact call.transaction
      ((call.writeData : StateM P Unit) Parcel.empty).2).2 []) :
    FailureReported call (call.run transact errno) ↔ call.transaction = .addService := by
  have same : call.run transact errno = call.unanswered errno _ :=
    unanswered_gives call errno failed _ empty
  rw [same]
  cases call with
  | addService name service allowIsolated =>
    refine ⟨fun _ => rfl, fun _ => ⟨?_, rfl, rfl, rfl⟩⟩
    simpa [ProxyCall.isFailure, ProxyCall.unanswered, ProxyCall.untouched] using failed
  | _ =>
    refine ⟨fun reported => ?_, fun other => by cases other⟩
    have ret : ((0 : Int32) == -1) = true := reported.1
    exact absurd ret (by decide)

theorem dead_service_reported : FailureReported (.addService [] 1 true)
    ((ProxyCall.addService [] 1 true).run (fun _ (_ : List Item) => (-32, [])) 0) :=
  (failure_reported (List Item) (.addService [] 1 true) (fun _ _ => (-32, [])) 0 (by decide) rfl).mpr
    rfl

/-- With a dead service every file can be accessed. -/
theorem dead_service_grants : ¬ ∀ (P : Type) (_ : Parcel P) (call : ProxyCall)
    (transact : Transaction → P → Int32 × P) (errno : Int32),
    (transact call.transaction ((call.writeData : StateM P Unit) Parcel.empty).2).1 ≠ NO_ERROR →
    Parcel.Holds (transact call.transaction
      ((call.writeData : StateM P Unit) Parcel.empty).2).2 [] →
    FailureReported call (call.run transact errno) := by
  intro reported
  have ret := (reported (List Item) inferInstance (.accessFile [47] 0) (fun _ _ => (-32, [])) 0
    (by decide) rfl).1
  exact absurd ret (by decide)

/-! ## Callers without permission -/

/-- The transactions that read files. -/
def Transaction.reads : Transaction → Bool
  | .accessFile | .statFile | .readFile => true
  | .test | .addService => false

/-- The result of a method for a caller that is not the system. -/
def Invocation.denied (i : Invocation) (locals : Int64 × Int64) : Result :=
  match i with
  | .test => .test 0
  | .addService _ _ _ => .addService (-1)
  | .accessFile _ _ => .accessFile ⟨-1, EPERM⟩
  | .statFile _ => .statFile ⟨-1, EPERM, locals.1, locals.2⟩
  | .readFile _ _ _ size mtime => .readFile ⟨EPERM, size, mtime, none, -1, []⟩

section
variable (self : XposedService) (lib : Platform) {ctx : Context} (files : Files)
  (locals : Int64 × Int64)

theorem invoke_denied {i : Invocation} (other : ctx.callingUid ≠ UID_SYSTEM)
    (reads : i.transaction.reads = true) :
    i.invoke (self.methods lib ctx files locals) = ⟨i.denied locals, []⟩ := by
  cases i with
  | test | addService => cases reads
  | accessFile | statFile | readFile =>
    simp [Invocation.invoke, XposedService.methods, XposedService.accessFile,
      XposedService.statFile, XposedService.readFile, XposedService.failed, Invocation.denied, other]

theorem addService_denied (name : String16) (service : IBinder) (allowIsolated : Bool)
    (denied : self.isSystem = false ∨ ctx.callingUid ≠ ctx.installerUid) :
    (Invocation.addService name service allowIsolated).invoke (self.methods lib ctx files locals) =
      ⟨.addService (-1), []⟩ := by
  have shut : (!self.isSystem || ctx.callingUid != ctx.installerUid) = true := by simpa using denied
  simp [Invocation.invoke, XposedService.methods, XposedService.addService, shut]

end

/-- No local of the stub gets into a reply that denies. -/
theorem denied_writes (i : Invocation) (locals locals' : Int64 × Int64) :
    ((i.denied locals).writeReply : StateM P Unit) = (i.denied locals').writeReply := by
  cases i <;> rfl

theorem denied_received {i : Invocation} {call : ProxyCall} (errno : Int32)
    (locals : Int64 × Int64) (reads : i.transaction.reads = true)
    (kind : call.transaction = i.transaction) :
    (call.received errno (i.denied locals)).ret = -1 ∧
      (call.received errno (i.denied locals)).errno = EPERM ∧
      (call.received errno (i.denied locals)).buffer = none := by
  cases i with
  | test | addService => cases reads
  | accessFile =>
    cases call with
    | accessFile => exact ⟨rfl, rfl, rfl⟩
    | _ => cases kind
  | statFile =>
    cases call with
    | statFile => exact ⟨rfl, rfl, rfl⟩
    | _ => cases kind
  | readFile =>
    cases call with
    | readFile => exact ⟨rfl, rfl, rfl⟩
    | _ => cases kind

theorem onTransact_rejects {s : IXposedService} {code : Transaction} {data reply : P}
    (rejected : ((checkInterface descriptor : StateM P Bool) data).1 = false) :
    onTransact s code data reply = ⟨PERMISSION_DENIED, reply, none, []⟩ := by
  simp [onTransact, rejected]

theorem rejected_received (call : ProxyCall) (errno : Int32) :
    ((call.readReply errno PERMISSION_DENIED : StateM P ProxyOutcome) Parcel.empty).1 =
      call.unanswered errno PERMISSION_DENIED := by
  have failed : PERMISSION_DENIED ≠ NO_ERROR := by decide
  exact unanswered_gives call errno failed Parcel.empty Parcel.empty_holds

/-- The reply tells the proxy's caller `EPERM`, and there is no buffer. -/
def Denied (call : ProxyCall) (errno : Int32) (r : Transacted P) : Prop :=
  let out := ((call.readReply errno r.status : StateM P ProxyOutcome) r.reply).1
  out.ret = -1 ∧ out.errno = EPERM ∧ out.buffer = none

/-- Nothing of the files gets out: neither into the reply nor by a call. -/
structure Silent (r r' : Transacted P) : Prop where
  status : r.status = r'.status
  reply : r.reply = r'.reply
  performed : r.performed = [] ∧ r'.performed = []

theorem reading_silent {self : XposedService} {lib : Platform} {ctx : Context}
    (other : ctx.callingUid ≠ UID_SYSTEM) {code : Transaction} (reads : code.reads = true)
    (data : P) (files files' : Files) (locals locals' : Int64 × Int64) :
    Silent (onTransact (self.methods lib ctx files locals) code data Parcel.empty)
      (onTransact (self.methods lib ctx files' locals') code data Parcel.empty) := by
  cases accepted : ((checkInterface descriptor : StateM P Bool) data).1 with
  | false =>
    rw [onTransact_rejects accepted, onTransact_rejects accepted]
    exact ⟨rfl, rfl, rfl, rfl⟩
  | true =>
    obtain ⟨i, arguments, kind, does⟩ := onTransact_accepts (self.methods lib ctx files locals)
      code (Parcel.empty : P) accepted
    obtain ⟨i', arguments', _, does'⟩ := onTransact_accepts (self.methods lib ctx files' locals')
      code (Parcel.empty : P) accepted
    obtain rfl : i = i' := arguments.trans arguments'.symm
    have readable : i.transaction.reads = true := by rw [kind, reads]
    rw [does, does', invoke_denied self lib files locals other readable,
      invoke_denied self lib files' locals' other readable]
    exact ⟨rfl, by rw [denied_writes], rfl, rfl⟩

theorem reading_denied {self : XposedService} {lib : Platform} {ctx : Context}
    (other : ctx.callingUid ≠ UID_SYSTEM) {call : ProxyCall}
    (reads : call.transaction.reads = true) (data : P) (files : Files) (locals : Int64 × Int64)
    (errno : Int32) :
    Denied call errno
        (onTransact (self.methods lib ctx files locals) call.transaction data Parcel.empty) ↔
      ((checkInterface descriptor : StateM P Bool) data).1 = true := by
  unfold Denied
  dsimp only
  cases accepted : ((checkInterface descriptor : StateM P Bool) data).1 with
  | false =>
    rw [onTransact_rejects accepted, rejected_received]
    refine ⟨fun denied => ?_, fun now => absurd now (by decide)⟩
    have ret := denied.1
    cases call with
    | test | addService => cases reads
    | _ => exact absurd ret (by decide : ¬ (0 : Int32) = -1)
  | true =>
    obtain ⟨i, _, kind, does⟩ := onTransact_accepts (self.methods lib ctx files locals)
      call.transaction (Parcel.empty : P) accepted
    have readable : i.transaction.reads = true := by rw [kind, reads]
    have result := invoke_denied self lib files locals other readable
    have plain : (i.invoke (self.methods lib ctx files locals)).value.plain := by
      rw [result]
      cases i with
      | addService => cases readable
      | _ => trivial
    rw [does, reply_received call errno kind plain, result]
    exact ⟨fun _ => rfl, fun _ => denied_received errno locals readable kind.symm⟩

theorem adding_denied {self : XposedService} {lib : Platform} {ctx : Context}
    (denied : self.isSystem = false ∨ ctx.callingUid ≠ ctx.installerUid) (data : P) (files : Files)
    (locals : Int64 × Int64) (name : String16) (service : IBinder) (allowIsolated : Bool)
    (errno : Int32) :
    let r := onTransact (self.methods lib ctx files locals) .addService data Parcel.empty
    r.performed = [] ∧
      (((ProxyCall.addService name service allowIsolated).readReply errno r.status :
        StateM P ProxyOutcome) r.reply).1.ret ≠ 0 := by
  dsimp only
  cases accepted : ((checkInterface descriptor : StateM P Bool) data).1 with
  | false =>
    rw [onTransact_rejects accepted, rejected_received]
    exact ⟨rfl, (by decide : PERMISSION_DENIED ≠ 0)⟩
  | true =>
    obtain ⟨i, arguments, kind, does⟩ := onTransact_accepts (self.methods lib ctx files locals)
      .addService (Parcel.empty : P) accepted
    obtain ⟨which, b, isolated, rfl⟩ : ∃ which b isolated, i = .addService which b isolated :=
      ⟨_, _, _, arguments⟩
    have result := addService_denied self lib files locals which b isolated denied
    have plain : ((Invocation.addService which b isolated).invoke
        (self.methods lib ctx files locals)).value.plain := by
      rw [result]
      exact (by decide : (-1 : Int32) ≠ EX_HAS_REPLY_HEADER)
    rw [does, reply_received (.addService name service allowIsolated) errno kind plain, result]
    exact ⟨rfl, (by decide : (-1 : Int32) ≠ 0)⟩

end

/-- **Callers without permission learn nothing** of the files: for a caller that
is not the system, a transaction that reads files has the same reply whatever
the files are, and none of them is touched. The proxy's caller is told `EPERM`
exactly if the interface token was accepted. An `addService` that is not allowed
does not reach the service manager, and the proxy reports it. -/
theorem denied_learn_nothing (P : Type) [Parcel P] (self : XposedService) (lib : Platform)
    (ctx : Context) (data : P) :
    (ctx.callingUid ≠ UID_SYSTEM → ∀ call : ProxyCall, call.transaction.reads = true →
      ∀ (files files' : Files) (locals locals' : Int64 × Int64),
      Silent (onTransact (self.methods lib ctx files locals) call.transaction data Parcel.empty)
        (onTransact (self.methods lib ctx files' locals') call.transaction data Parcel.empty) ∧
      ∀ errno, Denied call errno
          (onTransact (self.methods lib ctx files locals) call.transaction data Parcel.empty) ↔
        ((checkInterface descriptor : StateM P Bool) data).1 = true) ∧
    (self.isSystem = false ∨ ctx.callingUid ≠ ctx.installerUid →
      ∀ (files : Files) (locals : Int64 × Int64) name service allowIsolated errno,
      let r := onTransact (self.methods lib ctx files locals) .addService data Parcel.empty
      r.performed = [] ∧
        (((ProxyCall.addService name service allowIsolated).readReply errno r.status :
          StateM P ProxyOutcome) r.reply).1.ret ≠ 0) := by
  constructor
  · intro other call reads files files' locals locals'
    exact ⟨reading_silent other reads data files files' locals locals',
      fun errno => reading_denied other reads data files locals errno⟩
  · intro denied files locals name service allowIsolated errno
    exact adding_denied denied data files locals name service allowIsolated errno

/-- A caller that is not the system. -/
def app : Context := ⟨100, 10050, 10001, 0⟩

def noFiles : Files :=
  ⟨.error noEntry, .error noEntry, true, .error noEntry, .ok, fun _ => ⟨[], by simp, none, true⟩, 0⟩

/-- An `accessFile` for `/`, as the proxy writes it. -/
def accessData : List Item :=
  [.value .interfaceToken descriptor, .value .string16 [47], .value .int32 0]

theorem app_denied :
    Denied (.accessFile [47] 0) 0 (onTransact
      ((⟨false⟩ : XposedService).methods plainPlatform app noFiles (0, 0)) .accessFile accessData
      (Parcel.empty : List Item)) :=
  (((denied_learn_nothing (List Item) ⟨false⟩ plainPlatform app accessData).1 (by decide)
    (.accessFile [47] 0) rfl noFiles noFiles (0, 0) (0, 0)).2 0).mpr rfl

/-- Without an interface token the reply is empty, and access is granted. -/
theorem token_missing : ¬ ∀ (P : Type) (_ : Parcel P) (self : XposedService) (lib : Platform)
    (ctx : Context) (data : P) (call : ProxyCall) (files : Files) (locals : Int64 × Int64)
    (errno : Int32), ctx.callingUid ≠ UID_SYSTEM → call.transaction.reads = true →
    Denied call errno
      (onTransact (self.methods lib ctx files locals) call.transaction data Parcel.empty) := by
  intro denied
  obtain ⟨ret, _⟩ := denied (List Item) inferInstance ⟨false⟩ plainPlatform app [] (.accessFile [47] 0)
    noFiles (0, 0) 0 (by decide) rfl
  exact absurd ret (by decide)

end Xposed.Binder
