import Xposed.Binder.Service

/-!
# Stub and proxy

`BnXposedService::onTransact` and the methods of `BpXposedService`, each cut
where it hands over to the other side: the proxy writes a call and later reads
the reply, the stub reads the call and writes what the service's method gave.
-/

namespace Xposed.Binder

/-- The codes of `IXposedService`. All others go to `BBinder`. -/
inductive Transaction where
  | test
  | addService
  | accessFile
  | statFile
  | readFile
  deriving DecidableEq

def descriptor : String16 :=
  "de.robv.android.xposed.IXposedService".toList.map fun c => c.toNat.toUInt16

def NO_ERROR : Int32 := 0

/-- What a failed `CHECK_INTERFACE` returns. -/
def PERMISSION_DENIED : Int32 := -1

/-- A call of a service's method. -/
inductive Invocation where
  | test
  | addService (name : String16) (service : IBinder) (allowIsolated : Bool)
  | accessFile (filename : String16) (mode : Int32)
  | statFile (filename : String16)
  | readFile (filename : String16) (offset length : Int32) (size mtime : Int64)
  deriving DecidableEq

inductive Result where
  | test (pid : Int32)
  | addService (status : Int32)
  | accessFile (r : FileStatus)
  | statFile (r : StatResult)
  | readFile (r : ReadResult)

def Invocation.invoke (s : IXposedService) : Invocation → Effect Result
  | .test => ⟨.test s.test.value, s.test.performed⟩
  | .addService name service allowIsolated =>
    let r := s.addService name service allowIsolated
    ⟨.addService r.value, r.performed⟩
  | .accessFile filename mode =>
    let r := s.accessFile filename mode
    ⟨.accessFile r.value, r.performed⟩
  | .statFile filename =>
    let r := s.statFile filename
    ⟨.statFile r.value, r.performed⟩
  | .readFile filename offset length size mtime =>
    let r := s.readFile filename offset length size mtime
    ⟨.readFile r.value, r.performed⟩

def Invocation.transaction : Invocation → Transaction
  | .test => .test
  | .addService _ _ _ => .addService
  | .accessFile _ _ => .accessFile
  | .statFile _ => .statFile
  | .readFile _ _ _ _ _ => .readFile

def Result.transaction : Result → Transaction
  | .test _ => .test
  | .addService _ => .addService
  | .accessFile _ => .accessFile
  | .statFile _ => .statFile
  | .readFile _ => .readFile

theorem invoke_transaction (s : IXposedService) (i : Invocation) :
    (i.invoke s).value.transaction = i.transaction := by
  cases i <;> rfl

/-- The first `n` bytes of a block. -/
def loadBytes (b : Option HeapBlock) (n : Nat) : Bytes :=
  (List.range n).map fun i => ((b.bind fun b => b.cells[i]?.join).getD 0)

/-! ## The stub -/

section
variable {P : Type} [Parcel P]

/-- The arguments, behind the interface token. -/
def Transaction.readArguments : Transaction → StateM P Invocation
  | .test => pure .test
  | .addService => do
    let which ← readString16
    let b ← readStrongBinder
    let allowIsolated ← readInt32
    pure (.addService which b (allowIsolated != 0))
  | .accessFile => do
    let filename ← readString16
    let mode ← readInt32
    pure (.accessFile filename mode)
  | .statFile => do
    let filename ← readString16
    pure (.statFile filename)
  | .readFile => do
    let filename ← readString16
    let offset ← readInt32
    let length ← readInt32
    let size ← readInt64
    let mtime ← readInt64
    pure (.readFile filename offset length size mtime)

def Result.writeReply : Result → StateM P Unit
  | .test pid => do
    writeNoException
    writeInt32 pid
  -- without an exception header: the proxy reads the status as one
  | .addService status => writeInt32 status
  | .accessFile r => do
    writeNoException
    writeInt32 (if r.status = 0 then 0 else r.errno)
  | .statFile r => do
    writeNoException
    if r.status = 0 then
      writeInt32 0
      writeInt64 r.size
      writeInt64 r.time
    else writeInt32 r.errno
  | .readFile r => do
    writeNoException
    writeInt32 r.status
    writeString16 r.errormsg
    writeInt64 r.size
    writeInt64 r.mtime
    writeInt32 r.bytesRead
    if 0 < r.bytesRead then write (loadBytes r.buffer r.bytesRead.toInt.toNat)

/-- How `onTransact` ends: its status, the reply, the method it called and what
that did. -/
structure Transacted (P : Type) where
  status : Int32
  reply : P
  invoked : Option Invocation
  performed : List Performed

def onTransact (s : IXposedService) (code : Transaction) (data reply : P) : Transacted P :=
  let checked := (checkInterface descriptor : StateM P Bool) data
  if !checked.1 then ⟨PERMISSION_DENIED, reply, none, []⟩
  else
    let invocation := ((code.readArguments : StateM P Invocation) checked.2).1
    let r := invocation.invoke s
    ⟨NO_ERROR, ((r.value.writeReply : StateM P Unit) reply).2, some invocation, r.performed⟩

/-! ## The proxy -/

/-- A call of a proxy's method. Of each out-pointer, `none` for `NULL`, it has
what the caller keeps there. -/
inductive ProxyCall where
  | test
  | addService (name : String16) (service : IBinder) (allowIsolated : Bool)
  | accessFile (name : String16) (mode : Int32)
  | statFile (name : String16) (size mtime : Option Int64)
  | readFile (filename : String16) (offset length : Int32) (size mtime : Option Int64)
      (bytesRead : Option Int32) (errormsg : Option String16) (buffer : Option HeapBlock)

def ProxyCall.transaction : ProxyCall → Transaction
  | .test => .test
  | .addService _ _ _ => .addService
  | .accessFile _ _ => .accessFile
  | .statFile _ _ _ => .statFile
  | .readFile _ _ _ _ _ _ _ _ => .readFile

/-- The arguments the method is called with. -/
def ProxyCall.invocation : ProxyCall → Invocation
  | .test => .test
  | .addService name service allowIsolated => .addService name service allowIsolated
  | .accessFile name mode => .accessFile name mode
  | .statFile name _ _ => .statFile name
  | .readFile filename offset length size mtime _ _ _ =>
    .readFile filename offset length (size.getD 0) (mtime.getD 0)

theorem ProxyCall.invocation_transaction (call : ProxyCall) :
    call.invocation.transaction = call.transaction := by
  cases call <;> rfl

/-- What a method leaves: its return value, `errno` and the out-parameters.
`stray` tells of a store outside the block and the out-parameters. -/
structure ProxyOutcome where
  ret : Int32
  errno : Int32
  size : Option Int64
  mtime : Option Int64
  bytesRead : Option Int32
  errormsg : Option String16
  buffer : Option HeapBlock
  stray : Bool

/-- Before a method has written anything. -/
def ProxyCall.untouched (call : ProxyCall) (ret errno : Int32) : ProxyOutcome :=
  match call with
  | .test | .addService _ _ _ | .accessFile _ _ => ⟨ret, errno, none, none, none, none, none, false⟩
  | .statFile _ size mtime => ⟨ret, errno, size, mtime, none, none, none, false⟩
  | .readFile _ _ _ size mtime bytesRead errormsg buffer =>
    ⟨ret, errno, size, mtime, bytesRead, errormsg, buffer, false⟩

def ProxyCall.writeData (call : ProxyCall) : StateM P Unit := do
  writeInterfaceToken descriptor
  match call with
  | .test => pure ()
  | .addService name service allowIsolated =>
    writeString16 name
    writeStrongBinder service
    writeInt32 (if allowIsolated then 1 else 0)
  | .accessFile name mode =>
    writeString16 name
    writeInt32 mode
  | .statFile name _ _ => writeString16 name
  | .readFile filename offset length size mtime _ _ _ =>
    writeString16 filename
    writeInt32 offset
    writeInt32 length
    writeInt64 (size.getD 0)
    writeInt64 (mtime.getD 0)

/-- `*p = v` for a pointer that may be `NULL`. -/
def assign {α : Type} (p : Option α) (v : α) : Option α := p.map fun _ => v

/-- `*buffer[i] = 0`, where `buffer` points to one pointer, to the block. The
index binds first: only with `i = 0` is the block stored to, and else whatever
the words behind that pointer point to. -/
def storeThrough (block : HeapBlock) (i : Int32) : HeapBlock × Bool :=
  if i = 0 then (block.store 0 [0], false) else (block, true)

/-- The proxy's `readFile` from the content on: `*buffer`, and whether it stored
elsewhere. The block `malloc` returns is taken to be there. -/
def readContent (bytesRead : Int32) : StateM P (Option HeapBlock × Bool) := do
  let avail ← dataAvail
  if 0 < bytesRead ∧ bytesRead ≤ Int32.ofNat avail then
    let (block, stray) := storeThrough (HeapBlock.malloc (bytesRead + 1).toInt) bytesRead
    let content ← read bytesRead.toInt.toNat
    pure (some (block.store 0 content), stray)
  else pure (none, false)

/-- What a method makes of `transact`'s status and the reply. -/
def ProxyCall.readReply (call : ProxyCall) (errno status : Int32) : StateM P ProxyOutcome :=
  match call with
  | .test => do
    if (← readExceptionCode) ≠ 0 then return call.untouched (-1) errno
    let ret ← readInt32
    return call.untouched ret errno
  | .addService _ _ _ => do
    if status = NO_ERROR then return call.untouched (← readExceptionCode) errno
    return call.untouched status errno
  | .accessFile _ _ => do
    if (← readExceptionCode) ≠ 0 then return call.untouched (-1) errno
    let errno ← readInt32
    return call.untouched (if errno = 0 then 0 else -1) errno
  | .statFile _ size mtime => do
    if (← readExceptionCode) ≠ 0 then return call.untouched (-1) errno
    let errno ← readInt32
    if errno ≠ 0 then return call.untouched (-1) errno
    let size1 ← readInt64
    let mtime1 ← readInt64
    return { call.untouched 0 errno with size := assign size size1, mtime := assign mtime mtime1 }
  | .readFile _ _ _ size mtime bytesRead errormsg _ => do
    if (← readExceptionCode) ≠ 0 then return call.untouched (-1) errno
    let err ← readInt32
    let errormsg1 ← readString16
    let size1 ← readInt64
    let mtime1 ← readInt64
    let bytesRead1 ← readInt32
    let (buffer, stray) ← readContent bytesRead1
    return {
      ret := if err = 0 then 0 else -1
      errno := err
      size := assign size size1
      mtime := assign mtime mtime1
      bytesRead := assign bytesRead bytesRead1
      errormsg := assign errormsg errormsg1
      buffer, stray }

/-- A method of the proxy, over `remote()->transact`. -/
def ProxyCall.run (call : ProxyCall) (transact : Transaction → P → Int32 × P) (errno : Int32) :
    ProxyOutcome :=
  let data := ((call.writeData : StateM P Unit) Parcel.empty).2
  let answer := transact call.transaction data
  ((call.readReply errno answer.1 : StateM P ProxyOutcome) answer.2).1

/-- `transact` where the transaction is delivered: an error of `onTransact` comes
back as the status, with an empty reply. -/
def deliver (s : IXposedService) (code : Transaction) (data : P) : Int32 × P :=
  let r := onTransact s code data Parcel.empty
  if r.status = NO_ERROR then (NO_ERROR, r.reply) else (r.status, Parcel.empty)

end

end Xposed.Binder
