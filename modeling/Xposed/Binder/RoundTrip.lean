import Xposed.Binder.Transaction

/-!
# What the proxy makes of the stub's replies

Both sides of each transaction agree on the order of the fields, so a delivered
call comes down to a function of the method's result. What the proxy does with
content, and with a transaction that failed, is another matter.
-/

namespace Xposed.Binder

/-! ## The fields, in order -/

def Invocation.items : Invocation → List Item
  | .test => []
  | .addService name service allowIsolated =>
    [.value .string16 name, .value .strongBinder service,
      .value .int32 (if allowIsolated then 1 else 0)]
  | .accessFile filename mode => [.value .string16 filename, .value .int32 mode]
  | .statFile filename => [.value .string16 filename]
  | .readFile filename offset length size mtime =>
    [.value .string16 filename, .value .int32 offset, .value .int32 length, .value .int64 size,
      .value .int64 mtime]

def ReadResult.content (r : ReadResult) : Bytes := loadBytes r.buffer r.bytesRead.toInt.toNat

def Result.items : Result → List Item
  | .test pid => [.value .int32 0, .value .int32 pid]
  | .addService status => [.value .int32 status]
  | .accessFile r => [.value .int32 0, .value .int32 (if r.status = 0 then 0 else r.errno)]
  | .statFile r =>
    if r.status = 0 then
      [.value .int32 0, .value .int32 0, .value .int64 r.size, .value .int64 r.time]
    else [.value .int32 0, .value .int32 r.errno]
  | .readFile r =>
    [.value .int32 0, .value .int32 r.status, .value .string16 r.errormsg, .value .int64 r.size,
      .value .int64 r.mtime, .value .int32 r.bytesRead] ++
      if 0 < r.bytesRead then [.raw r.content] else []

section
variable {P : Type} [Parcel P]

theorem writeData_runs (call : ProxyCall) : Runs (call.writeData : StateM P Unit) [] ()
    (.value .interfaceToken descriptor :: call.invocation.items) := by
  have token := Runs.write_value (P := P) (k := .interfaceToken) descriptor []
  cases call with
  | test => exact token.bind (.pure () _)
  | addService name service allowIsolated =>
    exact token.bind <| (Runs.write_value (k := .string16) name _).bind <|
      (Runs.write_value (k := .strongBinder) service _).bind <|
      Runs.write_value (k := .int32) (if allowIsolated then 1 else 0) _
  | accessFile name mode =>
    exact token.bind <| (Runs.write_value (k := .string16) name _).bind <|
      Runs.write_value (k := .int32) mode _
  | statFile name size mtime => exact token.bind (Runs.write_value (k := .string16) name _)
  | readFile filename offset length size mtime bytesRead errormsg buffer =>
    exact token.bind <| (Runs.write_value (k := .string16) filename _).bind <|
      (Runs.write_value (k := .int32) offset _).bind <|
      (Runs.write_value (k := .int32) length _).bind <|
      (Runs.write_value (k := .int64) (size.getD 0) _).bind <|
      Runs.write_value (k := .int64) (mtime.getD 0) _

theorem readArguments_runs (call : ProxyCall) :
    Runs (call.transaction.readArguments : StateM P Invocation) call.invocation.items
      call.invocation [] := by
  cases call with
  | test => exact .pure _ _
  | addService name service allowIsolated =>
    refine (Runs.read_value (k := .string16) name _).bind <|
      (Runs.read_value (k := .strongBinder) service _).bind <|
      (Runs.read_value (k := .int32) _ _).bind ?_
    have same : ((if allowIsolated then 1 else 0 : Int32) != 0) = allowIsolated := by
      cases allowIsolated <;> rfl
    rw [same]
    exact .pure _ _
  | accessFile name mode =>
    exact (Runs.read_value (k := .string16) name _).bind <|
      (Runs.read_value (k := .int32) mode _).bind (.pure _ _)
  | statFile name size mtime => exact (Runs.read_value (k := .string16) name _).bind (.pure _ _)
  | readFile filename offset length size mtime bytesRead errormsg buffer =>
    exact (Runs.read_value (k := .string16) filename _).bind <|
      (Runs.read_value (k := .int32) offset _).bind <|
      (Runs.read_value (k := .int32) length _).bind <|
      (Runs.read_value (k := .int64) (size.getD 0) _).bind <|
      (Runs.read_value (k := .int64) (mtime.getD 0) _).bind (.pure _ _)

theorem writeReply_runs (r : Result) : Runs (r.writeReply : StateM P Unit) [] () r.items := by
  have header := Runs.write_value (P := P) (k := .int32) 0 []
  cases r with
  | test pid => exact header.bind (Runs.write_value (k := .int32) pid _)
  | addService status => exact Runs.write_value (k := .int32) status _
  | accessFile r => exact header.bind (Runs.write_value (k := .int32) _ _)
  | statFile r =>
    refine header.bind ?_
    by_cases ok : r.status = 0
    · simp only [ok, ↓reduceIte, Result.items]
      exact (Runs.write_value (k := .int32) 0 _).bind <|
        (Runs.write_value (k := .int64) r.size _).bind <|
        Runs.write_value (k := .int64) r.time _
    · simp only [ok, ↓reduceIte, Result.items]
      exact Runs.write_value (k := .int32) r.errno _
  | readFile r =>
    refine header.bind <| (Runs.write_value (k := .int32) r.status _).bind <|
      (Runs.write_value (k := .string16) r.errormsg _).bind <|
      (Runs.write_value (k := .int64) r.size _).bind <|
      (Runs.write_value (k := .int64) r.mtime _).bind <|
      (Runs.write_value (k := .int32) r.bytesRead _).bind ?_
    by_cases some : 0 < r.bytesRead
    · simp only [some, ↓reduceIte, Result.items]
      exact Runs.write_raw r.content _
    · simp only [some, ↓reduceIte, Result.items]
      exact .pure () _

/-! ## What comes back -/

/-- The proxy's buffer for a `readFile` that was answered with `r`. -/
def receivedContent (r : ReadResult) : Option HeapBlock × Bool :=
  if 0 < r.bytesRead ∧ r.bytesRead ≤ Int32.ofNat (padded r.content.length) then
    let (block, stray) := storeThrough (HeapBlock.malloc (r.bytesRead + 1).toInt) r.bytesRead
    (some (block.store 0 r.content), stray)
  else (none, false)

/-- The outcome of a call that was answered with `r`. -/
def ProxyCall.received (call : ProxyCall) (errno : Int32) (r : Result) : ProxyOutcome :=
  match call, r with
  | .statFile _ size mtime, .statFile r =>
    if r.status = 0 then
      { call.untouched 0 0 with size := assign size r.size, mtime := assign mtime r.time }
    else if r.errno = 0 then
      { call.untouched 0 0 with size := assign size 0, mtime := assign mtime 0 }
    else call.untouched (-1) r.errno
  | .accessFile _ _, .accessFile r =>
    let errno := if r.status = 0 then 0 else r.errno
    call.untouched (if errno = 0 then 0 else -1) errno
  | .readFile _ _ _ size mtime bytesRead errormsg _, .readFile r => {
      ret := if r.status = 0 then 0 else -1
      errno := r.status
      size := assign size r.size
      mtime := assign mtime r.mtime
      bytesRead := assign bytesRead r.bytesRead
      errormsg := assign errormsg r.errormsg
      buffer := (receivedContent r).1
      stray := (receivedContent r).2 }
  | _, .test pid => call.untouched pid errno
  | _, .addService status => call.untouched status errno
  | _, _ => call.untouched 0 errno

theorem readContent_gives (r : ReadResult) : Gives (readContent r.bytesRead : StateM P _)
    (if 0 < r.bytesRead then [.raw r.content] else []) (receivedContent r) := by
  unfold receivedContent
  by_cases some : 0 < r.bytesRead
  · simp only [some, ↓reduceIte, true_and]
    refine (Runs.dataAvail_raw r.content).gives ?_
    have count : r.content.length = r.bytesRead.toInt.toNat := by
      simp [ReadResult.content, loadBytes]
    simp only [some, true_and]
    split
    · rw [← count]
      exact (Runs.read_raw r.content []).gives (.pure _ _)
    · exact .pure _ _
  · simp only [some, ↓reduceIte, false_and]
    intro p _
    simp only [readContent, some, false_and, ↓reduceIte]
    rfl

/-- Only the status of an `addService` may look like a longer header. -/
def Result.plain : Result → Prop
  | .addService status => status ≠ EX_HAS_REPLY_HEADER
  | _ => True

theorem readReply_gives (call : ProxyCall) (r : Result) (errno : Int32)
    (kind : r.transaction = call.transaction) (plain : r.plain) :
    Gives (call.readReply errno NO_ERROR : StateM P ProxyOutcome) r.items
      (call.received errno r) := by
  have header : ∀ l, Runs (readExceptionCode : StateM P Int32) (.value .int32 0 :: l) 0 l :=
    fun l => .exceptionCode (by decide) l
  cases call with
  | test =>
    cases r with
    | test pid => exact (header _).gives ((Runs.read_value (k := .int32) pid _).gives (.pure _ _))
    | _ => cases kind
  | addService name service allowIsolated =>
    cases r with
    | addService status => exact (Runs.exceptionCode plain _).gives (.pure _ _)
    | _ => cases kind
  | accessFile name mode =>
    cases r with
    | accessFile r => exact (header _).gives ((Runs.read_value (k := .int32) _ _).gives (.pure _ _))
    | _ => cases kind
  | statFile name size mtime =>
    cases r with
    | statFile r =>
      simp only [Result.items, ProxyCall.received]
      by_cases ok : r.status = 0
      · simp only [ok, ↓reduceIte]
        exact (header _).gives <| (Runs.read_value (k := .int32) 0 _).gives <|
          (Runs.read_value (k := .int64) r.size _).gives <|
          (Runs.read_value (k := .int64) r.time _).gives (.pure _ _)
      · simp only [ok, ↓reduceIte]
        refine (header _).gives ((Runs.read_value (k := .int32) r.errno _).gives ?_)
        by_cases quiet : r.errno = 0
        · -- behind the errno there is nothing left to read
          simp only [quiet, ne_eq, not_true_eq_false, ↓reduceIte]
          exact (Runs.read_end .int64).gives ((Runs.read_end .int64).gives (.pure _ _))
        · simp only [quiet, ne_eq, not_false_eq_true, ↓reduceIte]
          exact .pure _ _
    | _ => cases kind
  | readFile filename offset length size mtime bytesRead errormsg buffer =>
    cases r with
    | readFile r =>
      exact (header _).gives <| (Runs.read_value (k := .int32) r.status _).gives <|
        (Runs.read_value (k := .string16) r.errormsg _).gives <|
        (Runs.read_value (k := .int64) r.size _).gives <|
        (Runs.read_value (k := .int64) r.mtime _).gives <|
        (Runs.read_value (k := .int32) r.bytesRead _).gives (readContent_gives r).bind
    | _ => cases kind

theorem readArguments_transaction (code : Transaction) (data : P) :
    ((code.readArguments : StateM P Invocation) data).1.transaction = code := by
  cases code <;> rfl

/-- What the stub makes of a transaction with the right interface token. -/
theorem onTransact_accepts (s : IXposedService) (code : Transaction) (reply : P) {data : P}
    (accepted : ((checkInterface descriptor : StateM P Bool) data).1 = true) :
    ∃ i : Invocation,
      i = ((code.readArguments : StateM P Invocation)
        ((checkInterface descriptor : StateM P Bool) data).2).1 ∧
      i.transaction = code ∧
      onTransact s code data reply =
        ⟨NO_ERROR, (((i.invoke s).value.writeReply : StateM P Unit) reply).2, some i,
          (i.invoke s).performed⟩ := by
  refine ⟨_, rfl, readArguments_transaction _ _, ?_⟩
  simp [onTransact, accepted]

/-- The proxy's side of the reply that the stub writes for invocation `i`. -/
theorem reply_received {s : IXposedService} {i : Invocation} (call : ProxyCall) (errno : Int32)
    (kind : i.transaction = call.transaction) (plain : (i.invoke s).value.plain) :
    ((call.readReply errno NO_ERROR : StateM P ProxyOutcome)
      (((i.invoke s).value.writeReply : StateM P Unit) Parcel.empty).2).1 =
        call.received errno (i.invoke s).value := by
  have written := (writeReply_runs (i.invoke s).value (Parcel.empty : P) Parcel.empty_holds).2
  have same := (invoke_transaction s i).trans kind
  exact readReply_gives call _ errno same plain _ written

/-- **A delivered call** reaches the method with its own arguments, and the proxy
makes of the reply what `received` says. -/
theorem run_deliver (s : IXposedService) (call : ProxyCall) (errno : Int32)
    (plain : (call.invocation.invoke s).value.plain) :
    (onTransact s call.transaction ((call.writeData : StateM P Unit) Parcel.empty).2
      Parcel.empty).invoked = some call.invocation ∧
    call.run (deliver s : Transaction → P → Int32 × P) errno =
      call.received errno (call.invocation.invoke s).value := by
  have written := (writeData_runs call (Parcel.empty : P) Parcel.empty_holds).2
  obtain ⟨token, behind⟩ := Runs.checkInterface descriptor descriptor call.invocation.items _ written
  obtain ⟨i, arguments, kind, does⟩ := onTransact_accepts s call.transaction (Parcel.empty : P)
    (token.trans (by simp))
  obtain rfl : i = call.invocation := arguments.trans (readArguments_runs call _ behind).1
  refine ⟨by rw [does], ?_⟩
  simp only [ProxyCall.run, deliver, does, ↓reduceIte]
  exact reply_received call errno kind plain

end

/-! ## The round trip -/

/-- The proxy has undone the encoding of the result `r`. -/
def Undone (call : ProxyCall) (r : Result) (out : ProxyOutcome) : Prop :=
  out.stray = false ∧
    match call, r with
    | .test, .test pid => out.ret = pid
    | .accessFile _ _, .accessFile r =>
      (out.ret = 0 ↔ r.status = 0) ∧ out.errno = if r.status = 0 then 0 else r.errno
    | .statFile _ size mtime, .statFile r =>
      (out.ret = 0 ↔ r.status = 0) ∧ (out.errno = if r.status = 0 then 0 else r.errno) ∧
        (r.status = 0 → out.size = assign size r.size ∧ out.mtime = assign mtime r.time)
    | .readFile _ _ _ size mtime bytesRead errormsg _, .readFile r =>
      (out.ret = 0 ↔ r.status = 0) ∧ out.errno = r.status ∧ out.size = assign size r.size ∧
        out.mtime = assign mtime r.mtime ∧ out.bytesRead = assign bytesRead r.bytesRead ∧
        out.errormsg = assign errormsg r.errormsg ∧
        out.buffer =
          if 0 < r.bytesRead then some ⟨r.content.map some ++ [some 0], false⟩ else none
    | _, _ => False

/-- There is no content, and a failed method has set `errno`. -/
def Result.undoable : Result → Bool
  | .test _ | .addService _ => true
  | .accessFile r => r.status == 0 || r.errno != 0
  | .statFile r => r.status == 0 || r.errno != 0
  | .readFile r => !decide (0 < r.bytesRead)

/-- Content always brings a store through a pointer behind `*buffer` with it, or
none of it is delivered. -/
theorem content_lost {r : ReadResult} (some : 0 < r.bytesRead) :
    (receivedContent r).2 = true ∨ (receivedContent r).1 = none := by
  have index : r.bytesRead ≠ 0 := by
    intro zero
    rw [zero] at some
    exact absurd some (by decide)
  unfold receivedContent
  split
  · left
    simp [storeThrough, index]
  · exact .inr rfl

theorem received_undone {call : ProxyCall} {r : Result} (errno : Int32)
    (kind : r.transaction = call.transaction) (file : call.transaction ≠ .addService) :
    Undone call r (call.received errno r) ↔ r.undoable = true := by
  cases call with
  | test =>
    cases r with
    | test pid => exact ⟨fun _ => rfl, fun _ => ⟨rfl, rfl⟩⟩
    | _ => cases kind
  | addService => exact absurd rfl file
  | accessFile name mode =>
    cases r with
    | accessFile r =>
      by_cases ok : r.status = 0 <;> by_cases quiet : r.errno = 0 <;>
        simp [Undone, ProxyCall.received, ProxyCall.untouched, Result.undoable, ok, quiet]
    | _ => cases kind
  | statFile name size mtime =>
    cases r with
    | statFile r =>
      by_cases ok : r.status = 0 <;> by_cases quiet : r.errno = 0 <;>
        simp [Undone, ProxyCall.received, ProxyCall.untouched, Result.undoable, ok, quiet]
    | _ => cases kind
  | readFile filename offset length size mtime bytesRead errormsg buffer =>
    cases r with
    | readFile r =>
      by_cases some : 0 < r.bytesRead
      · refine ⟨fun undone => ?_, fun undoable => by simp [Result.undoable, some] at undoable⟩
        have whole := undone.2.2.2.2.2.2.2
        simp only [some, ↓reduceIte] at whole
        rcases content_lost some with stray | lost
        · exact absurd (undone.1.symm.trans stray) (by decide)
        · exact absurd (lost.symm.trans whole) (by simp)
      · by_cases ok : r.status = 0 <;>
          simp [Undone, ProxyCall.received, receivedContent, Result.undoable, some, ok]
    | _ => cases kind

/-- **The proxy undoes the stub's encoding** exactly if the reply has no content
and a method that failed has set `errno`. The method always gets the arguments
the proxy was called with. -/
theorem proxy_undoes_stub (P : Type) [Parcel P] (s : IXposedService) (call : ProxyCall)
    (errno : Int32) (file : call.transaction ≠ .addService) :
    (onTransact s call.transaction ((call.writeData : StateM P Unit) Parcel.empty).2
      Parcel.empty).invoked = some call.invocation ∧
    (Undone call (call.invocation.invoke s).value
        (call.run (deliver s : Transaction → P → Int32 × P) errno) ↔
      (call.invocation.invoke s).value.undoable = true) := by
  have kind := (invoke_transaction s call.invocation).trans call.invocation_transaction
  have plain : (call.invocation.invoke s).value.plain := by
    cases call with
    | addService => exact absurd rfl file
    | _ => trivial
  obtain ⟨invoked, same⟩ := run_deliver (P := P) s call errno plain
  rw [same]
  exact ⟨invoked, received_undone errno kind file⟩

/-- A service whose methods give fixed results. -/
def fixedService (access : FileStatus) (read : ReadResult) : IXposedService where
  test := ⟨1, []⟩
  addService _ _ _ := ⟨0, []⟩
  accessFile _ _ := ⟨access, []⟩
  statFile _ := ⟨⟨0, 0, 0, 0⟩, []⟩
  readFile _ _ _ _ _ := ⟨read, []⟩

def twoBytes : ReadResult := ⟨0, 2, 7, some ⟨[some 65, some 66, some 0], false⟩, 2, []⟩

theorem access_undone : ∃ out,
    (ProxyCall.accessFile [47] 0).run
      (deliver (fixedService ⟨-1, 13⟩ twoBytes) : Transaction → List Item → Int32 × List Item) 0 =
        out ∧ Undone (.accessFile [47] 0) (.accessFile ⟨-1, 13⟩) out :=
  ⟨_, rfl, (proxy_undoes_stub (List Item) (fixedService ⟨-1, 13⟩ twoBytes) (.accessFile [47] 0) 0
    (by decide)).2.mpr (by decide)⟩

/-- Two bytes of content: the terminator goes through `buffer[2]`. -/
theorem content_strays : ¬ ∀ (P : Type) (_ : Parcel P) (s : IXposedService) (call : ProxyCall)
    (errno : Int32), call.transaction ≠ .addService →
    Undone call (call.invocation.invoke s).value
      (call.run (deliver s : Transaction → P → Int32 × P) errno) := by
  intro undone
  have fine := (undone (List Item) inferInstance (fixedService ⟨0, 0⟩ twoBytes)
    (.readFile [47] 0 2 none none none none none) 0 (by decide)).1
  have same := (run_deliver (P := List Item) (fixedService ⟨0, 0⟩ twoBytes)
    (.readFile [47] 0 2 none none none none none) 0 trivial).2
  rw [same] at fine
  exact absurd fine (by decide)

end Xposed.Binder
