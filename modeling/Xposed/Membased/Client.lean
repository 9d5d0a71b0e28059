import Xposed.Membased.Block

/-!
# The client side of the memory-based service

The code of `accessFile`, `statFile` and `readFile`, cut where the mutex is
released: the request a call makes once `waitForIdle` has returned, the stretch
it runs at each response up to its next `callService` or its `makeIdle`, and
the statements it runs after `makeIdle` has unlocked. `alone` puts the pieces
together for a client that has the service to itself.
-/

namespace Xposed.Membased

inductive Call where
  | accessFile (path : Bytes) (mode : Int32)
  | statFile (path : Bytes)
  /-- With what `*bytesRead` holds before the call, if the pointer is given. -/
  | readFile (path : Bytes) (bytesRead : Option Int)
  deriving DecidableEq

/-- What a call leaves: its return value, `errno` and the out-parameters. A
returned pointer is `none` for `NULL`. -/
inductive Outcome where
  | accessFile (ret : Int32) (errno : Int32)
  | statFile (ret : Int32) (errno : Int32) (st : Option Stat)
  | readFile (ret : Option HeapBlock) (errno : Int32) (bytesRead : Option Int)
  deriving DecidableEq

/-- `-1` or `NULL`. -/
def Outcome.failed : Outcome → Bool
  | .accessFile ret _ | .statFile ret _ _ => ret == -1
  | .readFile ret _ _ => ret == none

def Outcome.errno : Outcome → Int32
  | .accessFile _ errno | .statFile _ errno _ | .readFile _ errno _ => errno

/-- What the caller finds in `*bytesRead`. -/
def Outcome.bytesRead : Outcome → Option Int
  | .readFile _ _ bytesRead => bytesRead
  | .accessFile _ _ | .statFile _ _ _ => none

def Call.path : Call → Bytes
  | .accessFile path _ | .statFile path | .readFile path _ => path

/-- `strlen(path) > sizeof(AccessFileData::path) - 1`, the same for all members. -/
def Call.tooLong (call : Call) : Bool := decide (call.path.length > PATH_MAX - 1)

/-- The returns before `waitForIdle`. `accessible` is what `isServiceAccessible`
says; `readFile` clears `*bytesRead` only behind that check. -/
def Call.refusal (accessible : Bool) (call : Call) : Option Outcome :=
  if !accessible then
    some <| match call with
      | .accessFile _ _ => .accessFile (-1) EPERM
      | .statFile _ => .statFile (-1) EPERM none
      | .readFile _ bytesRead => .readFile none EPERM bytesRead
  else if call.tooLong then
    some <| match call with
      | .accessFile _ _ => .accessFile (-1) ENAMETOOLONG
      | .statFile _ => .statFile (-1) ENAMETOOLONG none
      | .readFile _ bytesRead => .readFile none ENAMETOOLONG (bytesRead.map fun _ => 0)
  else none

/-- The locals of `readFile`. -/
structure ReadLocals where
  result : Option HeapBlock
  offset : Int
  totalSize : Int
  bytesRead : Option Int
  deriving DecidableEq

/-- What a call keeps while it waits in `callService`. `looping` tells the
`callService` in `readFile`'s loop from the one before it. -/
inductive Frame where
  | accessFile (path : Bytes) (mode : Int32)
  | statFile (path : Bytes)
  | readFile (looping : Bool) (path : Bytes) (v : ReadLocals)
  deriving DecidableEq

/-- Where a call is once `makeIdle` has unlocked: the statement it runs next. -/
inductive Unlocked where
  /-- `errno = shared->error;` -/
  | accessErrno
  /-- `return shared->error ? -1 : data->result;` -/
  | accessReturn (errno : Int32)
  | statErrno (st : Stat)
  | statReturn (st : Stat) (errno : Int32)
  /-- `if (shared->error && result) { free(result); result = NULL; }` -/
  | readFree (v : ReadLocals)
  | readErrno (v : ReadLocals)
  /-- `return result;` -/
  | readReturn (v : ReadLocals) (errno : Int32)
  deriving DecidableEq

section
variable {U : Type}

/-- `callService` up to its wait. -/
def callService (action : Action) (b : MemBasedState U) : MemBasedState U :=
  { b with action := action, state := .serviceAction, error := 0 }

/-- `makeIdle`, which then broadcasts and unlocks. -/
def makeIdle (b : MemBasedState U) : MemBasedState U :=
  { b with action := .opNone, state := .idle }

@[simp] theorem callService_state (action : Action) (b : MemBasedState U) :
    (callService action b).state = .serviceAction := rfl

@[simp] theorem makeIdle_state (b : MemBasedState U) : (makeIdle b).state = .idle := rfl

@[simp] theorem makeIdle_action (b : MemBasedState U) : (makeIdle b).action = .opNone := rfl

@[simp] theorem makeIdle_error (b : MemBasedState U) : (makeIdle b).error = b.error := rfl

@[simp] theorem makeIdle_data (b : MemBasedState U) : (makeIdle b).data = b.data := rfl

end

section
variable {U : Type} [Abi U]

/-- From the return of `waitForIdle` to the wait in `callService`. -/
def Call.request (call : Call) (b : MemBasedState U) : Frame × MemBasedState U :=
  match call with
  | .accessFile path mode =>
    (.accessFile path mode, callService .opAccessFile
      { b with
        data := Abi.setAccessFile
          { Abi.accessFile b.data with path := path, mode := mode } b.data })
  | .statFile path =>
    (.statFile path, callService .opStatFile
      { b with data := Abi.setStatFile { Abi.statFile b.data with path := path } b.data })
  | .readFile path bytesRead =>
    (.readFile false path ⟨none, 0, 0, bytesRead.map fun _ => 0⟩, callService .opReadFile
      { b with
        data := Abi.setReadFile
          { Abi.readFile b.data with path := path, offset := 0 } b.data })

/-- How a call goes on at a response: with another `callService`, or with
`makeIdle` and its unlock. -/
inductive Turn (U : Type) where
  | again (f : Frame) (b : MemBasedState U)
  | unlock (u : Unlocked) (b : MemBasedState U)

/-- From the test of `while (!data->eof)` on. -/
def readFileNext (path : Bytes) (v : ReadLocals) (b : MemBasedState U) : Turn U :=
  let data := Abi.readFile b.data
  let offset := Abi.int U (v.offset + data.bytesRead)
  if data.eof then
    .unlock (.readFree { v with bytesRead := v.bytesRead.map fun _ => offset }) (makeIdle b)
  else
    .again (.readFile true path { v with offset := offset })
      (callService .opReadFile
        { b with data := Abi.setReadFile { data with offset := offset } b.data })

/-- `memcpy(result + offset, data->content, data->bytesRead)` -/
def copyChunk (result : HeapBlock) (offset : Int) (data : ReadFileData) : HeapBlock :=
  result.store offset (data.content.take data.bytesRead.toNat)

/-- `readFile` at the return of the `callService` before its loop. The block
`malloc` returns is taken to be there. -/
def readFileFirst (path : Bytes) (v : ReadLocals) (b : MemBasedState U) : Turn U :=
  if b.error ≠ 0 then .unlock (.readFree v) (makeIdle b)
  else
    let data := Abi.readFile b.data
    let result := (HeapBlock.malloc (Abi.int U (data.totalSize + 1))).store data.totalSize [0]
    readFileNext path
      { v with totalSize := data.totalSize, result := some (copyChunk result 0 data) } b

/-- The overflow check in the loop. -/
def detectsGrowth (v : ReadLocals) (b : MemBasedState U) : Bool :=
  decide (Abi.int U (v.offset + (Abi.readFile b.data).bytesRead) > v.totalSize)

/-- `readFile` at the return of the `callService` in its loop. -/
def readFileLoop (path : Bytes) (v : ReadLocals) (b : MemBasedState U) : Turn U :=
  if b.error ≠ 0 then .unlock (.readFree v) (makeIdle b)
  else if detectsGrowth v b then .unlock (.readFree v) (makeIdle { b with error := EBUSY })
  else
    readFileNext path
      { v with result := v.result.map fun r => copyChunk r v.offset (Abi.readFile b.data) } b

/-- A call from the return of its `callService`. -/
def Frame.resume (f : Frame) (b : MemBasedState U) : Turn U :=
  match f with
  | .accessFile _ _ => .unlock .accessErrno (makeIdle b)
  | .statFile _ => .unlock (.statErrno (Abi.statFile b.data).st) (makeIdle b)
  | .readFile false path v => readFileFirst path v b
  | .readFile true path v => readFileLoop path v b

/-- The statement a call runs next after its unlock. -/
def Unlocked.step (u : Unlocked) (b : MemBasedState U) : Unlocked ⊕ Outcome :=
  match u with
  | .accessErrno => .inl (.accessReturn b.error)
  | .accessReturn errno =>
    .inr (.accessFile (if b.error ≠ 0 then -1 else (Abi.accessFile b.data).result) errno)
  | .statErrno st => .inl (.statReturn st b.error)
  | .statReturn st errno =>
    .inr (.statFile (if b.error ≠ 0 then -1 else (Abi.statFile b.data).result) errno (some st))
  | .readFree v =>
    .inl (.readErrno (if b.error ≠ 0 then { v with result := none } else v))
  | .readErrno v => .inl (.readReturn v b.error)
  | .readReturn v errno => .inr (.readFile v.result errno v.bytesRead)

/-- The statements left after the unlock, run on a block that stays as it is. -/
def Unlocked.finish (u : Unlocked) (b : MemBasedState U) : Outcome :=
  match u with
  | .accessErrno =>
    .accessFile (if b.error ≠ 0 then -1 else (Abi.accessFile b.data).result) b.error
  | .accessReturn errno =>
    .accessFile (if b.error ≠ 0 then -1 else (Abi.accessFile b.data).result) errno
  | .statErrno st =>
    .statFile (if b.error ≠ 0 then -1 else (Abi.statFile b.data).result) b.error (some st)
  | .statReturn st errno =>
    .statFile (if b.error ≠ 0 then -1 else (Abi.statFile b.data).result) errno (some st)
  | .readFree v => .readFile (if b.error ≠ 0 then none else v.result) b.error v.bytesRead
  | .readErrno v => .readFile v.result b.error v.bytesRead
  | .readReturn v errno => .readFile v.result errno v.bytesRead

/-- `finish` is `step` repeated. -/
theorem Unlocked.step_finish (u : Unlocked) (b : MemBasedState U) :
    (∀ v, u.step b = .inl v → v.finish b = u.finish b) ∧
    (∀ out, u.step b = .inr out → out = u.finish b) := by
  cases u with
  | readFree v =>
    constructor
    · rintro _ ⟨⟩
      by_cases h : b.error = 0 <;> simp [finish, h]
    · rintro _ ⟨⟩
  | accessErrno | statErrno | readErrno =>
    constructor
    · rintro _ ⟨⟩
      rfl
    · rintro _ ⟨⟩
  | accessReturn | statReturn | readReturn =>
    constructor
    · rintro _ ⟨⟩
    · rintro _ ⟨⟩
      rfl

/-- A call's requests, with the looper's answers to them, up to its unlock:
`none` if the answers are too few or too many. -/
def session (f : Frame) (b : MemBasedState U) : List Answer → Option (Unlocked × MemBasedState U)
  | [] => none
  | a :: rest =>
    match f.resume (respond a b) with
    | .again f' b' => session f' b' rest
    | .unlock u b' => if rest.isEmpty then some (u, b') else none

/-- The block as `waitForIdle` finds it. -/
def idleBlock (data : U) (error : Int32) : MemBasedState U := ⟨.idle, .opNone, error, data⟩

/-- A call that passes the checks before `waitForIdle`, with the service to
itself: `data` is what the union held before. -/
def alone (data : U) (call : Call) (answers : List Answer) : Option Outcome :=
  let opened := call.request (idleBlock data 0)
  (session opened.1 opened.2 answers).map fun last => last.1.finish last.2

/-! ## How `readFile` goes on -/

/-- What `readFile`'s locals are once a chunk is copied. -/
def copied (int : Int → Int) (looping : Bool) (v : ReadLocals) (d : ReadFileData) : ReadLocals :=
  match looping with
  | false =>
    let result := (HeapBlock.malloc (int (d.totalSize + 1))).store d.totalSize [0]
    { v with totalSize := d.totalSize, result := some (copyChunk result 0 d) }
  | true => { v with result := v.result.map fun r => copyChunk r v.offset d }

/-- The block while `readFile` waits in a `callService`. -/
structure Asks (b : MemBasedState U) : Prop where
  action : b.action = .opReadFile
  clear : b.error = 0

/-- How `readFile` goes on at a response, and with which locals. -/
inductive Turned (looping : Bool) (path : Bytes) (v : ReadLocals) (b : MemBasedState U) :
    Turn U → Prop where
  | failed (error : b.error ≠ 0) : Turned looping path v b (.unlock (.readFree v) (makeIdle b))
  | grew (clear : b.error = 0) (loop : looping = true)
      (grows : v.totalSize < Abi.int U (v.offset + (Abi.readFile b.data).bytesRead)) :
      Turned looping path v b (.unlock (.readFree v) (makeIdle { b with error := EBUSY }))
  | done (clear : b.error = 0)
      (fits : looping = true →
        Abi.int U (v.offset + (Abi.readFile b.data).bytesRead) ≤ v.totalSize)
      (eof : (Abi.readFile b.data).eof = true) :
      Turned looping path v b (.unlock
        (.readFree { copied (Abi.int U) looping v (Abi.readFile b.data) with
          bytesRead := v.bytesRead.map fun _ =>
            Abi.int U (v.offset + (Abi.readFile b.data).bytesRead) })
        (makeIdle b))
  | again (b' : MemBasedState U) (clear : b.error = 0)
      (fits : looping = true →
        Abi.int U (v.offset + (Abi.readFile b.data).bytesRead) ≤ v.totalSize)
      (more : (Abi.readFile b.data).eof = false) (asks : Asks b')
      (member : Abi.readFile b'.data = { Abi.readFile b.data with
        offset := Abi.int U (v.offset + (Abi.readFile b.data).bytesRead) }) :
      Turned looping path v b (.again
        (.readFile true path { copied (Abi.int U) looping v (Abi.readFile b.data) with
          offset := Abi.int U (v.offset + (Abi.readFile b.data).bytesRead) })
        b')

theorem readFileNext_turned {looping : Bool} {path : Bytes} {v : ReadLocals} {b : MemBasedState U}
    (clear : b.error = 0)
    (fits : looping = true → Abi.int U (v.offset + (Abi.readFile b.data).bytesRead) ≤ v.totalSize) :
    Turned looping path v b
      (readFileNext path (copied (Abi.int U) looping v (Abi.readFile b.data)) b) := by
  have kept : (copied (Abi.int U) looping v (Abi.readFile b.data)).offset = v.offset := by
    cases looping <;> rfl
  unfold readFileNext
  dsimp only
  split
  · rename_i eof
    cases looping <;> exact .done clear fits eof
  · rename_i more
    have more' : (Abi.readFile b.data).eof = false := by simpa using more
    rw [kept]
    exact .again _ clear fits more' ⟨rfl, rfl⟩ (Abi.readFile_set _ _)

theorem resume_turned (looping : Bool) (path : Bytes) (v : ReadLocals) (b : MemBasedState U) :
    Turned looping path v b ((Frame.readFile looping path v).resume b) := by
  cases looping with
  | false =>
    unfold Frame.resume readFileFirst
    dsimp only
    split
    · exact .failed ‹_›
    · rename_i clear
      exact readFileNext_turned (Decidable.not_not.mp clear) (by simp)
  | true =>
    unfold Frame.resume readFileLoop
    dsimp only
    split
    · exact .failed ‹_›
    · rename_i clear
      split
      · rename_i grows
        exact .grew (Decidable.not_not.mp clear) rfl (by simpa [detectsGrowth] using grows)
      · rename_i fits
        exact readFileNext_turned (Decidable.not_not.mp clear)
          (fun _ => by simpa [detectsGrowth] using fits)

theorem Turned.of_error {looping : Bool} {path : Bytes} {v : ReadLocals} {b : MemBasedState U}
    {turn : Turn U} (turned : Turned looping path v b turn) (error : b.error ≠ 0) :
    turn = .unlock (.readFree v) (makeIdle b) := by
  cases turned with
  | failed => rfl
  | grew clear | done clear | again _ clear => exact absurd clear error

/-! ## What each piece does to the state and the action -/

theorem request_state (call : Call) (b : MemBasedState U) :
    (call.request b).2.state = .serviceAction := by
  cases call <;> rfl

/-- The request does not depend on the control fields it overwrites. -/
theorem request_idleBlock (call : Call) (b : MemBasedState U) :
    call.request b = call.request (idleBlock b.data 0) := by
  cases call <;> rfl

theorem readFileNext_state (path : Bytes) (v : ReadLocals) (b : MemBasedState U) :
    (∀ f b', readFileNext path v b = .again f b' → b'.state = .serviceAction) ∧
    (∀ u b', readFileNext path v b = .unlock u b' → b'.state = .idle ∧ b'.action = .opNone) := by
  unfold readFileNext
  dsimp only
  split <;> constructor <;> rintro _ _ ⟨⟩ <;> simp

/-- A call goes on with a new request, or leaves the service idle. -/
theorem resume_state (f : Frame) (b : MemBasedState U) :
    (∀ f' b', f.resume b = .again f' b' → b'.state = .serviceAction) ∧
    (∀ u b', f.resume b = .unlock u b' → b'.state = .idle ∧ b'.action = .opNone) := by
  unfold Frame.resume
  split
  · constructor <;> rintro _ _ ⟨⟩
    exact ⟨rfl, rfl⟩
  · constructor <;> rintro _ _ ⟨⟩
    exact ⟨rfl, rfl⟩
  · unfold readFileFirst
    split
    · constructor <;> rintro _ _ ⟨⟩
      exact ⟨rfl, rfl⟩
    · exact readFileNext_state _ _ _
  · unfold readFileLoop
    split
    · constructor <;> rintro _ _ ⟨⟩
      exact ⟨rfl, rfl⟩
    · split
      · constructor <;> rintro _ _ ⟨⟩
        exact ⟨rfl, rfl⟩
      · exact readFileNext_state _ _ _

end

end Xposed.Membased
