import Xposed.Libc

/-!
# The shared block of the memory-based service, and its looper

`MemBasedState` without the mutex and the condition variable, which belong to
the monitor, and the `switch` of `looper`, which answers one request.
-/

namespace Xposed.Membased

inductive State where
  | notRunning
  | idle
  | serviceAction
  | serverResponse
  deriving DecidableEq, Repr

inductive Action where
  | opNone
  | opAccessFile
  | opStatFile
  | opReadFile
  deriving DecidableEq, Repr

structure AccessFileData where
  path : Bytes
  mode : Int32
  result : Int32
  deriving DecidableEq

structure StatFileData where
  path : Bytes
  st : Stat
  result : Int32
  deriving DecidableEq

/-- The size of `ReadFileData::content`. -/
def contentSize : Nat := 32 * 1024

structure ReadFileData where
  path : Bytes
  offset : Int
  totalSize : Int
  bytesRead : Int
  eof : Bool
  content : Bytes
  deriving DecidableEq

/-- What the compiler fixes. The union's members share their bytes: a member
read back is the one written last, and nothing is known of the other two. `int`
is the value an `int` holds after a conversion or an operation with that exact
result. -/
class Abi (U : Type) where
  accessFile : U → AccessFileData
  setAccessFile : AccessFileData → U → U
  accessFile_set : ∀ d u, accessFile (setAccessFile d u) = d
  statFile : U → StatFileData
  setStatFile : StatFileData → U → U
  statFile_set : ∀ d u, statFile (setStatFile d u) = d
  readFile : U → ReadFileData
  setReadFile : ReadFileData → U → U
  readFile_set : ∀ d u, readFile (setReadFile d u) = d
  int : Int → Int

attribute [simp] Abi.accessFile_set Abi.statFile_set Abi.readFile_set

/-- A union kept as the member written last. Through another member the words
at the same place come out, and zeros where there are none. -/
inductive Member where
  | accessFile (d : AccessFileData)
  | statFile (d : StatFileData)
  | readFile (d : ReadFileData)
  deriving DecidableEq

instance : Abi Member where
  accessFile
    | .accessFile d => d
    | .statFile d => ⟨d.path, 0, 0⟩
    | .readFile d => ⟨d.path, .ofInt d.offset, .ofInt d.totalSize⟩
  setAccessFile d _ := .accessFile d
  accessFile_set _ _ := rfl
  statFile
    | .statFile d => d
    | .accessFile d => ⟨d.path, ⟨0, 0, 0⟩, 0⟩
    | .readFile d => ⟨d.path, ⟨0, 0, 0⟩, 0⟩
  setStatFile d _ := .statFile d
  statFile_set _ _ := rfl
  readFile
    | .readFile d => d
    | .accessFile d => ⟨d.path, d.mode.toInt, d.result.toInt, 0, false, []⟩
    | .statFile d => ⟨d.path, 0, 0, 0, false, []⟩
  setReadFile d _ := .readFile d
  readFile_set _ _ := rfl
  int := int32

/-- What `mmap` puts into the union. -/
def Member.zero : Member := .accessFile ⟨[], 0, 0⟩

structure MemBasedState (U : Type) where
  state : State
  action : Action
  error : Int32
  data : U

/-- What each libc call of the looper gives while it answers one request. The
`access` and `stat` of `TEMP_FAILURE_RETRY` are the last attempt. -/
structure Answer where
  access : Except Errno Unit
  stat : Except Errno Stat
  fopen : Except Errno Unit
  fseek : Fseek
  fread : Fread contentSize

section
variable {U : Type} [Abi U]

/-- The fields `init` gives the block; the union holds what `mmap` put there. -/
def init (data : U) : MemBasedState U := ⟨.notRunning, .opNone, 0, data⟩

/-- `case OP_ACCESS_FILE` -/
def serveAccessFile (a : Answer) (b : MemBasedState U) : MemBasedState U :=
  match a.access with
  | .ok _ =>
    { b with data := Abi.setAccessFile { Abi.accessFile b.data with result := 0 } b.data }
  | .error e =>
    { b with
      error := e.code
      data := Abi.setAccessFile { Abi.accessFile b.data with result := -1 } b.data }

/-- `case OP_STAT_FILE` -/
def serveStatFile (a : Answer) (b : MemBasedState U) : MemBasedState U :=
  match a.stat with
  | .ok st =>
    { b with data := Abi.setStatFile { Abi.statFile b.data with st := st, result := 0 } b.data }
  | .error e =>
    { b with
      error := e.code
      data := Abi.setStatFile { Abi.statFile b.data with result := -1 } b.data }

/-- `data->offset > 0 && fseek(f, data->offset, SEEK_SET)` -/
def seek (a : Answer) (offset : Int) : Fseek := if 0 < offset then a.fseek else .ok

/-- `case OP_READ_FILE`. Each `break` leaves the fields behind it as they were,
and `fread` overwrites only as much of `content` as it delivers. -/
def serveReadFile (a : Answer) (b : MemBasedState U) : MemBasedState U :=
  match a.stat with
  | .error e => { b with error := e.code }
  | .ok st =>
    let data := { Abi.readFile b.data with totalSize := Abi.int U st.st_size.toInt }
    let b := { b with data := Abi.setReadFile data b.data }
    match a.fopen with
    | .error e => { b with error := e.code }
    | .ok _ =>
      match seek a data.offset with
      | .fail _ ferror => { b with error := ferror }
      | .ok =>
        { b with
          error := a.fread.ferror
          data := Abi.setReadFile
            { data with
              bytesRead := Abi.int U a.fread.data.length
              content := a.fread.data ++ data.content.drop a.fread.data.length
              eof := a.fread.feof } b.data }

/-- The `switch` of `looper`. -/
def serve (a : Answer) (b : MemBasedState U) : MemBasedState U :=
  match b.action with
  | .opAccessFile => serveAccessFile a b
  | .opStatFile => serveStatFile a b
  | .opReadFile => serveReadFile a b
  | .opNone => b

/-- One turn of the looper: the `switch` and the two lines after it, before the
broadcast. -/
def respond (a : Answer) (b : MemBasedState U) : MemBasedState U :=
  { serve a b with state := .serverResponse }

/-- The `switch` writes neither the state nor the action. -/
theorem serve_control (a : Answer) (b : MemBasedState U) :
    (serve a b).state = b.state ∧ (serve a b).action = b.action := by
  unfold serve
  split
  · unfold serveAccessFile; split <;> exact ⟨rfl, rfl⟩
  · unfold serveStatFile; split <;> exact ⟨rfl, rfl⟩
  · unfold serveReadFile
    split
    · exact ⟨rfl, rfl⟩
    · dsimp only
      split
      · exact ⟨rfl, rfl⟩
      · split <;> exact ⟨rfl, rfl⟩
  · exact ⟨rfl, rfl⟩

@[simp] theorem respond_state (a : Answer) (b : MemBasedState U) :
    (respond a b).state = .serverResponse := rfl

end

end Xposed.Membased
