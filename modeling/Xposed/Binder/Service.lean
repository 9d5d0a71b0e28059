import Xposed.Binder.Parcel

/-!
# The Binder service

The methods of `XposedService`, which the system and the app service share.
`int` arithmetic wraps, and `size_t` has `sizeBits` bits.
-/

namespace Xposed.Binder

/-- What a method does outside its process. -/
inductive Performed where
  | access (path : Bytes) (mode : Int32)
  | stat (path : Bytes)
  | fopen (path : Bytes)
  /-- `addService` of the service manager. -/
  | addService (name : String16) (service : IBinder) (allowIsolated : Bool)
  deriving DecidableEq

structure Effect (α : Type) where
  value : α
  performed : List Performed

/-- The returned status, with `errno` as the method leaves it. -/
structure FileStatus where
  status : Int32
  errno : Int32

/-- Without success nothing is known of `size` and `time`. -/
structure StatResult where
  status : Int32
  errno : Int32
  size : Int64
  time : Int64

structure ReadResult where
  status : Int32
  size : Int64
  mtime : Int64
  buffer : Option HeapBlock
  bytesRead : Int32
  errormsg : String16

/-- The methods of a service object. -/
structure IXposedService where
  test : Effect Int32
  addService : String16 → IBinder → Bool → Effect Int32
  accessFile : String16 → Int32 → Effect FileStatus
  statFile : String16 → Effect StatResult
  readFile : String16 → Int32 → Int32 → Int64 → Int64 → Effect ReadResult

/-- The platform's string conversions and messages. -/
structure Platform where
  string8 : String16 → Bytes
  string16 : Bytes → String16
  strerror : Int32 → Bytes
  sizeBits : Nat

/-- A platform with single-byte strings and no messages. -/
def plainPlatform : Platform :=
  ⟨fun s => s.map UInt16.toUInt8, fun b => b.map UInt8.toUInt16, fun _ => [], 32⟩

def Platform.size_t (lib : Platform) (x : Int32) : Nat := (x.toInt % 2 ^ lib.sizeBits).toNat

/-- What libc and the service manager answer to one method call. The `access`
and `stat` of `TEMP_FAILURE_RETRY` are the last attempt. -/
structure Files where
  access : Except Errno Unit
  stat : Except Errno Stat
  malloc : Bool
  fopen : Except Errno Unit
  fseek : Fseek
  fread : ∀ n, Fread n
  addService : Int32

/-- `pid` is the service's own, `errno` its value before the call. -/
structure Context where
  pid : Int32
  callingUid : UInt32
  installerUid : UInt32
  errno : Int32

def UID_SYSTEM : UInt32 := 1000

def text (s : String) : Bytes := s.toList.map fun c => c.toNat.toUInt8

def decimal (x : Int) : Bytes := text (toString x)

def formatToString16 (lib : Platform) (parts : List Bytes) : String16 := lib.string16 parts.flatten

structure XposedService where
  isSystem : Bool

namespace XposedService

def test (ctx : Context) : Effect Int32 := ⟨ctx.pid, []⟩

def addService (self : XposedService) (ctx : Context) (files : Files) (name : String16)
    (service : IBinder) (allowIsolated : Bool) : Effect Int32 :=
  if !self.isSystem || ctx.callingUid != ctx.installerUid then ⟨-1, []⟩
  else ⟨files.addService, [.addService name service allowIsolated]⟩

/-- `filename` points into a `String8` that is gone by then; its bytes are taken
to be still there. -/
def accessFile (lib : Platform) (ctx : Context) (files : Files) (filename16 : String16)
    (mode : Int32) : Effect FileStatus :=
  if ctx.callingUid ≠ UID_SYSTEM then ⟨⟨-1, EPERM⟩, []⟩
  else
    let filename := lib.string8 filename16
    match files.access with
    | .ok _ => ⟨⟨0, ctx.errno⟩, [.access filename mode]⟩
    | .error e => ⟨⟨-1, e.code⟩, [.access filename mode]⟩

/-- `size` and `time` are what the stub's locals hold before the call. The bytes
of `filename` are taken to be still there, as in `accessFile`. -/
def statFile (lib : Platform) (ctx : Context) (files : Files) (filename16 : String16)
    (size time : Int64) : Effect StatResult :=
  if ctx.callingUid ≠ UID_SYSTEM then ⟨⟨-1, EPERM, size, time⟩, []⟩
  else
    let filename := lib.string8 filename16
    match files.stat with
    | .ok st => ⟨⟨0, ctx.errno, st.st_size, st.st_mtime⟩, [.stat filename]⟩
    | .error e => ⟨⟨-1, e.code, size, time⟩, [.stat filename]⟩

/-- The two in-out-parameters of `readFile`. -/
structure Metadata where
  size : Int64
  mtime : Int64

/-- A failure of `readFile` that leaves no buffer. -/
def failed (at_ : Metadata) (status : Int32) (errormsg : String16) : ReadResult :=
  ⟨status, at_.size, at_.mtime, none, -1, errormsg⟩

/-- From `fopen` on, with the buffer for `length` bytes. -/
def readContent (lib : Platform) (files : Files) (filename : Bytes) (at_ : Metadata)
    (offset length : Int32) (buffer : HeapBlock) : ReadResult :=
  match files.fopen with
  | .error e =>
    failed at_ e.code
      (formatToString16 lib [lib.strerror e.code, text " during fopen() on ", filename])
  | .ok _ =>
    match if 0 < offset then files.fseek else .ok with
    | .fail _ ferror =>
      failed at_ ferror
        (formatToString16 lib
          [lib.strerror ferror, text " during fseek() to offset ", decimal offset.toInt,
            text " for ", filename])
    | .ok =>
      let r := files.fread (lib.size_t length)
      if r.ferror ≠ 0 then
        failed at_ r.ferror
          (formatToString16 lib
            [lib.strerror r.ferror, text " during fread(), read ", decimal (-1),
              text " bytes for ", filename])
      else
        ⟨r.ferror, at_.size, at_.mtime, some (buffer.store 0 r.data), .ofNat r.data.length, []⟩

/-- From the range check on: `readFile` of a file that has changed. -/
def readRange (lib : Platform) (files : Files) (filename : Bytes) (at_ : Metadata)
    (offset length : Int32) : Effect ReadResult :=
  if 0 < offset ∧ at_.size ≤ offset.toInt64 then
    ⟨failed at_ EINVAL
      (formatToString16 lib
        [text "offset ", decimal offset.toInt, text " >= size ", decimal at_.size.toInt,
          text " for ", filename]), []⟩
  else
    let offset := if offset < 0 then 0 else offset
    if 0 < length ∧ at_.size < (offset + length).toInt64 then
      ⟨failed at_ EINVAL
        (formatToString16 lib
          [text "offset ", decimal offset.toInt, text " + length ", decimal length.toInt,
            text " > size ", decimal at_.size.toInt, text " for ", filename]), []⟩
    else if at_.size = 0 then ⟨⟨0, at_.size, at_.mtime, none, 0, []⟩, []⟩
    else
      let length := if length ≤ 0 then (at_.size - offset.toInt64).toInt32 else length
      if !files.malloc then
        ⟨failed at_ ENOMEM
          (formatToString16 lib
            [text "allocating buffer with ", decimal (length + 1).toInt, text " bytes failed"]), []⟩
      else
        let buffer := (HeapBlock.malloc (length + 1).toInt).store length.toInt [0]
        ⟨readContent lib files filename at_ offset length buffer, [.fopen filename]⟩

/-- The test for a file that is as the caller knows it. -/
def isUnchanged (st : Stat) (size mtime : Int64) : Bool :=
  size == st.st_size && mtime == st.st_mtime.toInt32.toInt64

/-- `readFile`. The other out-parameters are those the stub passes: no buffer,
-1 and an empty message. The bytes of `filename` are taken to be still there, as
in `accessFile`. -/
def readFile (lib : Platform) (ctx : Context) (files : Files) (filename16 : String16)
    (offset length : Int32) (size mtime : Int64) : Effect ReadResult :=
  if ctx.callingUid ≠ UID_SYSTEM then ⟨failed ⟨size, mtime⟩ EPERM [], []⟩
  else
    let filename := lib.string8 filename16
    match files.stat with
    | .error e =>
      ⟨failed ⟨size, mtime⟩ e.code
        (formatToString16 lib [lib.strerror e.code, text " during stat() on ", filename]),
        [.stat filename]⟩
    | .ok st =>
      if S_ISDIR st.st_mode then
        ⟨failed ⟨size, mtime⟩ EISDIR (formatToString16 lib [filename, text " is a directory"]),
          [.stat filename]⟩
      else if isUnchanged st size mtime then
        ⟨⟨0, size, mtime, none, -1, []⟩, [.stat filename]⟩
      else
        let r := readRange lib files filename ⟨st.st_size, st.st_mtime⟩ offset length
        ⟨r.value, .stat filename :: r.performed⟩

/-- The service object. `locals` are what the stub's `size` and `time` of a
`statFile` hold before it. -/
def methods (self : XposedService) (lib : Platform) (ctx : Context) (files : Files)
    (locals : Int64 × Int64) : IXposedService where
  test := test ctx
  addService := self.addService ctx files
  accessFile := accessFile lib ctx files
  statFile name := statFile lib ctx files name locals.1 locals.2
  readFile := readFile lib ctx files

end XposedService

end Xposed.Binder
