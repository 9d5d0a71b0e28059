import Xposed.Lib.Descriptors
import Xposed.Libc

/-!
# Files that are closed before a fork

`fd_utils-inl.h`: the descriptors of whitelisted files are recorded, replaced by
`/dev/null` and opened again afterwards. Which of the system calls fail is
input, as far as it does not follow from the descriptors and files.
-/

namespace Xposed.Fork

open Descriptors (Table)

/-- The flags of `open` and `F_GETFL`, with the values for ARM. -/
abbrev Flags := BitVec 32

def O_RDONLY : Flags := 0
def O_WRONLY : Flags := 1
def O_RDWR : Flags := 2
def O_APPEND : Flags := 0x400
def O_NONBLOCK : Flags := 0x800
def O_DSYNC : Flags := 0x1000
def O_ASYNC : Flags := 0x2000
def O_DIRECT : Flags := 0x10000
def O_LARGEFILE : Flags := 0x20000
def O_NOATIME : Flags := 0x40000
def O_SYNC : Flags := 0x101000
def kOpenFlags : Flags := O_RDONLY ||| O_WRONLY ||| O_RDWR ||| O_DSYNC ||| O_SYNC

/-- What `F_SETFL` can change on Linux. -/
def setfl : Flags := O_APPEND ||| O_ASYNC ||| O_DIRECT ||| O_NOATIME ||| O_NONBLOCK

/-- The local name of a socket. -/
inductive SockAddr where
  | unix (sun_path : Bytes)
  | netlink
  | other
  deriving DecidableEq

/-- A file, character device or socket. -/
structure File where
  inode : Nat
  st_mode : UInt32
  /-- `lseek` works on it. -/
  seekable : Bool
  /-- what `getsockname` gives -/
  address : SockAddr
  deriving DecidableEq

def S_ISSOCK (mode : UInt32) : Bool := mode &&& 0o170000 == 0o140000
def S_ISREG (mode : UInt32) : Bool := mode &&& 0o170000 == 0o100000
def S_ISCHR (mode : UInt32) : Bool := mode &&& 0o170000 == 0o020000

/-- An open file description. -/
structure OpenFile where
  file : File
  /-- what the link in `/proc/self/fd` says -/
  path : Bytes
  flags : Flags
  pos : Nat
  deriving DecidableEq

/-- The description that `open` makes. -/
def opened (file : File) (path : Bytes) (flags : Flags) : OpenFile :=
  ⟨file, path, flags ||| O_LARGEFILE, 0⟩

def devNull : File := ⟨0, 0o020666, true, .other⟩

def ascii (s : String) : Bytes := s.toList.map fun c => c.toNat.toUInt8

def devNullPath : Bytes := ascii "/dev/null"

def kPathPrefixWhitelist : List String :=
  ["/data/app/", "/data/app-private/", "/system/app/", "/system/priv-app/", "/vendor/app/",
    "/vendor/priv-app/"]

def IsWhitelisted (path : Bytes) : Bool :=
  kPathPrefixWhitelist.any fun front => (ascii front).isPrefixOf path

/-- The build: the width of `off_t`, and `PLATFORM_SDK_VERSION`. -/
structure Platform where
  lp64 : Bool
  sdk : Nat

def Platform.off_t (p : Platform) (x : Int) : Int := if p.lp64 then x else int32 x

/-- `FileDescriptorInfo`, without `stat`, which nothing reads. -/
structure FileDescriptorInfo where
  fd : Nat
  file_path : Bytes
  open_flags : Flags
  /-- `FD_CLOEXEC` is set. -/
  fd_flags : Bool
  fs_flags : Flags
  offset : Int
  is_sock : Bool
  deriving DecidableEq

/-- Which of the calls of `createFromFd` succeed. -/
structure Queries where
  fstat : Bool
  getsockname : Bool
  readlink : Bool
  getfd : Bool
  getfl : Bool

def GetSocketName (p : Platform) (q : Queries) (address : SockAddr) : Option Bytes :=
  if !q.getsockname then none
  else
    match address with
    | .netlink => if p.sdk ≤ 23 then some (ascii "@netlink@") else none
    | .other => none
    | .unix sun_path =>
      match sun_path with
      | [] => none
      | first :: _ =>
        if first == 0 then none
        else if sun_path.getLast? == some 0 then some sun_path.dropLast
        else some sun_path

def createFromFd (p : Platform) (q : Queries) (t : Table OpenFile) (fd : Nat) :
    Option FileDescriptorInfo :=
  match t.get fd with
  | none => none
  | some (f, cloexec) =>
    if !q.fstat then none
    else if S_ISSOCK f.file.st_mode then
      match GetSocketName p q f.file.address with
      | none => none
      | some socket_name =>
        if !IsWhitelisted socket_name then none else some ⟨fd, [], 0, false, 0, 0, true⟩
    else if !q.readlink then none
    else if !IsWhitelisted (f.path.take 4096) then none
    else if !S_ISCHR f.file.st_mode && !S_ISREG f.file.st_mode then none
    else if !q.getfd then none
    else if !q.getfl then none
    else
      some
        { fd
          file_path := f.path.take 4096
          open_flags := f.flags &&& kOpenFlags
          fd_flags := cloexec
          fs_flags := f.flags &&& ~~~kOpenFlags
          offset := p.off_t (if f.file.seekable then f.pos else -1)
          is_sock := false }

/-- Which of the calls of `Detach` succeed. -/
structure DetachCalls where
  opens : Bool
  dup2 : Bool
  close : Bool

/-- `Detach`. A failing `close` gives the descriptor up nevertheless. -/
def FileDescriptorInfo.Detach (info : FileDescriptorInfo) (c : DetachCalls) (t : Table OpenFile) :
    Bool × Table OpenFile :=
  if !c.opens then (false, t)
  else
    let dev_null_fd := t.lowest
    let t := t.openFile (opened devNull devNullPath O_RDWR) false
    if !c.dup2 then (false, t)
    else (c.close, (t.dup2 dev_null_fd info.fd).close dev_null_fd)

/-- Which of the calls of `Reopen` succeed. -/
structure ReopenCalls where
  opens : Bool
  setfd : Bool
  setfl : Bool
  lseek : Bool
  dup2 : Bool

/-- `F_SETFL` -/
def OpenFile.setfl (flags : Flags) (f : OpenFile) : OpenFile :=
  { f with flags := (f.flags &&& ~~~Fork.setfl) ||| (flags &&& Fork.setfl) }

/-- `lseek64` with `SEEK_SET` -/
def OpenFile.seek (offset : Int) (f : OpenFile) : OpenFile := { f with pos := offset.toNat }

/-- `Reopen`, where `named` says what the paths name. -/
def FileDescriptorInfo.Reopen (info : FileDescriptorInfo) (named : Bytes → Option File)
    (c : ReopenCalls) (t : Table OpenFile) : Bool × Table OpenFile :=
  if info.is_sock then (true, t)
  else
    match named info.file_path with
    | none => (false, t)
    | some file =>
      if !c.opens then (false, t)
      else
        let new_fd := t.lowest
        let t := t.openFile (opened file info.file_path info.open_flags) false
        if !c.setfd then (false, t.close new_fd)
        else
          let t := t.setCloexec new_fd info.fd_flags
          if !c.setfl then (false, t.close new_fd)
          else
            let t := t.update new_fd (OpenFile.setfl info.fs_flags)
            if info.offset ≠ -1 && !(c.lseek && file.seekable && 0 ≤ info.offset) then
              (false, t.close new_fd)
            else
              let t := if info.offset ≠ -1 then t.update new_fd (OpenFile.seek info.offset) else t
              if !c.dup2 then (false, t.close new_fd)
              else (true, (t.dup2 new_fd info.fd).close new_fd)

/-- An entry of `/proc/self/fd`: `.` and `..`, or a number. -/
inductive Dirent where
  | dots
  | fd (n : Nat)
  deriving DecidableEq

def ParseFd (e : Dirent) (dir_fd : Nat) : Option Nat :=
  match e with
  | .dots => none
  | .fd n => if n ≤ 2 || n == dir_fd then none else some n

/-- What happens to the calls of `Create`, those for a descriptor by its number. -/
structure CreateCalls where
  opendir : Bool
  queries : Nat → Queries
  detach : Nat → DetachCalls
  closedir : Bool

/-- The loop over the directory, with `open_fd_map` as the list of its values. -/
def captureAll (p : Platform) (c : CreateCalls) (dir_fd : Nat) :
    List Dirent → List FileDescriptorInfo → Table OpenFile →
      List FileDescriptorInfo × Table OpenFile
  | [], open_fd_map, t => (open_fd_map, t)
  | e :: rest, open_fd_map, t =>
    match ParseFd e dir_fd with
    | none => captureAll p c dir_fd rest open_fd_map t
    | some fd =>
      match createFromFd p (c.queries fd) t fd with
      | none => captureAll p c dir_fd rest open_fd_map t
      | some info =>
        captureAll p c dir_fd rest ((open_fd_map.filter fun i => i.fd != fd) ++ [info])
          (info.Detach (c.detach fd) t).2

/-- The directory `/proc/self/fd`. -/
def kFd : OpenFile := ⟨⟨1, 0o040500, true, .other⟩, [], O_LARGEFILE, 0⟩

/-- `FileDescriptorTable::Create`. -/
def Create (p : Platform) (c : CreateCalls) (listing : List Dirent) (t : Table OpenFile) :
    Option (List FileDescriptorInfo) × Table OpenFile :=
  if !c.opendir then (none, t)
  else
    let dir_fd := t.lowest
    let (open_fd_map, t) := captureAll p c dir_fd listing [] (t.openFile kFd true)
    let t := t.close dir_fd
    if !c.closedir then (none, t) else (some open_fd_map, t)

/-- `FileDescriptorTable::Reopen`, in the order in which the map is iterated:
whether every call of `Reopen` returned true, which nobody asks. -/
def reopenAll (named : Bytes → Option File) (c : Nat → ReopenCalls) :
    List FileDescriptorInfo → Table OpenFile → Bool × Table OpenFile
  | [], t => (true, t)
  | info :: rest, t =>
    let (done, t) := info.Reopen named (c info.fd) t
    let (all, t) := reopenAll named c rest t
    (done && all, t)

end Xposed.Fork
