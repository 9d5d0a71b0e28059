import Xposed.Libc

/-!
# The safemode trigger

`xposed_safemode.cpp`: the input devices that report one of the physical keys,
and the two loops that wait for their events. What the system calls give is
input; `vibrate` has an effect only on the time, which is input as well.
-/

namespace Xposed.Safemode

def INITIAL_DELAY : Int := 2
def DETECTION_TIMEOUT : Int := 5
def DETECTION_PRESSES : Nat := 5
def MAX_DEVICES : Nat := 4
def EV_KEY : UInt16 := 1

def KEY_HOME : Int := 102
def KEY_VOLUMEDOWN : Int := 114
def KEY_VOLUMEUP : Int := 115
def KEY_POWER : Int := 116
def KEY_MENU : Int := 139
def KEY_BACK : Int := 158
def KEY_CAMERA : Int := 212

def physical_keycodes : List Int :=
  [KEY_VOLUMEDOWN, KEY_VOLUMEUP, KEY_POWER, KEY_HOME, KEY_BACK, KEY_MENU, KEY_CAMERA]

/-! ## The devices -/

/-- A key bitmask, as `test_bit` reads it. A failing `ioctl` leaves no bit set. -/
abbrev KeyBitmask := Int → Bool

/-- A directory entry of `/dev/input`: whether it can be opened, and what
`EVIOCGBIT` and `EVIOCGKEY` give for it. -/
structure Dirent where
  d_name : Bytes
  opens : Bool
  reports : KeyBitmask
  pressed : KeyBitmask

def Dirent.isDots (de : Dirent) : Bool := de.d_name == [46] || de.d_name == [46, 46]

/-- The keys of a device that are held down. -/
def Dirent.held (de : Dirent) : List Int := physical_keycodes.filter de.pressed

/-- The loop over the keys of one device, with its `break`. -/
def readPressed (pressed : KeyBitmask) : List Int → Int → Int
  | [], pressedKey => pressedKey
  | k :: ks, pressedKey =>
    if pressed k then
      if pressedKey == 0 then readPressed pressed ks k else -1
    else readPressed pressed ks pressedKey

/-- The loop over the directory: the devices that stay open, and `*pressedKey`. -/
def openEntries (max_fds : Nat) : List Dirent → List Dirent → Int → List Dirent × Int
  | [], fds, pressedKey => (fds, pressedKey)
  | de :: rest, fds, pressedKey =>
    if fds.length < max_fds then
      if de.isDots || !de.opens || !physical_keycodes.any de.reports then
        openEntries max_fds rest fds pressedKey
      else
        openEntries max_fds rest (fds ++ [de]) (readPressed de.pressed physical_keycodes pressedKey)
    else (fds, pressedKey)

/-- `none`: the directory cannot be opened. -/
def openKeyDevices (opendir : Option (List Dirent)) : List Dirent × Int :=
  match opendir with
  | none => ([], 0)
  | some entries => openEntries MAX_DEVICES entries [] 0

/-! ## The events -/

/-- A reading of `CLOCK_MONOTONIC`. -/
structure Timespec where
  tv_sec : Int
  tv_nsec : Int
  nonneg : 0 ≤ tv_nsec
  below : tv_nsec < 1000000000
  deriving DecidableEq

def getRemainingTime (expiration now : Timespec) : Int :=
  if now.tv_sec > expiration.tv_sec then 0
  else (expiration.tv_sec - now.tv_sec) * 1000 + (expiration.tv_nsec - now.tv_nsec).tdiv 1000000

/-- `expiration.tv_sec += delay` -/
def Timespec.expire (t : Timespec) (delay : Int) : Timespec := { t with tv_sec := t.tv_sec + delay }

structure InputEvent where
  type : UInt16
  code : UInt16
  value : Int32
  deriving DecidableEq

/-- A device that `epoll_wait` reports, by its place in `fds`, and what `read`
gets from it: `none` when the size is not that of an event. -/
structure Ready where
  fd : Nat
  evt : Option InputEvent
  deriving DecidableEq

/-- The physical key whose press was read, if it was one. Both loops drop
everything else. -/
def Ready.press (r : Ready) : Option Int :=
  match r.evt with
  | none => none
  | some evt =>
    if evt.type != EV_KEY then none
    else if evt.value != 1 then none
    else physical_keycodes.find? fun k => (evt.code.toNat : Int) == k

/-- One turn of a loop: the clock when `getRemainingTime` reads it, and what
`epoll_wait` then gives, `none` when it fails. -/
structure Wait where
  now : Timespec
  poll : Option (List Ready)

/-- What the system calls of one detection give. Behind the last of the `waits`
nothing arrives any more and the time of the loop runs out. -/
structure Input where
  opendir : Option (List Dirent)
  epoll_create : Bool
  /-- by the device's place in `fds` -/
  epoll_ctl : Nat → Bool
  /-- the clock before the first loop -/
  start : Timespec
  /-- the clock before the second loop -/
  restart : Timespec
  waits : List Wait

def Wait.begins (expiration : Timespec) (w : Wait) : Bool := getRemainingTime expiration w.now > 0

/-! ## The first loop -/

/-- The loop over the reported devices: each press is stored. -/
def readInitial : List Ready → Int → Int
  | [], pressedKey => pressedKey
  | r :: rest, pressedKey => readInitial rest (r.press.getD pressedKey)

/-- The key and the waits that are left. `none`: `epoll_wait` failed. -/
def initialLoop (expiration : Timespec) : List Wait → Int → Option (Int × List Wait)
  | [], pressedKey => some (pressedKey, [])
  | w :: rest, pressedKey =>
    if pressedKey == 0 && w.begins expiration then
      match w.poll with
      | none => none
      | some ready => initialLoop expiration rest (readInitial ready pressedKey)
    else some (pressedKey, w :: rest)

/-! ## The second loop -/

/-- The loop over the reported devices. `none`: another key was pressed. -/
def readFurther (pressedKey : Int) : List Ready → Nat → Option Nat
  | [], triggerPresses => some triggerPresses
  | r :: rest, triggerPresses =>
    match r.press with
    | none => readFurther pressedKey rest triggerPresses
    | some k =>
      if pressedKey == k then readFurther pressedKey rest (triggerPresses + 1) else none

/-- `none`: `epoll_wait` failed or another key was pressed. -/
def furtherLoop (expiration : Timespec) (pressedKey : Int) : List Wait → Nat → Option Nat
  | [], triggerPresses => some triggerPresses
  | w :: rest, triggerPresses =>
    if triggerPresses < DETECTION_PRESSES && w.begins expiration then
      match w.poll with
      | none => none
      | some ready =>
        match readFurther pressedKey ready triggerPresses with
        | none => none
        | some triggerPresses => furtherLoop expiration pressedKey rest triggerPresses
    else some triggerPresses

def Input.initialExpiration (e : Input) : Timespec := e.start.expire INITIAL_DELAY

def Input.furtherExpiration (e : Input) : Timespec := e.restart.expire DETECTION_TIMEOUT

/-- Behind the registration of the devices. -/
def detectPresses (e : Input) (pressedKey : Int) : Bool :=
  match initialLoop e.initialExpiration e.waits pressedKey with
  | none => false
  | some (pressedKey, waits) =>
    if pressedKey == 0 then false
    else
      match furtherLoop e.furtherExpiration pressedKey waits 1 with
      | none => false
      | some triggerPresses => triggerPresses ≥ DETECTION_PRESSES

def detectSafemodeTrigger (e : Input) (skipInitialDelay : Bool) : Bool :=
  let (fds, pressedKey) := openKeyDevices e.opendir
  if fds.length == 0 then false
  else if pressedKey < 0 then false
  else if pressedKey == 0 && skipInitialDelay then false
  else if !e.epoll_create then false
  else if !(List.range fds.length).all e.epoll_ctl then false
  else detectPresses e pressedKey

end Xposed.Safemode
