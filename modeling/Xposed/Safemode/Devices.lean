import Xposed.Lib.Descriptors
import Xposed.Fork.FdUtils
import Xposed.Safemode.Sequence

/-!
# The devices that are opened

`openKeyDevices` with the caller's array and the descriptors of the process: which
devices are in the array, what happens to the others, and what is told of the keys.
-/

namespace Xposed.Safemode

open Descriptors (Table)
open Descriptors.Table (Kept kept_openFile kept_openFile_close kept_close kept_lowest)
open Fork (ascii)

def DEVICE_PATH : Bytes := ascii "/dev/input"

def Dirent.devname (de : Dirent) : Bytes := DEVICE_PATH ++ ascii "/" ++ de.d_name

/-- The locals, the caller's array `fds`, which has `max_fds` entries, and the
process's descriptors over the names that were opened. -/
structure Scan where
  count : Nat
  fds : List Nat
  pressedKey : Int
  table : Table Bytes

/-- The loop over the directory. -/
def scanEntries : List Dirent → Scan → Scan
  | [], s => s
  | de :: rest, s =>
    if s.count < s.fds.length then
      if de.isDots then scanEntries rest s
      else if !de.opens then scanEntries rest s
      else
        let fd := s.table.lowest
        let table := s.table.openFile de.devname true
        if !physical_keycodes.any de.reports then
          scanEntries rest { s with table := table.close fd }
        else
          scanEntries rest
            { count := s.count + 1
              fds := s.fds.set s.count fd
              pressedKey := readPressed de.pressed physical_keycodes s.pressedKey
              table }
    else s

/-- `opendir` and `closedir` take a descriptor of their own. -/
def openKeyDevicesIn (opendir : Option (List Dirent)) (fds : List Nat) (t : Table Bytes) : Scan :=
  match opendir with
  | none => ⟨0, fds, 0, t⟩
  | some entries =>
    let s := scanEntries entries ⟨0, fds, 0, t.openFile DEVICE_PATH true⟩
    { s with table := s.table.close t.lowest }

/-- The entries of the array that are filled. -/
def Scan.opened (s : Scan) : List Nat := s.fds.take s.count

/-! ## What the comment promises -/

/-- It can be opened and reports one of the relevant keys. -/
def Dirent.isKeyDevice (de : Dirent) : Bool :=
  !de.isDots && de.opens && physical_keycodes.any de.reports

/-- The first key devices in the order of the directory. -/
def keyDevices (max_fds : Nat) (opendir : Option (List Dirent)) : List Dirent :=
  ((opendir.getD []).filter Dirent.isKeyDevice).take max_fds

/-- The array has the key devices, each open, everything else is as it was, and
`*pressedKey` is what the comment on `openKeyDevices` says. -/
structure Documented (devices : List Dirent) (fds : List Nat) (t : Table Bytes) (s : Scan) :
    Prop where
  count : s.count = devices.length ∧ s.count ≤ fds.length
  array : s.fds.length = fds.length ∧ s.fds.drop s.count = fds.drop s.count
  named : s.opened.map s.table.get = devices.map fun de => some (de.devname, true)
  opened : s.opened.Nodup ∧ ∀ fd ∈ s.opened, t.get fd = none
  others : ∀ fd, fd ∉ s.opened → Kept t s.table fd
  none : (∀ k, ¬ HeldOn devices k) → s.pressedKey = 0
  single : ∀ k, HeldOn devices k → (∀ k', HeldOn devices k' → k' = k) → s.pressedKey = k
  several : ∀ k k', HeldOn devices k → HeldOn devices k' → k ≠ k' → s.pressedKey = -1

/-! ## The loop -/

/-- What the loop has done when `devices` are open at the descriptors `opened`. It
began with the descriptors `t` and the array `fds`. -/
structure Scanned (t : Table Bytes) (fds opened : List Nat) (devices : List Dirent) (s : Scan) :
    Prop where
  count : s.count = opened.length
  fits : opened.length ≤ fds.length
  array : s.fds = opened ++ fds.drop opened.length
  named : opened.map s.table.get = devices.map fun de => some (de.devname, true)
  once : opened.Nodup
  new : ∀ fd ∈ opened, t.get fd = none
  others : ∀ fd, fd ∉ opened → Kept t s.table fd
  pressedKey : s.pressedKey = pressedKeyOf (devices.flatMap Dirent.held)

section
variable {t : Table Bytes} {fds opened : List Nat} {devices : List Dirent} {s : Scan}

theorem Scanned.devices_length (scanned : Scanned t fds opened devices s) :
    devices.length = opened.length := by
  have lengths := congrArg List.length scanned.named
  rw [List.length_map, List.length_map] at lengths
  exact lengths.symm

theorem Scanned.fds_length (scanned : Scanned t fds opened devices s) :
    s.fds.length = fds.length := by
  have fits := scanned.fits
  rw [scanned.array, List.length_append, List.length_drop]
  omega

theorem Scanned.room_iff (scanned : Scanned t fds opened devices s) :
    s.count < s.fds.length ↔ devices.length < fds.length := by
  rw [scanned.count, scanned.fds_length, scanned.devices_length]

theorem Scanned.open_ (scanned : Scanned t fds opened devices s) {fd : Nat} (h : fd ∈ opened) :
    s.table.get fd ≠ none := by
  have there : s.table.get fd ∈ opened.map s.table.get := List.mem_map_of_mem h
  rw [scanned.named] at there
  obtain ⟨de, _, same⟩ := List.mem_map.mp there
  rw [← same]
  exact Option.some_ne_none _

/-- A device that reports no relevant key is closed again. -/
theorem Scanned.skip (scanned : Scanned t fds opened devices s) (name : Bytes) :
    Scanned t fds opened devices
      { s with table := (s.table.openFile name true).close s.table.lowest } := by
  have kept : ∀ fd, Kept s.table ((s.table.openFile name true).close s.table.lowest) fd :=
    kept_openFile_close s.table name true
  refine { scanned with named := ?_, others := fun fd h => ?_ }
  · rw [← scanned.named]
    exact List.map_congr_left fun fd _ => (kept fd).get
  · exact (scanned.others fd h).trans (kept fd)

theorem Scanned.fresh (scanned : Scanned t fds opened devices s) : s.table.lowest ∉ opened := by
  intro old
  exact scanned.open_ old s.table.get_lowest

/-- A key device stays open, and is the next one in the array. -/
theorem Scanned.take (scanned : Scanned t fds opened devices s) (room : s.count < s.fds.length)
    (de : Dirent) :
    Scanned t fds (opened ++ [s.table.lowest]) (devices ++ [de])
      { count := s.count + 1
        fds := s.fds.set s.count s.table.lowest
        pressedKey := readPressed de.pressed physical_keycodes s.pressedKey
        table := s.table.openFile de.devname true } := by
  have space : opened.length < fds.length := by
    rw [← scanned.devices_length]
    exact scanned.room_iff.mp room
  have kept : ∀ fd, fd ≠ s.table.lowest →
      Kept s.table (s.table.openFile de.devname true) fd := fun fd ne =>
    kept_openFile s.table de.devname true ne
  refine ⟨?_, ?_, ?_, ?_, ?_, ?_, ?_, ?_⟩
  · rw [scanned.count, List.length_append, List.length_singleton]
  · rw [List.length_append, List.length_singleton]
    exact space
  · rw [scanned.array, scanned.count, List.set_append_right _ _ (Nat.le_refl _), Nat.sub_self,
      List.drop_eq_getElem_cons space, List.set_cons_zero, List.length_append,
      List.length_singleton, List.append_assoc]
    rfl
  · rw [List.map_append, List.map_append, ← scanned.named]
    congr 1
    · apply List.map_congr_left
      intro fd old
      apply (kept fd _).get
      rintro rfl
      exact scanned.fresh old
    · rw [List.map_singleton, List.map_singleton, Table.get_openFile_self]
  · refine List.nodup_append.mpr ⟨scanned.once, by simp, ?_⟩
    rintro fd old _ new rfl
    rw [List.mem_singleton.mp new] at old
    exact scanned.fresh old
  · intro fd h
    rcases List.mem_append.mp h with old | new
    · exact scanned.new fd old
    · rw [List.mem_singleton.mp new, ← (scanned.others _ scanned.fresh).get]
      exact s.table.get_lowest
  · intro fd h
    obtain ⟨old, new⟩ := not_or.mp (mt List.mem_append.mpr h)
    exact (scanned.others fd old).trans (kept fd (mt List.mem_singleton.mpr new))
  · have held : (devices ++ [de]).flatMap Dirent.held =
        devices.flatMap Dirent.held ++ physical_keycodes.filter de.pressed := by
      simp [Dirent.held]
    rw [scanned.pressedKey, held]
    exact readPressed_eq de.pressed physical_keycodes _ (fun _ h => held_pos h)
      fun _ h => physical_pos h

end

theorem scanEntries_scanned {t : Table Bytes} {fds opened : List Nat} {devices : List Dirent}
    {s : Scan} (scanned : Scanned t fds opened devices s) (entries : List Dirent) :
    ∃ opened', Scanned t fds opened'
      (devices ++ (entries.filter Dirent.isKeyDevice).take (fds.length - devices.length))
      (scanEntries entries s) := by
  induction entries generalizing s opened devices with
  | nil =>
    refine ⟨opened, ?_⟩
    rw [List.filter_nil, List.take_nil, List.append_nil]
    exact scanned
  | cons de rest ih =>
    rw [scanEntries]
    by_cases room : s.count < s.fds.length
    · rw [if_pos room]
      by_cases dots : de.isDots = true
      · rw [if_pos dots, List.filter_cons_of_neg (by simp [Dirent.isKeyDevice, dots])]
        exact ih scanned
      rw [if_neg dots]
      cases opens : de.opens with
      | false =>
        rw [List.filter_cons_of_neg (by simp [Dirent.isKeyDevice, opens])]
        exact ih scanned
      | true =>
        cases reports : physical_keycodes.any de.reports with
        | false =>
          rw [List.filter_cons_of_neg (by simp [Dirent.isKeyDevice, reports])]
          exact ih (scanned.skip de.devname)
        | true =>
          have key : de.isKeyDevice = true := by simp [Dirent.isKeyDevice, dots, opens, reports]
          have space := scanned.room_iff.mp room
          have left : fds.length - devices.length =
              fds.length - (devices ++ [de]).length + 1 := by
            rw [List.length_append, List.length_singleton]
            omega
          rw [List.filter_cons_of_pos key, left, List.take_succ_cons, List.append_cons]
          exact ih (scanned.take room de)
    · have full : fds.length - devices.length = 0 :=
        Nat.sub_eq_zero_of_le (Nat.not_lt.mp (mt scanned.room_iff.mpr room))
      rw [if_neg room, full, List.take_zero, List.append_nil]
      exact ⟨opened, scanned⟩

/-- The whole function. -/
theorem openKeyDevicesIn_scanned (opendir : Option (List Dirent)) (fds : List Nat)
    (t : Table Bytes) : ∃ opened, Scanned t fds opened (keyDevices fds.length opendir)
      (openKeyDevicesIn opendir fds t) := by
  cases opendir with
  | none =>
    have nothing : keyDevices fds.length none = [] := List.take_nil
    rw [nothing]
    exact ⟨[], rfl, Nat.zero_le _, rfl, rfl, List.nodup_nil, by simp, fun fd _ => .refl t fd, rfl⟩
  | some entries =>
    have start : Scanned (t.openFile DEVICE_PATH true) fds [] []
        ⟨0, fds, 0, t.openFile DEVICE_PATH true⟩ :=
      ⟨rfl, Nat.zero_le _, rfl, rfl, List.nodup_nil, by simp, fun fd _ => .refl _ fd, rfl⟩
    obtain ⟨opened, scanned⟩ := scanEntries_scanned start entries
    have apart : t.lowest ∉ opened := by
      intro member
      have closed := scanned.new _ member
      rw [Table.get_openFile_self] at closed
      cases closed
    have ne : ∀ fd ∈ opened, fd ≠ t.lowest := by
      rintro fd member rfl
      exact apart member
    refine ⟨opened, { scanned with named := ?_, new := fun fd h => ?_, others := fun fd h => ?_ }⟩
    · refine Eq.trans (List.map_congr_left fun fd h => ?_) scanned.named
      exact Table.get_close_of_ne _ (ne fd h)
    · rw [← scanned.new fd h, Table.get_openFile_of_ne _ _ _ (ne fd h)]
    · by_cases dir : fd = t.lowest
      · subst dir
        exact kept_lowest (Function.update_self ..)
      · have opening := kept_openFile t DEVICE_PATH true dir
        exact (opening.trans (scanned.others fd h)).trans (kept_close _ dir)

/-! ## The keys -/

theorem two_of_ne {down : List Int} {k k' : Int} (h : k ∈ down) (h' : k' ∈ down) (ne : k ≠ k') :
    1 < down.length := by
  cases down with
  | nil => cases h
  | cons a rest =>
    cases rest with
    | nil => exact absurd ((List.mem_singleton.mp h).trans (List.mem_singleton.mp h').symm) ne
    | cons b rest => simp

/-- Several presses of one key are told like several keys. -/
theorem pressedKeyOf_single_iff {down : List Int} {k : Int} (pos : 0 < k) (there : k ∈ down)
    (only : ∀ k' ∈ down, k' = k) : pressedKeyOf down = k ↔ down.length ≤ 1 := by
  cases down with
  | nil => cases there
  | cons a rest =>
    cases rest with
    | nil => exact iff_of_true (only a List.mem_cons_self) (Nat.le_refl 1)
    | cons b rest =>
      refine iff_of_false (fun told => ?_) (by simp)
      rw [pressedKeyOf_several (by simp)] at told
      omega

/-- **`openKeyDevices` does what its comment says** exactly if a key that is the
only one held down is held on one device only. -/
theorem documented_iff (opendir : Option (List Dirent)) (fds : List Nat) (t : Table Bytes) :
    let devices := keyDevices fds.length opendir
    Documented devices fds t (openKeyDevicesIn opendir fds t) ↔
      ∀ k, (∀ k', HeldOn devices k' → k' = k) → devices.countP (fun de => k ∈ de.held) ≤ 1 := by
  intro devices
  obtain ⟨opened, scanned⟩ := openKeyDevicesIn_scanned opendir fds t
  have told := scanned.pressedKey
  have filled : (openKeyDevicesIn opendir fds t).opened = opened := by
    rw [Scan.opened, scanned.count, scanned.array, List.take_left]
  constructor
  · intro documented k only
    by_cases held : HeldOn devices k
    · rw [← held_length only, ← pressedKeyOf_single_iff (held_pos (heldOn_iff.mp held))
        (heldOn_iff.mp held) fun k' h => only k' (heldOn_iff.mpr h), ← told]
      exact documented.single k held only
    · have none : devices.countP (fun de => k ∈ de.held) = 0 := by
        apply List.countP_eq_zero.mpr
        intro de member here
        exact held ⟨de, member, by simpa using here⟩
      omega
  · intro once
    refine ⟨⟨?_, ?_⟩, ⟨scanned.fds_length, ?_⟩, ?_, ?_, ?_, ?_, ?_, ?_⟩
    · rw [scanned.count, scanned.devices_length]
    · rw [scanned.count]
      exact scanned.fits
    · rw [scanned.count, scanned.array, List.drop_left]
    · rw [filled]
      exact scanned.named
    · rw [filled]
      exact ⟨scanned.once, scanned.new⟩
    · rw [filled]
      exact scanned.others
    · intro never
      have nothing : devices.flatMap Dirent.held = [] :=
        List.eq_nil_iff_forall_not_mem.mpr fun k h => never k (heldOn_iff.mpr h)
      rw [told, nothing]
      rfl
    · intro k held only
      rw [told, pressedKeyOf_single_iff (held_pos (heldOn_iff.mp held)) (heldOn_iff.mp held)
        fun k' h => only k' (heldOn_iff.mpr h), held_length only]
      exact once k only
    · intro k k' held held' ne
      rw [told]
      apply pressedKeyOf_several
      exact two_of_ne (heldOn_iff.mp held) (heldOn_iff.mp held') ne

/-- A device on which `KEY_VOLUMEUP` is held down. -/
def volumeUp (d_name : String) : Dirent where
  d_name := ascii d_name
  opens := true
  reports := fun k => k == KEY_VOLUMEUP
  pressed := fun k => k == KEY_VOLUMEUP

/-- One key that is held on two devices is told like two keys. -/
theorem one_key_twice :
    (openKeyDevicesIn (some [volumeUp "event0", volumeUp "event1"]) [0, 0, 0, 0] .empty).pressedKey =
        -1 ∧
      ¬ ∀ (opendir : Option (List Dirent)) (fds : List Nat) (t : Table Bytes),
        Documented (keyDevices fds.length opendir) fds t (openKeyDevicesIn opendir fds t) := by
  have told : (openKeyDevicesIn (some [volumeUp "event0", volumeUp "event1"]) [0, 0, 0, 0]
      .empty).pressedKey = -1 := by decide
  refine ⟨told, fun documented => ?_⟩
  have single := (documented (some [volumeUp "event0", volumeUp "event1"]) [0, 0, 0, 0] .empty).single
    KEY_VOLUMEUP
  rw [told] at single
  have devices : keyDevices 4 (some [volumeUp "event0", volumeUp "event1"]) =
      [volumeUp "event0", volumeUp "event1"] := rfl
  have held : ∀ name, (volumeUp name).held = [KEY_VOLUMEUP] := fun _ => rfl
  refine absurd (single ⟨volumeUp "event0", ?_, ?_⟩ ?_) (by decide)
  · exact List.mem_cons_self
  · rw [held]
    exact List.mem_singleton_self _
  · rintro k ⟨de, member, here⟩
    simp only [List.length_cons, List.length_nil] at member
    rcases List.mem_cons.mp member with rfl | member
    · rw [held] at here
      exact List.mem_singleton.mp here
    · obtain rfl := List.mem_singleton.mp member
      rw [held] at here
      exact List.mem_singleton.mp here

/-! ## The detection -/

theorem openEntries_fst (max_fds : Nat) (entries fds : List Dirent) (pressedKey : Int) :
    (openEntries max_fds entries fds pressedKey).1 =
      fds ++ (entries.filter Dirent.isKeyDevice).take (max_fds - fds.length) := by
  induction entries generalizing fds pressedKey with
  | nil => simp [openEntries]
  | cons de rest ih =>
    rw [openEntries]
    by_cases room : fds.length < max_fds
    · rw [if_pos room]
      have skips : (de.isDots || !de.opens || !physical_keycodes.any de.reports) =
          !de.isKeyDevice := by
        simp [Dirent.isKeyDevice]
      rw [skips]
      cases key : de.isKeyDevice with
      | false =>
        rw [if_pos (by simp), List.filter_cons_of_neg (by simp [key])]
        exact ih fds pressedKey
      | true =>
        have left : max_fds - fds.length = max_fds - (fds ++ [de]).length + 1 := by
          rw [List.length_append, List.length_singleton]
          omega
        have later := ih (fds ++ [de]) (readPressed de.pressed physical_keycodes pressedKey)
        rw [List.append_assoc, List.singleton_append] at later
        rwa [if_neg (by simp), List.filter_cons_of_pos key, left, List.take_succ_cons]
    · have full : max_fds - fds.length = 0 := by omega
      rw [if_neg room, full, List.take_zero, List.append_nil]

theorem openKeyDevices_eq (opendir : Option (List Dirent)) :
    openKeyDevices opendir = (keyDevices MAX_DEVICES opendir,
      pressedKeyOf ((keyDevices MAX_DEVICES opendir).flatMap Dirent.held)) := by
  cases opendir with
  | none => rfl
  | some entries =>
    have devices := openEntries_fst MAX_DEVICES entries [] 0
    have told : (openEntries MAX_DEVICES entries [] 0).2 =
        pressedKeyOf ((openEntries MAX_DEVICES entries [] 0).1.flatMap Dirent.held) :=
      openEntries_pressedKey MAX_DEVICES entries []
    rw [devices] at told
    exact Prod.ext devices told

/-- What the detection takes from the devices is what the descriptors and the array give. -/
theorem openKeyDevicesIn_eq (opendir : Option (List Dirent)) {fds : List Nat}
    (four : fds.length = MAX_DEVICES) (t : Table Bytes) :
    (openKeyDevicesIn opendir fds t).count = (openKeyDevices opendir).1.length ∧
      (openKeyDevicesIn opendir fds t).pressedKey = (openKeyDevices opendir).2 := by
  obtain ⟨opened, scanned⟩ := openKeyDevicesIn_scanned opendir fds t
  rw [openKeyDevices_eq, ← four, scanned.count, scanned.pressedKey, scanned.devices_length]
  exact ⟨rfl, rfl⟩

end Xposed.Safemode
