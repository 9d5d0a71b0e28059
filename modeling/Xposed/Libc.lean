import Mathlib.Algebra.Group.Int.Defs
import Mathlib.Algebra.Group.Nat.Defs

/-!
# What the C library answers

The outcomes of the libc calls the service makes on behalf of its clients, and
the memory a client gets from `malloc`.
-/

namespace Xposed

/-- The bytes of a C string, without its terminator, or of a buffer. -/
abbrev Bytes := List UInt8

/-- The value a 32-bit `int` keeps of `x`. -/
def int32 (x : Int) : Int := (x + 2 ^ 31) % 2 ^ 32 - 2 ^ 31

theorem int32_range (x : Int) : -2 ^ 31 ≤ int32 x ∧ int32 x < 2 ^ 31 := by
  unfold int32
  omega

theorem int32_eq {x : Int} (low : -2 ^ 31 ≤ x) (high : x < 2 ^ 31) : int32 x = x := by
  unfold int32
  omega

/-- Above its range, and within one turn of it, an `int` goes negative. -/
theorem int32_above {x : Int} (low : 2 ^ 31 ≤ x) (high : x < 2 ^ 32) : int32 x < 0 := by
  unfold int32
  omega

/-- The conversion is the one of the fixed-width types. -/
theorem int32_eq_bmod (x : Int) : int32 x = x.bmod (2 ^ 32) := by
  rw [int32, Int.bmod_def]
  split <;> omega

/-- The string in a buffer, up to its NUL. -/
def cstr (buf : Bytes) : Bytes := buf.takeWhile (· != 0)

theorem cstr_clean {buf : Bytes} (clean : 0 ∉ buf) : cstr buf = buf := by
  unfold cstr
  induction buf with
  | nil => rfl
  | cons c buf ih =>
    obtain ⟨first, clean⟩ := not_or.mp (mt List.mem_cons.mpr clean)
    rw [List.takeWhile_cons_of_pos (by simpa using Ne.symm first), ih clean]

/-- Nothing behind a NUL belongs to the string. -/
theorem cstr_append {s : Bytes} (ends : 0 ∈ s) (t : Bytes) : cstr (s ++ t) = cstr s := by
  induction s with
  | nil => cases ends
  | cons c s ih =>
    by_cases zero : c = 0
    · simp [cstr, zero]
    · have later : 0 ∈ s := (List.mem_cons.mp ends).resolve_left (Ne.symm zero)
      have same : cstr (s ++ t) = cstr s := ih later
      simpa [cstr, zero] using same

/-- `strrchr`: the string from the last `c` on. `none`: it is `NULL`. -/
def strrchr : Bytes → UInt8 → Option Bytes
  | [], _ => none
  | a :: rest, c =>
    match strrchr rest c with
    | some found => some found
    | none => if a = c then some (a :: rest) else none

theorem strrchr_eq_none_iff {s : Bytes} {c : UInt8} : strrchr s c = none ↔ c ∉ s := by
  induction s with
  | nil => simp [strrchr]
  | cons a s ih =>
    rw [strrchr, List.mem_cons, not_or, ← ih]
    cases strrchr s c with
    | some found => simp
    | none => simp [eq_comm]

theorem strrchr_last (front : Bytes) {c : UInt8} {back : Bytes} (last : c ∉ back) :
    strrchr (front ++ c :: back) c = some (c :: back) := by
  induction front with
  | nil => rw [List.nil_append, strrchr, strrchr_eq_none_iff.mpr last, if_pos rfl]
  | cons a front ih => rw [List.cons_append, strrchr, ih]

theorem strrchr_some {s found : Bytes} {c : UInt8} (h : strrchr s c = some found) :
    ∃ front back, s = front ++ c :: back ∧ found = c :: back ∧ c ∉ back := by
  induction s with
  | nil => cases h
  | cons a s ih =>
    rw [strrchr] at h
    cases inside : strrchr s c with
    | some found' =>
      rw [inside] at h
      obtain ⟨front, back, rfl, same, last⟩ := ih (inside.trans h)
      exact ⟨a :: front, back, rfl, same, last⟩
    | none =>
      rw [inside] at h
      by_cases here : a = c
      · subst here
        rw [if_pos rfl, Option.some.injEq] at h
        exact ⟨[], s, rfl, h.symm, strrchr_eq_none_iff.mp inside⟩
      · rw [if_neg here] at h
        cases h

/-- What a failing libc call leaves in `errno`. -/
structure Errno where
  code : Int32
  ne : code ≠ 0
  deriving DecidableEq

def EPERM : Int32 := 1
def ENOENT : Int32 := 2
def ENOMEM : Int32 := 12
def EBUSY : Int32 := 16
def EISDIR : Int32 := 21
def EINVAL : Int32 := 22
def ENAMETOOLONG : Int32 := 36

/-- There is no such file. -/
def noEntry : Errno := ⟨ENOENT, by decide⟩

/-- The size of the path buffers, with their terminator. -/
def PATH_MAX : Nat := 4096

/-- The fields of `struct stat` that the services read. -/
structure Stat where
  st_mode : UInt32
  st_size : Int64
  st_mtime : Int64
  deriving DecidableEq

def S_ISDIR (mode : UInt32) : Bool := mode &&& 0o170000 == 0o040000

/-- `fseek`. A failure sets `errno`, and `ferror` then gives some value: the
stream's error indicator need not be set. -/
inductive Fseek where
  | ok
  | fail (errno : Errno) (ferror : Int32)
  deriving DecidableEq

/-- An error on a stream: the `errno` it set and the non-zero value `ferror`
gives for it. -/
structure StreamError where
  errno : Errno
  ferror : Int32
  ne : ferror ≠ 0
  deriving DecidableEq

/-- What `fread` made of a request for `n` bytes, with `ferror` and `feof`
after it. -/
structure Fread (n : Nat) where
  data : Bytes
  fits : data.length ≤ n
  failed : Option StreamError
  feof : Bool
  deriving DecidableEq

def Fread.ferror {n : Nat} (r : Fread n) : Int32 :=
  match r.failed with
  | none => 0
  | some e => e.ferror

/-- A block from `malloc`. A cell nothing was stored in is `none`; a store
outside the block is undefined behaviour, recorded in `fault`. -/
structure HeapBlock where
  cells : List (Option UInt8)
  fault : Bool
  deriving DecidableEq

def HeapBlock.malloc (size : Int) : HeapBlock := ⟨List.replicate size.toNat none, false⟩

def HeapBlock.store (b : HeapBlock) (offset : Int) (bytes : Bytes) : HeapBlock :=
  if 0 ≤ offset ∧ offset.toNat + bytes.length ≤ b.cells.length then
    { b with
      cells := b.cells.take offset.toNat ++ bytes.map some ++
        b.cells.drop (offset.toNat + bytes.length) }
  else { b with fault := true }

@[simp] theorem HeapBlock.malloc_length (size : Int) :
    (HeapBlock.malloc size).cells.length = size.toNat := by
  simp [malloc]

/-- A store faults if and only if it reaches outside the block. -/
theorem HeapBlock.store_fault (b : HeapBlock) (offset : Int) (bytes : Bytes) :
    (b.store offset bytes).fault = true ↔
      b.fault = true ∨ ¬ (0 ≤ offset ∧ offset.toNat + bytes.length ≤ b.cells.length) := by
  unfold store
  split <;> simp_all

theorem HeapBlock.store_kept {b : HeapBlock} {offset : Nat} {bytes : Bytes}
    (inside : offset + bytes.length ≤ b.cells.length) :
    (b.store offset bytes).fault = b.fault := by
  rw [Bool.eq_iff_iff, store_fault]
  constructor
  · rintro (fault | outside)
    · exact fault
    · exact absurd ⟨by omega, by omega⟩ outside
  · exact .inl

theorem HeapBlock.store_strays {b : HeapBlock} {offset : Nat} {bytes : Bytes}
    (outside : b.cells.length < offset + bytes.length) : (b.store offset bytes).fault = true := by
  rw [store_fault]
  refine .inr fun inside => ?_
  have := inside.2
  omega

@[simp] theorem HeapBlock.store_length (b : HeapBlock) (offset : Int) (bytes : Bytes) :
    (b.store offset bytes).cells.length = b.cells.length := by
  unfold store
  split
  · rename_i inside
    simp only [List.length_append, List.length_take, List.length_map, List.length_drop]
    omega
  · rfl

/-- A store inside the block changes the cells it covers and no others. -/
theorem HeapBlock.store_cell {b : HeapBlock} {offset : Nat} {bytes : Bytes}
    (inside : offset + bytes.length ≤ b.cells.length) (i : Nat) :
    (b.store offset bytes).cells[i]? =
      if offset ≤ i ∧ i < offset + bytes.length then (bytes[i - offset]?).map some
      else b.cells[i]? := by
  have within : (0 : Int) ≤ offset ∧ (offset : Int).toNat + bytes.length ≤ b.cells.length := by
    omega
  have stored : (b.store offset bytes).cells = b.cells.take offset ++
      (bytes.map some ++ b.cells.drop (offset + bytes.length)) := by
    rw [store, if_pos within, Int.toNat_natCast, List.append_assoc]
  have taken : (b.cells.take offset).length = offset := by
    rw [List.length_take]
    omega
  rw [stored]
  by_cases before : i < offset
  · rw [List.getElem?_append_left (by omega), List.getElem?_take_of_lt before]
    simp [Nat.not_le.mpr before]
  · rw [List.getElem?_append_right (by omega), taken]
    by_cases covered : i < offset + bytes.length
    · rw [List.getElem?_append_left (by rw [List.length_map]; omega), List.getElem?_map]
      simp [covered, Nat.not_lt.mp before]
    · rw [List.getElem?_append_right (by rw [List.length_map]; omega), List.getElem?_drop,
        List.length_map]
      simp only [covered, and_false, if_false]
      congr 1
      omega

end Xposed
