import Xposed.Binder.Service

/-!
# The range check of `readFile`

The range a caller asks for in exact numbers, against the 32-bit sums and the
narrowed count that the Binder service computes with.
-/

namespace Xposed.Binder

open XposedService (Metadata failed readContent readRange)

def start (offset : Int32) : Int := max offset.toInt 0

/-- How many bytes are meant: `length`, or all from the start on. -/
def count (size : Int) (offset length : Int32) : Int :=
  if 0 < length.toInt then length.toInt else size - start offset

/-- The range meant does not lie in a file of `size` bytes. -/
def Outside (size : Int) (offset length : Int32) : Prop :=
  (0 < offset.toInt ∧ size ≤ offset.toInt) ∨
    (0 < length.toInt ∧ size < start offset + length.toInt)

/-- What the code tests, with its 32-bit sum. -/
def Refused (size : Int) (offset length : Int32) : Prop :=
  (0 < offset.toInt ∧ size ≤ offset.toInt) ∨
    (0 < length.toInt ∧ size < int32 (start offset + length.toInt))

theorem start_range (offset : Int32) : 0 ≤ start offset ∧ start offset < 2 ^ 31 := by
  have := offset.toInt_lt
  unfold start
  omega

theorem refused_iff {size : Int} (positive : 0 ≤ size) (offset length : Int32) :
    Refused size offset length ↔ Outside size offset length ∧
      ((0 < offset.toInt ∧ size ≤ offset.toInt) ∨ start offset + length.toInt < 2 ^ 31) := by
  have from_ := start_range offset
  have short := length.toInt_lt
  unfold Refused Outside
  by_cases asked : 0 < length.toInt
  · by_cases small : start offset + length.toInt < 2 ^ 31
    · rw [int32_eq (by omega) small]
      omega
    · have negative := int32_above (x := start offset + length.toInt) (by omega) (by omega)
      omega
  · omega

/-- A call that passes the test is not to be refused, unless the sum wraps. -/
theorem refused_exact {size : Int} (positive : 0 ≤ size) {offset length : Int32}
    (within : ¬ Refused size offset length) {P : Prop} (passes : ¬ P) :
    (P ↔ Outside size offset length) ↔ (Outside size offset length →
      (0 < offset.toInt ∧ size ≤ offset.toInt) ∨ start offset + length.toInt < 2 ^ 31) := by
  constructor
  · intro exact_ outside
    exact absurd (exact_.mpr outside) passes
  · intro sum
    refine ⟨fun p => absurd p passes, fun outside => ?_⟩
    apply absurd _ within
    apply (refused_iff positive offset length).mpr
    exact ⟨outside, sum outside⟩

/-- Inside the file the count is positive and ends at or before its end. -/
theorem count_inside {size : Int} {offset length : Int32} (inside : ¬ Outside size offset length)
    (content : 0 < size) :
    0 < count size offset length ∧ start offset + count size offset length ≤ size := by
  have from_ := start_range offset
  unfold Outside at inside
  unfold count
  by_cases asked : 0 < length.toInt
  · rw [if_pos asked]
    omega
  · rw [if_neg asked]
    unfold start at *
    omega

theorem toInt_ofInt (x : Int) : (Int32.ofInt x).toInt = int32 x := by
  rw [Int32.toInt_ofInt, int32_eq_bmod]
  rfl

theorem toInt_add (a b : Int32) : (a + b).toInt = int32 (a.toInt + b.toInt) := by
  rw [Int32.toInt_add, int32_eq_bmod]

/-- How `readFile` goes on behind the check for an unchanged file. -/
inductive Ranged (lib : Platform) (files : Files) (filename : Bytes) (at_ : Metadata)
    (offset length : Int32) : Effect ReadResult → Prop where
  | refused (outside : Refused at_.size.toInt offset length) (errormsg : String16) :
      Ranged lib files filename at_ offset length ⟨failed at_ EINVAL errormsg, []⟩
  | empty (inside : ¬ Refused at_.size.toInt offset length) (size : at_.size.toInt = 0) :
      Ranged lib files filename at_ offset length ⟨⟨0, at_.size, at_.mtime, none, 0, []⟩, []⟩
  | noMemory (inside : ¬ Refused at_.size.toInt offset length) (size : at_.size.toInt ≠ 0)
      (malloc : files.malloc = false) (errormsg : String16) :
      Ranged lib files filename at_ offset length ⟨failed at_ ENOMEM errormsg, []⟩
  | content (inside : ¬ Refused at_.size.toInt offset length) (size : at_.size.toInt ≠ 0)
      (malloc : files.malloc = true) (from_ narrowed : Int32) (begins : from_.toInt = start offset)
      (narrows : narrowed = Int32.ofInt (count at_.size.toInt offset length)) :
      Ranged lib files filename at_ offset length
        ⟨readContent lib files filename at_ from_ narrowed
          ((HeapBlock.malloc (narrowed + 1).toInt).store narrowed.toInt [0]), [.fopen filename]⟩

theorem from_toInt (offset : Int32) : (if offset < 0 then 0 else offset).toInt = start offset := by
  unfold start
  by_cases negative : offset < 0
  · rw [if_pos negative]
    have := Int32.lt_iff_toInt_lt.mp negative
    rw [Int32.toInt_zero] at this ⊢
    omega
  · rw [if_neg negative]
    have := mt Int32.lt_iff_toInt_lt.mpr negative
    rw [Int32.toInt_zero] at this
    omega

theorem narrowed_eq {size : Int64} (positive : 0 ≤ size.toInt) (offset length : Int32) :
    (if length ≤ 0 then (size - (if offset < 0 then 0 else offset).toInt64).toInt32 else length) =
      Int32.ofInt (count size.toInt offset length) := by
  by_cases rest : length ≤ 0
  · have asked : ¬ 0 < length.toInt := by
      have := Int32.le_iff_toInt_le.mp rest
      rw [Int32.toInt_zero] at this
      omega
    have high := size.toInt_lt
    have from_ := start_range offset
    rw [if_pos rest, ← Int32.toInt_inj, Int64.toInt_toInt32, Int64.toInt_sub,
      Int32.toInt_toInt64, from_toInt, toInt_ofInt, int32_eq_bmod, count, if_neg asked,
      Int.bmod_eq_of_le (m := 2 ^ 64) (by omega) (by omega)]
  · have asked : 0 < length.toInt := by
      have := mt Int32.le_iff_toInt_le.mpr rest
      rw [Int32.toInt_zero] at this
      omega
    rw [if_neg rest, count, if_pos asked, Int32.ofInt_toInt]

theorem readRange_ranged (lib : Platform) (files : Files) (filename : Bytes) {at_ : Metadata}
    (positive : 0 ≤ at_.size.toInt) (offset length : Int32) :
    Ranged lib files filename at_ offset length
      (readRange lib files filename at_ offset length) := by
  have first : (0 < offset ∧ at_.size ≤ offset.toInt64) ↔
      0 < offset.toInt ∧ at_.size.toInt ≤ offset.toInt := by
    rw [Int32.lt_iff_toInt_lt, Int64.le_iff_toInt_le, Int32.toInt_toInt64, Int32.toInt_zero]
  have second : (0 < length ∧
      at_.size < ((if offset < 0 then 0 else offset) + length).toInt64) ↔
      0 < length.toInt ∧ at_.size.toInt < int32 (start offset + length.toInt) := by
    rw [Int32.lt_iff_toInt_lt, Int64.lt_iff_toInt_lt, Int32.toInt_toInt64, Int32.toInt_zero,
      toInt_add, from_toInt]
  have empty : at_.size = 0 ↔ at_.size.toInt = 0 := by
    rw [← Int64.toInt_inj, Int64.toInt_zero]
  unfold readRange
  dsimp only
  by_cases beyond : 0 < offset ∧ at_.size ≤ offset.toInt64
  · rw [if_pos beyond]
    exact .refused (.inl (first.mp beyond)) _
  · rw [if_neg beyond]
    by_cases long : 0 < length ∧
        at_.size < ((if offset < 0 then 0 else offset) + length).toInt64
    · rw [if_pos long]
      exact .refused (.inr (second.mp long)) _
    · have inside : ¬ Refused at_.size.toInt offset length := by
        rintro (outside | outside)
        · exact beyond (first.mpr outside)
        · exact long (second.mpr outside)
      rw [if_neg long]
      by_cases none : at_.size = 0
      · rw [if_pos none]
        exact .empty inside (empty.mp none)
      · have size : at_.size.toInt ≠ 0 := mt empty.mpr none
        rw [if_neg none]
        cases malloc : files.malloc with
        | false => exact .noMemory inside size malloc _
        | true =>
          exact .content inside size malloc _ _ (from_toInt offset)
            (narrowed_eq positive offset length)

/-- The libc calls behind the buffer's allocation, of which one fails and leaves
a status that is not 0. -/
def contentFails (lib : Platform) (files : Files) (offset narrowed : Int32) : Bool :=
  match files.fopen with
  | .error _ => true
  | .ok _ =>
    match if 0 < offset then files.fseek else .ok with
    | .fail _ ferror => ferror != 0
    | .ok => (files.fread (lib.size_t narrowed)).failed.isSome

theorem readContent_status (lib : Platform) (files : Files) (filename : Bytes) (at_ : Metadata)
    (offset narrowed : Int32) (buffer : HeapBlock) :
    (readContent lib files filename at_ offset narrowed buffer).status ≠ 0 ↔
      contentFails lib files offset narrowed = true := by
  cases opened : files.fopen with
  | error e => simp [readContent, contentFails, opened, failed, e.ne]
  | ok _ =>
    cases sought : if 0 < offset then files.fseek else .ok with
    | fail e ferror => simp [readContent, contentFails, opened, sought, failed]
    | ok =>
      cases read : (files.fread (lib.size_t narrowed)).failed with
      | none => simp [readContent, contentFails, opened, sought, Fread.ferror, read]
      | some e => simp [readContent, contentFails, opened, sought, Fread.ferror, read, e.ne, failed]

/-- The two offsets ask for the same `fseek`. -/
theorem contentFails_start {offset from_ : Int32} (begins : from_.toInt = start offset)
    (lib : Platform) (files : Files) (narrowed : Int32) :
    contentFails lib files from_ narrowed = contentFails lib files offset narrowed := by
  have same : 0 < from_ ↔ 0 < offset := by
    rw [Int32.lt_iff_toInt_lt, Int32.lt_iff_toInt_lt, begins, Int32.toInt_zero]
    unfold start
    omega
  simp only [contentFails, same]

/-- What the caller asks for is what `fread` is asked for, with a buffer of one
byte more that ends with the terminator. -/
def Requests (lib : Platform) (files : Files) (filename : Bytes) (at_ : Metadata)
    (start count : Int) (r : Effect ReadResult) : Prop :=
  ∃ offset length buffer,
    r = ⟨readContent lib files filename at_ offset length buffer,
      [.stat filename, .fopen filename]⟩ ∧
    offset.toInt = start ∧ (lib.size_t length : Int) = count ∧
    (buffer.cells.length : Int) = count + 1 ∧ buffer.cells[count.toNat]? = some (some 0) ∧
    buffer.fault = false

/-- The range check as it is meant, for a file that has changed. An `EINVAL`
from `fopen` or what follows it is not the check's. -/
structure RangeChecked (lib : Platform) (files : Files) (filename : Bytes) (st : Stat)
    (offset length : Int32) (r : Effect ReadResult) : Prop where
  refused : r.value.status = EINVAL ∧ r.performed = [.stat filename] ↔
    Outside st.st_size.toInt offset length
  inside : ¬ Outside st.st_size.toInt offset length → 0 < st.st_size.toInt →
    start offset + count st.st_size.toInt offset length ≤ st.st_size.toInt
  fits : ¬ Outside st.st_size.toInt offset length → 0 < st.st_size.toInt →
    count st.st_size.toInt offset length + 1 < 2 ^ 31 → files.malloc = true →
    Requests lib files filename ⟨st.st_size, st.st_mtime⟩ (start offset)
      (count st.st_size.toInt offset length) r
  large : ¬ Outside st.st_size.toInt offset length → 0 < st.st_size.toInt →
    2 ^ 31 ≤ count st.st_size.toInt offset length + 1 → r.value.status ≠ 0

/-- A range outside the file starts outside of it, or its 32-bit sum does not
wrap; and a count without room for the terminator comes with a failure of
`malloc` or of a later libc call. -/
structure Representable (lib : Platform) (files : Files) (size : Int) (offset length : Int32) :
    Prop where
  sum : Outside size offset length →
    (0 < offset.toInt ∧ size ≤ offset.toInt) ∨ start offset + length.toInt < 2 ^ 31
  count : ¬ Outside size offset length → 0 < size → 2 ^ 31 ≤ count size offset length + 1 →
    files.malloc = false ∨
      contentFails lib files offset (Int32.ofInt (count size offset length)) = true

/-- Where an `int` holds the count and one more, `fread` gets what was meant. -/
theorem content_requests {lib : Platform} (wide : 32 ≤ lib.sizeBits) (files : Files)
    (filename : Bytes) (at_ : Metadata) {offset narrowed : Int32} {n : Int} (low : 0 ≤ n)
    (fits : n + 1 < 2 ^ 31) (narrows : narrowed = Int32.ofInt n) :
    Requests lib files filename at_ offset.toInt n
      ⟨readContent lib files filename at_ offset narrowed
        ((HeapBlock.malloc (narrowed + 1).toInt).store narrowed.toInt [0]),
        [.stat filename, .fopen filename]⟩ := by
  obtain ⟨m, rfl⟩ := Int.eq_ofNat_of_zero_le low
  have value : narrowed.toInt = m := by
    rw [narrows, toInt_ofInt]
    apply int32_eq <;> omega
  have more : (narrowed + 1).toInt = m + 1 := by
    rw [toInt_add, value, Int32.toInt_one]
    apply int32_eq <;> omega
  have size : lib.size_t narrowed = m := by
    have power : (2 ^ 32 : Nat) ≤ 2 ^ lib.sizeBits := Nat.pow_le_pow_right (by decide) wide
    have room : (m : Int) < 2 ^ lib.sizeBits := by
      have : ((2 ^ lib.sizeBits : Nat) : Int) = 2 ^ lib.sizeBits := by simp
      omega
    rw [Platform.size_t, value, Int.emod_eq_of_lt low room, Int.toNat_natCast]
  have length : (HeapBlock.malloc (m + 1 : Int)).cells.length = m + 1 := by
    rw [HeapBlock.malloc_length]
    omega
  have inside : m + [(0 : UInt8)].length ≤ (HeapBlock.malloc (m + 1 : Int)).cells.length := by
    simp [length]
  refine ⟨_, _, _, rfl, rfl, by rw [size], ?_, ?_, ?_⟩
  · rw [more, HeapBlock.store_length, length, Int.natCast_add, Int.natCast_one]
  · rw [more, value, Int.toNat_natCast, HeapBlock.store_cell inside]
    simp
  · rw [more, value, HeapBlock.store_kept inside]
    rfl

/-- The call, once its range is checked. -/
def checked (filename : Bytes) (r : Effect ReadResult) : Effect ReadResult :=
  ⟨r.value, .stat filename :: r.performed⟩

/-- What is left to show of a call that passes the test. -/
theorem passed_iff {lib : Platform} {files : Files} {filename : Bytes} {st : Stat}
    (positive : 0 ≤ st.st_size.toInt) {offset length : Int32} {r : Effect ReadResult}
    (within : ¬ Refused st.st_size.toInt offset length)
    (passes : ¬ (r.value.status = EINVAL ∧ r.performed = [.stat filename]))
    (fits : ¬ Outside st.st_size.toInt offset length → 0 < st.st_size.toInt →
      count st.st_size.toInt offset length + 1 < 2 ^ 31 → files.malloc = true →
      Requests lib files filename ⟨st.st_size, st.st_mtime⟩ (start offset)
        (count st.st_size.toInt offset length) r)
    (fails : 0 < st.st_size.toInt → (r.value.status ≠ 0 ↔ files.malloc = false ∨
      contentFails lib files offset (Int32.ofInt (count st.st_size.toInt offset length)) = true)) :
    RangeChecked lib files filename st offset length r ↔
      Representable lib files st.st_size.toInt offset length := by
  have refused := refused_exact positive within passes
  constructor
  · intro checked
    refine ⟨refused.mp checked.refused, fun inside content large => ?_⟩
    apply (fails content).mp
    exact checked.large inside content large
  · intro representable
    refine ⟨refused.mpr representable.sum, fun inside content => (count_inside inside content).2,
      fits, fun inside content large => ?_⟩
    apply (fails content).mpr
    exact representable.count inside content large

theorem ranged_iff {lib : Platform} (wide : 32 ≤ lib.sizeBits) {files : Files} {filename : Bytes}
    {st : Stat} (positive : 0 ≤ st.st_size.toInt) {offset length : Int32} {r : Effect ReadResult}
    (h : Ranged lib files filename ⟨st.st_size, st.st_mtime⟩ offset length r) :
    RangeChecked lib files filename st offset length (checked filename r) ↔
      Representable lib files st.st_size.toInt offset length := by
  cases h with
  | refused outside errormsg =>
    obtain ⟨outside, sum⟩ := (refused_iff positive offset length).mp outside
    constructor
    · intro _
      exact ⟨fun _ => sum, fun inside => absurd outside inside⟩
    · intro _
      exact ⟨⟨fun _ => outside, fun _ => ⟨rfl, rfl⟩⟩, fun inside => absurd outside inside,
        fun inside => absurd outside inside, fun inside => absurd outside inside⟩
  | empty within size =>
    have none : ¬ 0 < st.st_size.toInt := by
      dsimp only at size
      omega
    apply passed_iff positive within
    · rintro ⟨status, _⟩
      have other : (0 : Int32) ≠ EINVAL := by decide
      exact absurd status other
    · intro _ content
      exact absurd content none
    · intro content
      exact absurd content none
  | noMemory within size malloc errormsg =>
    apply passed_iff positive within
    · rintro ⟨status, _⟩
      have other : ENOMEM ≠ EINVAL := by decide
      exact absurd status other
    · intro _ _ _ allocated
      simp [malloc] at allocated
    · intro _
      have fails : ENOMEM ≠ 0 := by decide
      exact ⟨fun _ => .inl malloc, fun _ => fails⟩
  | content within size malloc from_ narrowed begins narrows =>
    subst narrows
    apply passed_iff positive within
    · rintro ⟨_, performed⟩
      simp [checked] at performed
    · intro inside content fits _
      rw [← begins]
      apply content_requests wide files filename _ _ fits rfl
      exact Int.le_of_lt (count_inside inside content).1
    · intro _
      rw [malloc, ← contentFails_start begins, or_iff_right (by decide)]
      apply readContent_status

/-- **The range check of `readFile` is exact** for a file that has changed if
and only if the sum it computes does not wrap for a range that starts in the
file and ends outside of it, and a count for which an `int` has no room with the
terminator meets a libc call that fails. -/
theorem range_check_iff {lib : Platform} (wide : 32 ≤ lib.sizeBits) {ctx : Context} {files : Files}
    {st : Stat} {size mtime : Int64} (system : ctx.callingUid = UID_SYSTEM)
    (stat : files.stat = .ok st) (regular : S_ISDIR st.st_mode = false)
    (changed : XposedService.isUnchanged st size mtime = false) (positive : 0 ≤ st.st_size.toInt)
    (filename16 : String16) (offset length : Int32) :
    RangeChecked lib files (lib.string8 filename16) st offset length
      (XposedService.readFile lib ctx files filename16 offset length size mtime) ↔
      Representable lib files st.st_size.toInt offset length := by
  have ranged := @readRange_ranged lib files (lib.string8 filename16) ⟨st.st_size, st.st_mtime⟩
    positive offset length
  have same : XposedService.readFile lib ctx files filename16 offset length size mtime =
      checked (lib.string8 filename16) (readRange lib files (lib.string8 filename16)
        ⟨st.st_size, st.st_mtime⟩ offset length) := by
    simp [XposedService.readFile, system, stat, regular, changed, checked]
  rw [same]
  exact ranged_iff wide positive ranged

/-- A file of 2³² + 5 bytes, of which `fread` gives five where it is asked for them. -/
def hugeFile : Files where
  access := .ok ()
  stat := .ok ⟨0o100644, 4294967301, 0⟩
  malloc := true
  fopen := .ok ()
  fseek := .ok
  fread n := ⟨[1, 2, 3, 4, 5].take n, List.length_take_le _ _, none, false⟩
  addService := 0

/-- Twenty bytes of a file of a hundred. -/
theorem middle_checked : RangeChecked plainPlatform
    { hugeFile with stat := .ok ⟨0o100644, 100, 0⟩ } [] ⟨0o100644, 100, 0⟩ 10 20
    (XposedService.readFile plainPlatform ⟨1, UID_SYSTEM, 0, 0⟩
      { hugeFile with stat := .ok ⟨0o100644, 100, 0⟩ } [] 10 20 0 0) := by
  apply (range_check_iff (by decide) rfl rfl (by decide) (by decide) (by decide) [] 10 20).mpr
  constructor
  · intro _
    exact .inr (by decide)
  · intro _ _ large
    exact absurd large (by decide)

/-- A whole file of more than 4 GiB is asked for, and five bytes come back. -/
theorem hugeFile_narrowed : ¬ ∀ (lib : Platform) (ctx : Context) (files : Files) (st : Stat)
    (size mtime : Int64) (filename16 : String16) (offset length : Int32), 32 ≤ lib.sizeBits →
    ctx.callingUid = UID_SYSTEM → files.stat = .ok st → S_ISDIR st.st_mode = false →
    XposedService.isUnchanged st size mtime = false → 0 ≤ st.st_size.toInt →
    RangeChecked lib files (lib.string8 filename16) st offset length
      (XposedService.readFile lib ctx files filename16 offset length size mtime) := by
  intro checked
  have range := checked plainPlatform ⟨1, UID_SYSTEM, 0, 0⟩ hugeFile ⟨0o100644, 4294967301, 0⟩ 0 0
    [] 0 0 (by decide) rfl rfl (by decide) (by decide) (by decide)
  have inside : ¬ Outside 4294967301 0 0 := by
    unfold Outside
    decide
  exact range.large inside (by decide) (by decide) (by decide)

end Xposed.Binder
