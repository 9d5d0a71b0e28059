import Xposed.Binder.Range

/-!
# The test for an unchanged file

`readFile` hands out the whole `st_mtime`, and compares what it gets back with
the `int` that `st_mtime` becomes.
-/

namespace Xposed.Binder

open XposedService (Metadata failed isUnchanged readRange)

/-- The caller is told to keep what it has, and the file is not opened. -/
structure AnswersUnchanged (r : Effect ReadResult) : Prop where
  status : r.value.status = 0
  bytesRead : r.value.bytesRead = -1
  unopened : ∀ path, .fopen path ∉ r.performed

theorem isUnchanged_iff (st : Stat) (size mtime : Int64) :
    isUnchanged st size mtime = true ↔
      size = st.st_size ∧ mtime.toInt = int32 st.st_mtime.toInt := by
  have narrowed : mtime = st.st_mtime.toInt32.toInt64 ↔ mtime.toInt = int32 st.st_mtime.toInt := by
    rw [← Int64.toInt_inj, Int32.toInt_toInt64, Int64.toInt_toInt32, int32_eq_bmod]
  simp [isUnchanged, narrowed]

/-- The offset and the count for which `readFile` asks for a buffer. -/
def allocation (size : Int64) (offset length : Int32) : Option (Int32 × Int32) :=
  if 0 < offset ∧ size ≤ offset.toInt64 then none
  else
    let offset := if offset < 0 then 0 else offset
    if 0 < length ∧ size < (offset + length).toInt64 then none
    else if size = 0 then none
    else some (offset, if length ≤ 0 then (size - offset.toInt64).toInt32 else length)

/-- How `readFile` goes on with a file that has changed. -/
inductive Tried (lib : Platform) (files : Files) (filename : Bytes) (at_ : Metadata)
    (offset length : Int32) : Effect ReadResult → Prop where
  | refused (none : allocation at_.size offset length = none) (errormsg : String16) :
      Tried lib files filename at_ offset length ⟨failed at_ EINVAL errormsg, []⟩
  | empty (none : allocation at_.size offset length = none) :
      Tried lib files filename at_ offset length
        ⟨⟨0, at_.size, at_.mtime, .none, 0, []⟩, []⟩
  | noMemory (from_ count : Int32) (allocates : allocation at_.size offset length = some (from_, count))
      (malloc : files.malloc = false) (errormsg : String16) :
      Tried lib files filename at_ offset length ⟨failed at_ ENOMEM errormsg, []⟩
  | content (from_ count : Int32) (allocates : allocation at_.size offset length = some (from_, count))
      (malloc : files.malloc = true) (buffer : HeapBlock) :
      Tried lib files filename at_ offset length
        ⟨XposedService.readContent lib files filename at_ from_ count buffer, [.fopen filename]⟩

theorem readRange_tried (lib : Platform) (files : Files) (filename : Bytes) (at_ : Metadata)
    (offset length : Int32) :
    Tried lib files filename at_ offset length
      (readRange lib files filename at_ offset length) := by
  unfold readRange
  dsimp only
  by_cases beyond : 0 < offset ∧ at_.size ≤ offset.toInt64
  · rw [if_pos beyond]
    exact .refused (by rw [allocation, if_pos beyond]) _
  · rw [if_neg beyond]
    by_cases long : 0 < length ∧ at_.size < ((if offset < 0 then 0 else offset) + length).toInt64
    · rw [if_pos long]
      exact .refused (by simp only [allocation, if_neg beyond, if_pos long]) _
    · rw [if_neg long]
      by_cases none : at_.size = 0
      · rw [if_pos none]
        exact .empty (by simp only [allocation, if_neg beyond, if_neg long, if_pos none])
      · rw [if_neg none]
        have allocates : allocation at_.size offset length =
            some (if offset < 0 then 0 else offset, if length ≤ 0 then
              (at_.size - (if offset < 0 then 0 else offset).toInt64).toInt32 else length) := by
          simp only [allocation, if_neg beyond, if_neg long, if_neg none]
        cases malloc : files.malloc with
        | false => exact .noMemory _ _ allocates malloc _
        | true => exact .content _ _ allocates malloc _

/-- A file that is read, or refused, is not answered to be unchanged. -/
theorem Tried.answers {lib : Platform} {files : Files} {filename : Bytes} {at_ : Metadata}
    {offset length : Int32} {r : Effect ReadResult}
    (tried : Tried lib files filename at_ offset length r) : ¬ AnswersUnchanged r := by
  rintro ⟨status, bytesRead, unopened⟩
  cases tried with
  | refused =>
    have fails : EINVAL ≠ 0 := by decide
    exact fails status
  | empty =>
    have read : (0 : Int32) ≠ -1 := by decide
    exact read bytesRead
  | noMemory =>
    have fails : ENOMEM ≠ 0 := by decide
    exact fails status
  | content => exact unopened filename List.mem_cons_self

section
variable {lib : Platform} {ctx : Context} {files : Files} {st : Stat}

theorem readFile_answers (system : ctx.callingUid = UID_SYSTEM) (stat : files.stat = .ok st)
    (regular : S_ISDIR st.st_mode = false) (filename16 : String16) (offset length : Int32)
    (size mtime : Int64) :
    AnswersUnchanged (XposedService.readFile lib ctx files filename16 offset length size mtime) ↔
      size = st.st_size ∧ mtime.toInt = int32 st.st_mtime.toInt := by
  rw [← isUnchanged_iff]
  cases unchanged : isUnchanged st size mtime with
  | true =>
    simp only [iff_true]
    refine ⟨?_, ?_, ?_⟩
    all_goals simp [XposedService.readFile, system, stat, regular, unchanged]
  | false =>
    have same : XposedService.readFile lib ctx files filename16 offset length size mtime =
        checked (lib.string8 filename16) (readRange lib files (lib.string8 filename16)
          ⟨st.st_size, st.st_mtime⟩ offset length) := by
      simp [XposedService.readFile, system, stat, regular, unchanged, checked]
    rw [same]
    refine iff_of_false ?_ Bool.false_ne_true
    rintro ⟨status, bytesRead, unopened⟩
    apply (readRange_tried lib files (lib.string8 filename16) ⟨st.st_size, st.st_mtime⟩ offset
      length).answers
    refine ⟨status, bytesRead, fun path opened => ?_⟩
    exact unopened path (List.mem_cons_of_mem _ opened)

/-- **The test for an unchanged file is exact** if and only if the size differs,
or the file's time fits into an `int`, or the time to compare with is neither
the file's time nor what its low 32 bits are as an `int`. -/
theorem unchanged_exact_iff (system : ctx.callingUid = UID_SYSTEM) (stat : files.stat = .ok st)
    (regular : S_ISDIR st.st_mode = false) (filename16 : String16) (offset length : Int32)
    (size mtime : Int64) :
    (AnswersUnchanged (XposedService.readFile lib ctx files filename16 offset length size mtime) ↔
      size = st.st_size ∧ mtime = st.st_mtime) ↔
    size ≠ st.st_size ∨ (-2 ^ 31 ≤ st.st_mtime.toInt ∧ st.st_mtime.toInt < 2 ^ 31) ∨
      (mtime ≠ st.st_mtime ∧ mtime.toInt ≠ int32 st.st_mtime.toInt) := by
  have time : mtime = st.st_mtime ↔ mtime.toInt = st.st_mtime.toInt := Int64.toInt_inj.symm
  have fits : -2 ^ 31 ≤ st.st_mtime.toInt ∧ st.st_mtime.toInt < 2 ^ 31 ↔
      int32 st.st_mtime.toInt = st.st_mtime.toInt := by
    have range := int32_range st.st_mtime.toInt
    constructor
    · rintro ⟨low, high⟩
      exact int32_eq low high
    · omega
  rw [readFile_answers system stat regular, fits]
  simp only [ne_eq, time]
  by_cases same : size = st.st_size
  · simp only [same, true_and, not_true, false_or]
    omega
  · simp [same]

end

/-- A file of five bytes that was modified at the time `t`. -/
def modifiedAt (t : Int64) : Files := { hugeFile with stat := .ok ⟨0o100644, 5, t⟩ }

theorem untouched_unchanged : AnswersUnchanged (XposedService.readFile plainPlatform
    ⟨1, UID_SYSTEM, 0, 0⟩ (modifiedAt 1500000000) [] 0 0 5 1500000000) := by
  have exact_ := @unchanged_exact_iff plainPlatform ⟨1, UID_SYSTEM, 0, 0⟩ (modifiedAt 1500000000)
    ⟨0o100644, 5, 1500000000⟩ rfl rfl (by decide) [] 0 0 5 1500000000
  exact (exact_.mpr (.inr (.inl (by decide)))).mpr ⟨rfl, rfl⟩

/-- A file of 2038 is read again although nobody touches it. -/
theorem late_reread : ¬ ∀ (lib : Platform) (ctx : Context) (files later : Files) (st : Stat)
    (filename16 : String16) (offset length offset' length' : Int32) (size mtime : Int64),
    ctx.callingUid = UID_SYSTEM → later.stat = .ok st → S_ISDIR st.st_mode = false →
    let first := (XposedService.readFile lib ctx files filename16 offset length size mtime).value
    first.status = 0 →
    (AnswersUnchanged (XposedService.readFile lib ctx later filename16 offset' length' first.size
      first.mtime) ↔ first.size = st.st_size ∧ first.mtime = st.st_mtime) := by
  intro exact_
  have again := exact_ plainPlatform ⟨1, UID_SYSTEM, 0, 0⟩ (modifiedAt 2147483648)
    (modifiedAt 2147483648) ⟨0o100644, 5, 2147483648⟩ [] 0 0 0 0 0 0 rfl rfl (by decide) (by decide)
  have answer := again.mpr ⟨by decide, by decide⟩
  rw [readFile_answers rfl rfl (by decide)] at answer
  exact absurd answer.2 (by decide)

end Xposed.Binder
