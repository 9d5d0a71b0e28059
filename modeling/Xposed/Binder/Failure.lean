import Xposed.Binder.Unchanged

/-!
# Failures of `readFile`

Which libc call of a `readFile` fails, with the `errno` it leaves, against the
status that is taken from `errno` at some exits and from `ferror` at others.
-/

namespace Xposed.Binder

open XposedService (Metadata failed isUnchanged)

/-- The `errno` of the call that fails from `fopen` on. -/
def contentFailure (lib : Platform) (files : Files) (from_ count : Int32) : Option Int32 :=
  match files.fopen with
  | .error e => some e.code
  | .ok _ =>
    match if 0 < from_ then files.fseek else .ok with
    | .fail e _ => some e.code
    | .ok => (files.fread (lib.size_t count)).failed.map fun e => e.errno.code

def rangeFailure (lib : Platform) (files : Files) (size : Int64) (offset length : Int32) :
    Option Int32 :=
  match allocation size offset length with
  | none => none
  | some (from_, count) =>
    if !files.malloc then some ENOMEM else contentFailure lib files from_ count

/-- The `errno` of the libc call that fails in a `readFile`. -/
def failure (lib : Platform) (files : Files) (offset length : Int32) (size mtime : Int64) :
    Option Int32 :=
  match files.stat with
  | .error e => some e.code
  | .ok st =>
    if S_ISDIR st.st_mode || isUnchanged st size mtime then none
    else rangeFailure lib files st.st_size offset length

/-- The file has the size and the time that were passed in. -/
def Kept (files : Files) (size mtime : Int64) : Prop :=
  ∃ st, files.stat = .ok st ∧ size = st.st_size ∧ mtime = st.st_mtime

/-- A failing call is reported with its `errno`, and success without content
only for a file that is `kept`. -/
structure Reported (failure : Option Int32) (kept : Prop) (r : ReadResult) : Prop where
  failing : ∀ errno, failure = some errno →
    r.status ≠ 0 ∧ r.status = errno ∧ r.buffer = none ∧ r.bytesRead = -1
  unchanged : r.status = 0 → r.bytesRead = -1 → kept

/-- What `ferror` gives for a failing `fseek` or `fread` is its `errno`, and the
number of bytes read becomes -1 as an `int` only if the file is `kept`. -/
def ContentTold (lib : Platform) (files : Files) (from_ count : Int32) (kept : Prop) : Prop :=
  match if 0 < from_ then files.fseek else .ok with
  | .fail e ferror => ferror = e.code
  | .ok =>
    match (files.fread (lib.size_t count)).failed with
    | some e => e.ferror = e.errno.code
    | none => Int32.ofNat (files.fread (lib.size_t count)).data.length = -1 → kept

/-- Where the file is taken for unchanged it is, and where it is opened its
errors are told. -/
structure Told (lib : Platform) (files : Files) (st : Stat) (offset length : Int32)
    (size mtime : Int64) : Prop where
  stamp : isUnchanged st size mtime = true → mtime = st.st_mtime
  content : isUnchanged st size mtime = false → ∀ from_ count,
    allocation st.st_size offset length = some (from_, count) → files.malloc = true →
    files.fopen = .ok () → ContentTold lib files from_ count (Kept files size mtime)

/-- An exit behind a failing call reports it if and only if its status is the `errno`. -/
theorem failed_reported (at_ : Metadata) (status : Int32) (errormsg : String16) (e : Errno)
    (kept : Prop) : Reported (some e.code) kept (failed at_ status errormsg) ↔ status = e.code := by
  constructor
  · intro reported
    exact (reported.failing _ rfl).2.1
  · rintro rfl
    refine ⟨?_, fun zero => absurd zero e.ne⟩
    rintro _ ⟨⟩
    exact ⟨e.ne, rfl, rfl, rfl⟩

theorem reported_none (kept : Prop) (r : ReadResult) :
    Reported none kept r ↔ (r.status = 0 → r.bytesRead = -1 → kept) := by
  refine ⟨Reported.unchanged, fun unchanged => ⟨?_, unchanged⟩⟩
  rintro _ ⟨⟩

theorem readContent_reported (lib : Platform) (files : Files) (filename : Bytes) (at_ : Metadata)
    (from_ count : Int32) (buffer : HeapBlock) (kept : Prop) :
    Reported (contentFailure lib files from_ count) kept
        (XposedService.readContent lib files filename at_ from_ count buffer) ↔
      (files.fopen = .ok () → ContentTold lib files from_ count kept) := by
  cases opened : files.fopen with
  | error e => simp [XposedService.readContent, contentFailure, opened, failed_reported]
  | ok _ =>
    cases sought : if 0 < from_ then files.fseek else .ok with
    | fail e ferror =>
      simp [XposedService.readContent, contentFailure, ContentTold, opened, sought, failed_reported]
    | ok =>
      cases read : (files.fread (lib.size_t count)).failed with
      | some e =>
        have fails : (files.fread (lib.size_t count)).ferror = e.ferror := by
          simp [Fread.ferror, read]
        simp only [XposedService.readContent, contentFailure, ContentTold, opened, sought, read,
          fails, e.ne, ne_eq, not_false_eq_true, if_true, Option.map_some, failed_reported]
        simp
      | none =>
        have fine : (files.fread (lib.size_t count)).ferror = 0 := by
          simp [Fread.ferror, read]
        simp only [XposedService.readContent, contentFailure, ContentTold, opened, sought, read,
          fine, ne_eq, not_true, if_false, Option.map_none, reported_none, true_implies]

section
variable {lib : Platform} {files : Files} {offset length : Int32} {size mtime : Int64}

theorem readRange_reported {at_ : Metadata} {kept : Prop} {filename : Bytes} {r : Effect ReadResult}
    (tried : Tried lib files filename at_ offset length r) :
    Reported (rangeFailure lib files at_.size offset length) kept r.value ↔
      ∀ from_ count, allocation at_.size offset length = some (from_, count) →
        files.malloc = true → files.fopen = .ok () → ContentTold lib files from_ count kept := by
  unfold rangeFailure
  cases tried with
  | refused none errormsg =>
    have fails : EINVAL ≠ 0 := by decide
    rw [none, reported_none]
    refine iff_of_true (fun status => absurd status fails) ?_
    rintro _ _ ⟨⟩
  | empty none =>
    have read : (0 : Int32) ≠ -1 := by decide
    rw [none, reported_none]
    refine iff_of_true (fun _ bytesRead => absurd bytesRead read) ?_
    rintro _ _ ⟨⟩
  | noMemory from_ count allocates malloc errormsg =>
    rw [allocates]
    simp only [malloc, Bool.not_false, if_true]
    refine iff_of_true ((failed_reported _ _ _ ⟨ENOMEM, by decide⟩ _).mpr rfl) ?_
    rintro _ _ _ ⟨⟩
  | content from_ count allocates malloc buffer =>
    rw [allocates]
    simp only [malloc, Bool.not_true, Bool.false_eq_true, if_false]
    rw [readContent_reported]
    constructor
    · rintro told _ _ ⟨⟩ _
      exact told
    · intro told
      exact told from_ count rfl trivial

/-- **`readFile` hides no failure** if and only if `ferror` gives the `errno` of
every `fseek` and `fread` that fails, a count of bytes read becomes -1 as an
`int` only for an unchanged file, and none other is taken for unchanged. -/
theorem failure_told_iff {ctx : Context} (system : ctx.callingUid = UID_SYSTEM)
    (filename16 : String16) :
    Reported (failure lib files offset length size mtime) (Kept files size mtime)
        (XposedService.readFile lib ctx files filename16 offset length size mtime).value ↔
      ∀ st, files.stat = .ok st → S_ISDIR st.st_mode = false →
        Told lib files st offset length size mtime := by
  cases stat : files.stat with
  | error e =>
    have reported := (failed_reported ⟨size, mtime⟩ e.code (formatToString16 lib
      [lib.strerror e.code, text " during stat() on ", lib.string8 filename16]) e
      (Kept files size mtime)).mpr rfl
    simp only [XposedService.readFile, failure, stat, system, ne_eq, not_true, if_false]
    refine iff_of_true reported ?_
    rintro st ⟨⟩
  | ok st =>
    simp only [Except.ok.injEq, forall_eq']
    cases directory : S_ISDIR st.st_mode with
    | true =>
      have fails : EISDIR ≠ 0 := by decide
      simp only [XposedService.readFile, failure, stat, system, directory, ne_eq, not_true, if_false,
        if_true, Bool.true_or, reported_none]
      refine iff_of_true (fun status => absurd status fails) ?_
      rintro ⟨⟩
    | false =>
      cases unchanged : isUnchanged st size mtime with
      | true =>
        have size' := ((isUnchanged_iff st size mtime).mp unchanged).1
        simp only [XposedService.readFile, failure, stat, system, directory, unchanged, ne_eq,
          not_true, if_false, if_true, Bool.or_true, reported_none, Bool.false_eq_true, true_implies]
        constructor
        · rintro ⟨st', found, _, same⟩
          rw [stat] at found
          cases found
          refine ⟨fun _ => same, fun changed => ?_⟩
          rw [unchanged] at changed
          cases changed
        · intro told
          exact ⟨st, stat, size', told.stamp unchanged⟩
      | false =>
        have tried := readRange_tried lib files (lib.string8 filename16) ⟨st.st_size, st.st_mtime⟩
          offset length
        have reported := @readRange_reported lib files offset length _ (Kept files size mtime) _ _
          tried
        simp only [XposedService.readFile, failure, stat, system, directory, unchanged, ne_eq,
          not_true, if_false, Bool.or_self, Bool.false_eq_true, reported, true_implies]
        constructor
        · intro content
          refine ⟨fun same => ?_, fun _ => content⟩
          rw [unchanged] at same
          cases same
        · intro told
          exact told.content unchanged

end

theorem whole_file_told : Reported (failure plainPlatform (modifiedAt 1500000000) 0 0 0 0)
    (Kept (modifiedAt 1500000000) 0 0) (XposedService.readFile plainPlatform
      ⟨1, UID_SYSTEM, 0, 0⟩ (modifiedAt 1500000000) [] 0 0 0 0).value := by
  apply (failure_told_iff rfl []).mpr
  rintro st ⟨⟩ _
  constructor
  · intro same
    exact absurd same (by decide)
  · intro _ from_ count allocates _ _
    have five : allocation 5 0 0 = some (0, 5) := by decide
    rw [five] at allocates
    cases allocates
    intro minus
    exact absurd minus (by decide)

/-- A file that `fseek` fails on: `ferror` gives 0, as the stream has no error. -/
def unseekable : Files := { modifiedAt 1500000000 with fseek := .fail ⟨EINVAL, by decide⟩ 0 }

theorem unseekable_hidden : ¬ ∀ (lib : Platform) (ctx : Context) (files : Files)
    (filename16 : String16) (offset length : Int32) (size mtime : Int64),
    ctx.callingUid = UID_SYSTEM →
    Reported (failure lib files offset length size mtime) (Kept files size mtime)
      (XposedService.readFile lib ctx files filename16 offset length size mtime).value := by
  intro reported
  have failing := (reported plainPlatform ⟨1, UID_SYSTEM, 0, 0⟩ unseekable [] 2 1 0 0 rfl).failing
    EINVAL (by decide)
  exact failing.1 (by decide)

end Xposed.Binder
