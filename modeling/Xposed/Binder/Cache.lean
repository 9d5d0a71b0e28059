import Xposed.Lib.Revalidation
import Xposed.Binder.RoundTrip

/-!
# Reading a file only when it has changed

`readFile` takes the size and the time the caller knows of the file, and gives
back the ones it found: the caller's cache key. Calls that hand the pair on from
one to the next are a reader with revalidation, at the service itself and
through stub and proxy.
-/

namespace Xposed.Binder

open Revalidation (Answer Call Reader)

/-- One call of a run on one file: who calls, how the file is at that time, and
what is asked for. -/
structure ReadInput where
  ctx : Context
  files : Files
  offset : Int32
  length : Int32

/-- The size and time of the file the call finds. -/
def ReadInput.version (i : ReadInput) : Option (Int64 × Int64) :=
  match i.files.stat with
  | .error _ => none
  | .ok st => if S_ISDIR st.st_mode then none else some (st.st_size, st.st_mtime)

/-- "Unchanged" is status 0 with -1 bytes read and no buffer. -/
def answerOf (status bytesRead : Int32) (buffer : Option HeapBlock) : Answer :=
  if status ≠ 0 then .failed
  else if bytesRead = -1 ∧ buffer.isNone then .unchanged
  else .delivered

/-- `readFile` called on the service. -/
def serviceReader (lib : Platform) (filename : String16) : Reader (Int64 × Int64) ReadInput where
  version := ReadInput.version
  call v i :=
    let r := (XposedService.readFile lib i.ctx i.files filename i.offset i.length v.1 v.2).value
    (answerOf r.status r.bytesRead r.buffer, (r.size, r.mtime))

/-- `readFile` called on the proxy, which hands the call to a service `self`. -/
def proxyReader (P : Type) [Parcel P] (self : XposedService) (lib : Platform)
    (filename : String16) : Reader (Int64 × Int64) ReadInput where
  version := ReadInput.version
  call v i :=
    let call : ProxyCall :=
      .readFile filename i.offset i.length (some v.1) (some v.2) (some 0) none none
    let service := self.methods lib i.ctx i.files (0, 0)
    let out := call.run (deliver service : Transaction → P → Int32 × P) 0
    (answerOf out.ret (out.bytesRead.getD 0) out.buffer, (out.size.getD v.1, out.mtime.getD v.2))

/-- `fopen`, `fseek` and `fread` go well. -/
def readsContent (lib : Platform) (files : Files) (offset length : Int32) : Bool :=
  files.fopen.toBool && (!decide (0 < offset) || files.fseek == .ok) &&
    (files.fread (lib.size_t length)).failed.isNone

/-- Everything behind the test for an unchanged file goes well, and the number of
bytes to read is not negative. -/
def fetches (lib : Platform) (files : Files) (at_ : XposedService.Metadata)
    (offset length : Int32) : Bool :=
  !decide (0 < offset ∧ at_.size ≤ offset.toInt64) &&
    let offset := if offset < 0 then 0 else offset
    !decide (0 < length ∧ at_.size < (offset + length).toInt64) &&
      (at_.size == 0 ||
        let length := if length ≤ 0 then (at_.size - offset.toInt64).toInt32 else length
        decide (0 ≤ length) && files.malloc && readsContent lib files offset length)

/-- A call that fails, fails before it takes over the file's size and time, and
the time fits into 32 bits. -/
def ReadInput.settles (lib : Platform) (v : Int64 × Int64) (i : ReadInput) : Bool :=
  match i.files.stat with
  | .error _ => true
  | .ok st =>
    S_ISDIR st.st_mode || i.ctx.callingUid != UID_SYSTEM ||
      (st.st_mtime.toInt32.toInt64 == st.st_mtime &&
        (XposedService.isUnchanged st v.1 v.2 ||
          fetches lib i.files ⟨st.st_size, st.st_mtime⟩ i.offset i.length))

/-- What a settled call comes down to. -/
inductive Settled (v : Int64 × Int64) (version : Option (Int64 × Int64)) (r : ReadResult) :
    Prop where
  | failed (status : r.status ≠ 0) (kept : (r.size, r.mtime) = v)
  | unchanged (status : r.status = 0) (bytesRead : r.bytesRead = -1) (buffer : r.buffer = none)
      (kept : (r.size, r.mtime) = v) (current : version = some v)
  | delivered (status : r.status = 0) (bytesRead : r.bytesRead ≠ -1)
      (current : version = some (r.size, r.mtime))

theorem ofNat_ne_neg_one {n : Nat} (h : n < 2 ^ 31) : Int32.ofNat n ≠ -1 := by
  intro same
  have value := Int32.toInt_ofNat_of_lt h
  rw [same] at value
  have negative : (-1 : Int32).toInt = -1 := by decide
  omega

theorem size_t_lt (lib : Platform) {length : Int32} (h : 0 ≤ length) :
    lib.size_t length < 2 ^ 31 := by
  have nonneg : 0 ≤ length.toInt := by simpa using Int32.le_iff_toInt_le.mp h
  have small := length.toInt_lt
  have exact_ : lib.size_t length = length.toInt.toNat % (2 ^ lib.sizeBits : Int).toNat :=
    Int.toNat_emod nonneg (Int.pow_nonneg (by decide))
  have mod := Nat.mod_le length.toInt.toNat (2 ^ lib.sizeBits : Int).toNat
  omega

theorem readContent_reads {lib : Platform} {files : Files} {filename : Bytes}
    {at_ : XposedService.Metadata} {offset length : Int32} {buffer : HeapBlock}
    (h : readsContent lib files offset length = true) (nonneg : 0 ≤ length) :
    let r := XposedService.readContent lib files filename at_ offset length buffer
    r.status = 0 ∧ r.size = at_.size ∧ r.mtime = at_.mtime ∧ r.bytesRead ≠ -1 := by
  simp only [readsContent, Bool.and_eq_true, Option.isNone_iff_eq_none] at h
  obtain ⟨⟨opened, sought⟩, read⟩ := h
  have seek : (if 0 < offset then files.fseek else .ok) = .ok := by
    split
    · simpa [‹0 < offset›] using sought
    · rfl
  have clear : (files.fread (lib.size_t length)).ferror = 0 := by simp [Fread.ferror, read]
  have short := (files.fread (lib.size_t length)).fits
  have small := size_t_lt lib nonneg
  cases fopen : files.fopen with
  | error e => simp [fopen, Except.toBool] at opened
  | ok _ =>
    simp only [XposedService.readContent, fopen, seek, clear, ne_eq, not_true_eq_false, ↓reduceIte,
      true_and]
    exact ofNat_ne_neg_one (Nat.lt_of_le_of_lt short small)

theorem readRange_fetches {lib : Platform} {files : Files} (filename : Bytes)
    {at_ : XposedService.Metadata} {offset length : Int32}
    (h : fetches lib files at_ offset length = true) :
    let r := (XposedService.readRange lib files filename at_ offset length).value
    r.status = 0 ∧ r.size = at_.size ∧ r.mtime = at_.mtime ∧ r.bytesRead ≠ -1 := by
  unfold fetches at h
  simp only [Bool.and_eq_true, Bool.not_eq_true', decide_eq_false_iff_not] at h
  obtain ⟨range, whole, h⟩ := h
  unfold XposedService.readRange
  simp only [range, ↓reduceIte, whole]
  by_cases empty : at_.size = 0
  · simp [empty]
  · simp only [empty, beq_iff_eq, Bool.or_eq_true, Bool.and_eq_true, decide_eq_true_eq,
      false_or] at h
    obtain ⟨⟨nonneg, malloc⟩, reads⟩ := h
    simp only [empty, ↓reduceIte, malloc, Bool.not_true, Bool.false_eq_true]
    exact readContent_reads reads nonneg

theorem readFile_settled {lib : Platform} {filename : String16} {v : Int64 × Int64} {i : ReadInput}
    (h : i.settles lib v = true) :
    Settled v i.version
      (XposedService.readFile lib i.ctx i.files filename i.offset i.length v.1 v.2).value := by
  unfold XposedService.readFile
  by_cases system : i.ctx.callingUid = UID_SYSTEM
  · simp only [system, ne_eq, not_true_eq_false, ↓reduceIte]
    cases stat : i.files.stat with
    | error e => exact .failed e.ne rfl
    | ok st =>
      dsimp only
      split
      · exact .failed (by decide : EISDIR ≠ 0) rfl
      · rename_i file
        have version : i.version = some (st.st_size, st.st_mtime) := by
          simp [ReadInput.version, stat, file]
        simp only [ReadInput.settles, stat, file, system, bne_self_eq_false, Bool.false_or,
          Bool.and_eq_true, beq_iff_eq, Bool.or_eq_true] at h
        obtain ⟨fits, goes⟩ := h
        split
        · rename_i unchanged
          refine .unchanged rfl rfl rfl rfl ?_
          simp only [XposedService.isUnchanged, Bool.and_eq_true, beq_iff_eq, fits] at unchanged
          rw [version, ← unchanged.1, ← unchanged.2]
        · rename_i changed
          obtain ⟨status, size, mtime, bytesRead⟩ :=
            readRange_fetches (lib.string8 filename) (goes.resolve_left changed)
          exact .delivered status bytesRead (by rw [version, size, mtime])
  · simp only [system, ne_eq, not_false_eq_true, ↓reduceIte]
    exact .failed (by decide : EPERM ≠ 0) rfl

/-- An answer that tells success and "unchanged" apart as the result does, with
the result's size and time. -/
theorem Settled.honest {reader : Reader (Int64 × Int64) ReadInput}
    {c : Call (Int64 × Int64) ReadInput} {r : ReadResult} {status : Int32}
    {buffer : Option HeapBlock} (h : Settled c.offered (reader.version c.input) r)
    (answer : c.answer = answerOf status r.bytesRead buffer) (same : status = 0 ↔ r.status = 0)
    (none : r.status = 0 → r.bytesRead = -1 → r.buffer = none → buffer = none)
    (kept : c.kept = (r.size, r.mtime)) : reader.Honest c := by
  cases h with
  | failed broken old =>
    have failed : c.answer = .failed := by simp [answer, answerOf, same, broken]
    exact ⟨by simp [failed], by simp [failed], fun _ => kept.trans old⟩
  | unchanged ok bytesRead empty old current =>
    have unchanged : c.answer = .unchanged := by
      simp [answer, answerOf, same, ok, bytesRead, none ok bytesRead empty]
    exact ⟨fun _ => ⟨current, kept.trans old⟩, by simp [unchanged], by simp [unchanged]⟩
  | delivered ok bytesRead current =>
    have delivered : c.answer = .delivered := by simp [answer, answerOf, same, ok, bytesRead]
    exact ⟨by simp [delivered], fun _ => by rw [kept, current], by simp [delivered]⟩

theorem service_honest {lib : Platform} {filename : String16} {v : Int64 × Int64}
    {inputs : List ReadInput} {c : Call (Int64 × Int64) ReadInput}
    (h : c ∈ (serviceReader lib filename).calls v inputs)
    (settles : c.input.settles lib c.offered = true) : (serviceReader lib filename).Honest c := by
  obtain ⟨answer, kept, _⟩ := Revalidation.calls_offered h
  exact Settled.honest (readFile_settled settles) answer Iff.rfl (fun _ _ none => none) kept

/-- The proxy reports success as the service does. -/
theorem received_ret (r : ReadResult) : (if r.status = 0 then 0 else -1 : Int32) = 0 ↔ r.status = 0 := by
  by_cases ok : r.status = 0 <;> simp [ok]

theorem receivedContent_none {r : ReadResult} (h : r.bytesRead = -1) :
    (receivedContent r).1 = none := by
  have negative : ¬ 0 < (-1 : Int32) := by decide
  simp [receivedContent, h, negative]

theorem proxy_honest {P : Type} [Parcel P] {self : XposedService} {lib : Platform}
    {filename : String16} {v : Int64 × Int64} {inputs : List ReadInput}
    {c : Call (Int64 × Int64) ReadInput} (h : c ∈ (proxyReader P self lib filename).calls v inputs)
    (settles : c.input.settles lib c.offered = true) :
    (proxyReader P self lib filename).Honest c := by
  obtain ⟨answer, kept, _⟩ := Revalidation.calls_offered h
  have out := (run_deliver (P := P) (self.methods lib c.input.ctx c.input.files (0, 0))
    (.readFile filename c.input.offset c.input.length (some c.offered.1) (some c.offered.2)
      (some 0) none none) 0 trivial).2
  simp only [proxyReader, out] at answer kept
  refine Settled.honest (readFile_settled settles) answer ?_ ?_ kept
  · exact received_ret _
  · intro _ bytesRead _
    exact receivedContent_none bytesRead

/-- **Metadata never runs ahead of content**, at the service and through stub and
proxy, in a run whose calls are all settled: a call answers "unchanged" only if
an earlier one has delivered the version of the file it finds, and a failed call
leaves the caller's pair alone. -/
theorem metadata_behind_content (P : Type) [Parcel P] (self : XposedService) (lib : Platform)
    (filename : String16) (v₀ : Int64 × Int64) (inputs : List ReadInput)
    (new : ∀ i ∈ inputs, i.version ≠ some v₀) :
    ((∀ c ∈ (serviceReader lib filename).calls v₀ inputs, c.input.settles lib c.offered = true) →
      (serviceReader lib filename).Truthful ((serviceReader lib filename).calls v₀ inputs)) ∧
    ((∀ c ∈ (proxyReader P self lib filename).calls v₀ inputs,
        c.input.settles lib c.offered = true) →
      (proxyReader P self lib filename).Truthful
        ((proxyReader P self lib filename).calls v₀ inputs)) := by
  constructor
  · intro settled
    exact Revalidation.truthful_of_honest new fun c hc => service_honest hc (settled c hc)
  · intro settled
    exact Revalidation.truthful_of_honest new fun c hc => proxy_honest hc (settled c hc)

/-- A caller that is the system. -/
def system : Context := ⟨100, UID_SYSTEM, 10001, 0⟩

/-- A file of three bytes, where `fopen` gives `fopen`. -/
def threeBytes (fopen : Except Errno Unit) : Files where
  access := .ok ()
  stat := .ok ⟨0o100644, 3, 7⟩
  malloc := true
  fopen
  fseek := .ok
  fread n := ⟨List.replicate (min n 3) 65, by rw [List.length_replicate]; omega, none, false⟩
  addService := 0

theorem read_twice_truthful :
    (serviceReader plainPlatform [47]).Truthful ((serviceReader plainPlatform [47]).calls (0, 0)
      [⟨system, threeBytes (.ok ()), 0, 0⟩, ⟨system, threeBytes (.ok ()), 0, 0⟩]) :=
  (metadata_behind_content (List Item) ⟨false⟩ plainPlatform [47] (0, 0) _ (by decide)).1 (by decide)

/-- The file cannot be opened, and then it is said to be unchanged. -/
theorem opened_never : ¬ ∀ (lib : Platform) filename v₀ inputs,
    (∀ i ∈ inputs, ReadInput.version i ≠ some v₀) →
    (serviceReader lib filename).Truthful ((serviceReader lib filename).calls v₀ inputs) := by
  intro truthful
  have kept := (truthful plainPlatform [47] (0, 0)
    [⟨system, threeBytes (.error ⟨13, by decide⟩), 0, 0⟩,
      ⟨system, threeBytes (.error ⟨13, by decide⟩), 0, 0⟩] (by decide)).unchanged
  obtain ⟨v, _, d, earlier, delivered, _⟩ := kept [_] _ [] rfl (by decide)
  obtain rfl := List.mem_singleton.mp earlier
  exact absurd delivered (by decide)

end Xposed.Binder
