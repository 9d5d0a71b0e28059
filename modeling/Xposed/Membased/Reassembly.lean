import Xposed.Membased.Chunks

/-!
# What `readFile` puts together

A regular file that is read chunk by chunk while other contents may take its
place between the requests. The buffer holds each chunk as the file had it when
the looper read it.
-/

namespace Xposed.Membased

/-- A regular file that may be replaced: `contents k` is what it holds during
request number `k`. No file has a path that `PATH_MAX` does not leave room for. -/
structure ReplacedFile (path : Bytes) where
  contents : Nat → Bytes
  small : ∀ k, (contents k).length < 2 ^ 31 - contentSize
  named : path.length < PATH_MAX

/-- What the libc calls give for a request on a regular file that holds
`contents`, if none of them fails. -/
structure Serves (contents : Bytes) (offset : Int) (a : Answer) : Prop where
  stat : ∃ st, a.stat = .ok st ∧ st.st_size.toInt = contents.length
  fopen : a.fopen = .ok ()
  seeks : seek a offset = .ok
  fine : a.fread.failed = none
  data : a.fread.data = (contents.drop offset.toNat).take contentSize
  feof : a.fread.feof = decide (a.fread.data.length < contentSize)

theorem Serves.whole {contents : Bytes} {offset : Int} {a : Answer}
    (serves : Serves contents offset a) : a.whole := by
  intro short
  exact .inl (by simp [serves.feof, short])

theorem Serves.st_size {contents : Bytes} {offset : Int} {a : Answer}
    (serves : Serves contents offset a) : a.st_size = contents.length := by
  obtain ⟨st, stat, size⟩ := serves.stat
  simp [Answer.st_size, stat, size]

/-- The buffer of a file of `size` bytes once `n` bytes are copied. -/
structure Filled (contents : Nat → Bytes) (size n : Nat) (r : HeapBlock) : Prop where
  fault : r.fault = false
  length : r.cells.length = size + 1
  last : r.cells[size]? = some (some 0)
  within : n ≤ size
  bytes : ∀ i < n, ∃ x, r.cells[i]? = some (some x) ∧ (contents (i / contentSize))[i]? = some x

theorem Filled.malloc (contents : Nat → Bytes) (size : Nat) :
    Filled contents size 0 ((HeapBlock.malloc (size + 1)).store size [0]) := by
  have room : (HeapBlock.malloc (size + 1)).cells.length = size + 1 := by
    rw [HeapBlock.malloc_length]
    omega
  have inside : size + [(0 : UInt8)].length ≤ (HeapBlock.malloc (size + 1)).cells.length := by
    simp [room]
  refine ⟨?_, ?_, ?_, Nat.zero_le _, ?_⟩
  · rw [HeapBlock.store_kept inside]
    rfl
  · rw [HeapBlock.store_length, room]
  · rw [HeapBlock.store_cell inside]
    simp
  · intro i below
    omega

/-- The chunk that request number `k` brought goes behind the ones before it. -/
theorem Filled.store {contents : Nat → Bytes} {size k : Nat} {r : HeapBlock} {bytes : Bytes}
    (filled : Filled contents size (contentSize * k) r)
    (chunk : bytes = ((contents k).drop (contentSize * k)).take contentSize)
    (fits : contentSize * k + bytes.length ≤ size) :
    Filled contents size (contentSize * k + bytes.length)
      (r.store (contentSize * k : Nat) bytes) := by
  have inside : contentSize * k + bytes.length ≤ r.cells.length := by
    rw [filled.length]
    omega
  have full : bytes.length ≤ contentSize := by
    rw [chunk, List.length_take]
    omega
  refine ⟨?_, ?_, ?_, fits, ?_⟩
  · rw [HeapBlock.store_kept inside]
    exact filled.fault
  · rw [HeapBlock.store_length, filled.length]
  · rw [HeapBlock.store_cell inside, if_neg (by omega)]
    exact filled.last
  · intro i below
    rw [HeapBlock.store_cell inside]
    by_cases new : contentSize * k ≤ i
    · rw [if_pos ⟨new, below⟩]
      have request : i / contentSize = k := by
        apply Nat.div_eq_of_lt_le
        · rw [Nat.mul_comm]
          exact new
        · rw [Nat.succ_mul, Nat.mul_comm]
          omega
      have there : i - contentSize * k < bytes.length := by omega
      refine ⟨bytes[i - contentSize * k], by rw [List.getElem?_eq_getElem there]; rfl, ?_⟩
      rw [request, ← List.getElem?_eq_getElem there, chunk, List.getElem?_take_of_lt (by omega),
        List.getElem?_drop]
      congr 1
      omega
    · rw [if_neg (by omega)]
      exact filled.bytes i (by omega)

/-- A buffer filled to its end from contents that never changed. -/
theorem Filled.all {contents : Nat → Bytes} {r : HeapBlock}
    (filled : Filled contents (contents 0).length (contents 0).length r)
    (same : ∀ k, contents k = contents 0) : r = ⟨(contents 0).map some ++ [some 0], false⟩ := by
  have cells : r.cells = (contents 0).map some ++ [some 0] := by
    apply List.ext_getElem?
    intro i
    rcases Nat.lt_trichotomy i (contents 0).length with below | end_ | above
    · obtain ⟨x, cell, byte⟩ := filled.bytes i below
      rw [same] at byte
      rw [cell, List.getElem?_append_left (by simpa using below), List.getElem?_map, byte]
      rfl
    · rw [end_, filled.last]
      simp
    · rw [List.getElem?_eq_none (by rw [filled.length]; omega),
        List.getElem?_eq_none (by simp; omega)]
  calc r = ⟨r.cells, r.fault⟩ := rfl
    _ = _ := by rw [cells, filled.fault]

section
variable {U : Type} [Abi U]

theorem Serves.clear {contents : Bytes} {b : MemBasedState U} {a : Answer} (asks : Asks b)
    (serves : Serves contents (Abi.readFile b.data).offset a) : (respond a b).error = 0 := by
  obtain ⟨st, stat, _⟩ := serves.stat
  rw [respond_asks asks]
  simp [Request.error, stat, serves.fopen, serves.seeks, Fread.ferror, serves.fine]

/-- What a served request leaves in the member. -/
theorem Serves.member {contents : Bytes} {b : MemBasedState U} {a : Answer} (asks : Asks b)
    (serves : Serves contents (Abi.readFile b.data).offset a)
    (word : Abi.int U a.fread.data.length = a.fread.data.length) :
    (Abi.readFile (respond a b).data).bytesRead = a.fread.data.length ∧
    (Abi.readFile (respond a b).data).eof = a.fread.feof ∧
    (Abi.readFile (respond a b).data).content.take a.fread.data.length = a.fread.data := by
  have chunk := respond_chunk asks (serves.clear asks)
  generalize Abi.readFile (respond a b).data = d at chunk ⊢
  cases chunk with
  | fresh seeks fine => exact ⟨word, rfl, List.take_left⟩
  | stale e fails => simp [serves.seeks] at fails

/-- `readFile` at its request number `k`, with what it has put together. -/
structure Assembles (file : Nat → Bytes) (size : Nat) (bytesRead : Option Int) (k : Nat)
    (looping : Bool) (v : ReadLocals) (b : MemBasedState U) : Prop where
  full : Full size k looping v b
  pointer : v.bytesRead = bytesRead
  buffer : 0 < k → ∃ r, v.result = some r ∧ Filled file size (contentSize * k) r

section
variable {file : Nat → Bytes} {size k : Nat} {bytesRead : Option Int} {looping : Bool}
  {v : ReadLocals} {b : MemBasedState U} {a : Answer}

theorem Assembles.within (h : Assembles file size bytesRead k looping v b) :
    contentSize * k ≤ size := by
  rcases Nat.eq_zero_or_pos k with zero | positive
  · subst zero
    omega
  · obtain ⟨r, _, filled⟩ := h.buffer positive
    exact filled.within

/-- The request asks for its own chunk. -/
theorem Assembles.at_chunk (h : Assembles file size bytesRead k looping v b) :
    (Abi.readFile b.data).offset = (contentSize * k : Nat) := by
  rw [h.full.member, h.full.offset, Int.natCast_mul]

/-- A chunk that fits is copied behind the ones before it. -/
theorem Assembles.copies (h : Assembles file size bytesRead k looping v b)
    (serves : Serves (file k) (Abi.readFile b.data).offset a) (first : size = (file 0).length)
    (precise : Precise U size) (fits : contentSize * k + a.fread.data.length ≤ size) :
    ∃ r, (copied (Abi.int U) looping v (Abi.readFile (respond a b).data)).result = some r ∧
      Filled file size (contentSize * k + a.fread.data.length) r := by
  have word := precise.length a
  obtain ⟨bytesRead, eof, content⟩ := serves.member h.full.asks word
  have chunk : a.fread.data = ((file k).drop (contentSize * k)).take contentSize := by
    rw [serves.data, h.at_chunk, Int.toNat_natCast]
  have copy : ∀ r offset, copyChunk r offset (Abi.readFile (respond a b).data) =
      r.store offset a.fread.data := by
    intro r offset
    rw [copyChunk, bytesRead, Int.toNat_natCast, content]
  cases looping with
  | false =>
    have zero : k = 0 := by simpa using h.full.loop
    subst zero
    have promised : (Abi.readFile (respond a b).data).totalSize = size := by
      rw [chunk_totalSize h.full.asks (serves.clear h.full.asks), serves.st_size, ← first]
      apply precise <;> omega
    have room : Abi.int U ((size : Int) + 1) = size + 1 := by
      apply precise
      · omega
      · simp only [contentSize]
        omega
    refine ⟨_, rfl, ?_⟩
    rw [copy, promised, room]
    exact (Filled.malloc file size).store chunk fits
  | true =>
    obtain ⟨r, result, filled⟩ := h.buffer (h.full.loop.mp rfl)
    refine ⟨r.store v.offset a.fread.data, by simp [copied, result, copy], ?_⟩
    rw [h.full.offset, ← Int.natCast_mul]
    exact filled.store chunk fits

/-- The sum a response is checked with. -/
theorem Assembles.sum (h : Assembles file size bytesRead k looping v b)
    (serves : Serves (file k) (Abi.readFile b.data).offset a) (precise : Precise U size) :
    Abi.int U (v.offset + (Abi.readFile (respond a b).data).bytesRead) =
      (contentSize * k + a.fread.data.length : Nat) := by
  have short := a.fread.fits
  have word := precise.length a
  have within := h.within
  rw [(serves.member h.full.asks word).1, h.full.offset, Int.natCast_add, Int.natCast_mul]
  apply precise
  · exact Int.add_nonneg (Int.mul_nonneg (by omega) (by omega)) (by omega)
  · omega

/-- The first chunk fits into the buffer, and so does every one of a file that
stays as it is. -/
theorem Assembles.fits (h : Assembles file size bytesRead k looping v b)
    (serves : Serves (file k) (Abi.readFile b.data).offset a) (first : size = (file 0).length)
    (same : file k = file 0) : contentSize * k + a.fread.data.length ≤ size ∧
      (a.fread.feof = true → contentSize * k + a.fread.data.length = size) := by
  have within := h.within
  have length : a.fread.data.length = min contentSize (size - contentSize * k) := by
    rw [serves.data, h.at_chunk, Int.toNat_natCast, List.length_take, List.length_drop, same, first]
  refine ⟨by omega, ?_⟩
  intro eof
  have short : a.fread.data.length < contentSize := by simpa [serves.feof] using eof
  omega

/-- What the first request brings and what passes the check in the loop fits. -/
theorem Assembles.room (h : Assembles file size bytesRead k looping v b)
    (serves : Serves (file k) (Abi.readFile b.data).offset a) (first : size = (file 0).length)
    (precise : Precise U size)
    (fits : looping = true →
      Abi.int U (v.offset + (Abi.readFile (respond a b).data).bytesRead) ≤ v.totalSize) :
    contentSize * k + a.fread.data.length ≤ size := by
  cases looping with
  | false =>
    have zero : k = 0 := by simpa using h.full.loop
    exact (h.fits serves first (by rw [zero])).1
  | true =>
    have below := fits rfl
    rw [h.sum serves precise, h.full.totalSize (h.full.loop.mp rfl)] at below
    omega

/-- The next request finds one more chunk in the buffer. -/
theorem Assembles.next {b' : MemBasedState U} (h : Assembles file size bytesRead k looping v b)
    (serves : Serves (file k) (Abi.readFile b.data).offset a) (first : size = (file 0).length)
    (precise : Precise U size) (fits : contentSize * k + a.fread.data.length ≤ size)
    (more : (Abi.readFile (respond a b).data).eof = false) (asks : Asks b')
    (member : Abi.readFile b'.data = { Abi.readFile (respond a b).data with
      offset := Abi.int U (v.offset + (Abi.readFile (respond a b).data).bytesRead) }) :
    Assembles file size bytesRead (k + 1) true
      { copied (Abi.int U) looping v (Abi.readFile (respond a b).data) with
        offset := Abi.int U (v.offset + (Abi.readFile (respond a b).data).bytesRead) } b' := by
  have clear := serves.clear h.full.asks
  have short := a.fread.fits
  have word := precise.length a
  have long : a.fread.data.length = contentSize := by
    have eof := (serves.member h.full.asks word).2.1
    rw [more, serves.feof] at eof
    have := of_decide_eq_false eof.symm
    omega
  have promised : k = 0 → (size : Int) = Abi.int U a.st_size := by
    intro zero
    subst zero
    rw [serves.st_size, ← first]
    symm
    apply precise <;> omega
  have below : looping = true →
      Abi.int U (v.offset + (Abi.readFile (respond a b).data).bytesRead) ≤ v.totalSize := by
    intro loop
    rw [h.sum serves precise, h.full.totalSize (h.full.loop.mp loop)]
    omega
  refine ⟨h.full.next serves.whole precise clear promised below more asks member, ?_, ?_⟩
  · cases looping <;> exact h.pointer
  · intro _
    obtain ⟨r, result, filled⟩ := h.copies serves first precise fits
    rw [long, ← Nat.mul_succ] at filled
    exact ⟨r, result, filled⟩

/-- How `readFile` ends on a regular file. -/
inductive Assembled (file : Nat → Bytes) (size : Nat) (bytesRead : Option Int) : Outcome → Prop where
  | replaced (differs : ∃ k, file k ≠ file 0) :
      Assembled file size bytesRead (.readFile none EBUSY bytesRead)
  | whole (r : HeapBlock) (n : Nat) (filled : Filled file size n r)
      (all : (∀ k, file k = file 0) → n = size) :
      Assembled file size bytesRead (.readFile (some r) 0 (bytesRead.map fun _ => (n : Int)))

theorem Assembles.unlock {path : Bytes} {u : Unlocked} {b' : MemBasedState U}
    (h : Assembles file size bytesRead k looping v b)
    (serves : Serves (file k) (Abi.readFile b.data).offset a) (first : size = (file 0).length)
    (precise : Precise U size)
    (turn : (Frame.readFile looping path v).resume (respond a b) = .unlock u b') :
    Assembled file size bytesRead (u.finish b') := by
  have clear := serves.clear h.full.asks
  have sum := h.sum serves precise
  have turned := turn ▸ resume_turned looping path v (respond a b)
  cases turned with
  | failed error => exact absurd clear error
  | grew _ loop grows =>
    have differs : file k ≠ file 0 := by
      intro same
      have := (h.fits serves first same).1
      rw [sum, h.full.totalSize (h.full.loop.mp loop)] at grows
      omega
    have ends := @Assembled.replaced file size bytesRead ⟨k, differs⟩
    simpa [Unlocked.finish, EBUSY, h.pointer] using ends
  | done _ fits eof =>
    have room := h.room serves first precise fits
    obtain ⟨r, result, filled⟩ := h.copies serves first precise room
    have word := precise.length a
    have ends := @Assembled.whole file size bytesRead r _ filled fun same =>
      (h.fits serves first (same k)).2 ((serves.member h.full.asks word).2.1.symm.trans eof)
    simpa [Unlocked.finish, clear, result, h.pointer, sum] using ends

end

/-- **`readFile` reassembles a file** of less than 2³¹ − 32768 bytes: it finds
the file grown, or byte `i` of its buffer is byte `i` of what the file held at
request number `i / 32768`. A file that stays as it is comes out whole. -/
theorem chunks_reassemble (narrow : ∀ x, Abi.int U x = int32 x) (data : U) {path : Bytes}
    (file : ReplacedFile path) (bytesRead : Option Int) {server : Nat → Int → Answer}
    (serves : ∀ k offset, Serves (file.contents k) offset (server k offset)) :
    let call : Call := .readFile path bytesRead
    let size := (file.contents 0).length
    ∃ out, call.run data (call.answeredBy data server (size / contentSize + 2)) = some out ∧
      (out = .readFile none EBUSY (bytesRead.map fun _ => 0) ∨
        ∃ r n, out = .readFile (some r) 0 (bytesRead.map fun _ => ((n : Nat) : Int)) ∧
          r.fault = false ∧ n ≤ size ∧ ∀ i < n, ∃ x,
            r.cells[i]? = some (some x) ∧ (file.contents (i / contentSize))[i]? = some x) ∧
      ((∀ k, file.contents k = file.contents 0) →
        out = .readFile (some ⟨(file.contents 0).map some ++ [some 0], false⟩) 0
          (bytesRead.map fun _ => (size : Int))) := by
  intro call size
  have precise : Precise U size := by
    intro x low high
    have small := file.small 0
    rw [narrow]
    apply int32_eq <;> simp only [contentSize, size] at * <;> omega
  let Inv : Nat → Frame → MemBasedState U → Prop := fun k f b => ∃ looping v,
    f = .readFile looping path v ∧
      Assembles file.contents size (bytesRead.map fun _ => 0) k looping v b
  have opened : Inv 0 (call.request (idleBlock data 0)).1 (call.request (idleBlock data 0)).2 :=
    ⟨_, _, rfl, request_full _ _ _ _, rfl, by simp⟩
  have bounded : ∀ k f b, Inv k f b → k < size / contentSize + 2 := by
    rintro k f b ⟨looping, v, rfl, h⟩
    exact h.full.bounded
  have again : ∀ k f b f' b', Inv k f b →
      f.resume (respond (server k (Abi.readFile b.data).offset) b) = .again f' b' →
      Inv (k + 1) f' b' := by
    rintro k f b f' b' ⟨looping, v, rfl, h⟩ turn
    have turned := turn ▸ resume_turned looping path v
      (respond (server k (Abi.readFile b.data).offset) b)
    cases turned with
    | again b' clear fits more asks member =>
      have room := h.room (serves _ _) rfl precise fits
      exact ⟨_, _, rfl, h.next (serves _ _) rfl precise room more asks member⟩
  have unlock : ∀ k f b u b', Inv k f b →
      f.resume (respond (server k (Abi.readFile b.data).offset) b) = .unlock u b' →
      Assembled file.contents size (bytesRead.map fun _ => 0) (u.finish b') := by
    rintro k f b u b' ⟨looping, v, rfl, h⟩ turn
    exact h.unlock (serves _ _) rfl precise turn
  obtain ⟨u, b', ends, assembled⟩ :=
    answersTo_total bounded again unlock opened (Nat.le_add_left _ _)
  have short : call.tooLong = false := by
    have named := file.named
    have room : ¬ path.length > PATH_MAX - 1 := by omega
    exact decide_eq_false room
  refine ⟨_, run_answeredBy short ends, ?_⟩
  generalize u.finish b' = out at assembled ⊢
  cases assembled with
  | replaced differs =>
    refine ⟨.inl rfl, fun same => ?_⟩
    obtain ⟨k, differs⟩ := differs
    exact absurd (same k) differs
  | whole r n filled all =>
    have pointer : ((bytesRead.map fun _ => (0 : Int)).map fun _ => (n : Int)) =
        bytesRead.map fun _ => (n : Int) := by
      rw [Option.map_map]
      rfl
    rw [pointer]
    refine ⟨.inr ⟨r, n, rfl, filled.fault, filled.within, filled.bytes⟩, fun same => ?_⟩
    obtain rfl := all same
    rw [filled.all same]

end

/-- The answer to a request on a regular file that holds `contents`. -/
def regular (contents : Bytes) (offset : Int) : Answer :=
  let data := (contents.drop offset.toNat).take contentSize
  { (default : Answer) with
    stat := .ok ⟨0o100644, Int64.ofNat contents.length, 0⟩
    fread := ⟨data, List.length_take_le _ _, none, decide (data.length < contentSize)⟩ }

theorem regular_serves {contents : Bytes} (small : contents.length < 2 ^ 31) (offset : Int) :
    Serves contents offset (regular contents offset) := by
  have seeks : seek (regular contents offset) offset = .ok := by
    unfold seek
    split <;> rfl
  exact ⟨⟨_, rfl, Int64.toInt_ofNat_of_lt (by omega)⟩, rfl, seeks, rfl, rfl, rfl⟩

/-- A file of two chunks that is replaced by another one between them. -/
def swapped : ReplacedFile [47] where
  contents k := if k = 0 then List.replicate 40000 1 else List.replicate 36000 2
  small k := by split <;> rw [List.length_replicate] <;> decide
  named := by decide

theorem swapped_reassembled : ∃ out,
    Call.run Member.zero (.readFile [47] (some 7))
      (Call.answeredBy Member.zero (.readFile [47] (some 7))
        (fun k => regular (swapped.contents k)) 3) = some out ∧
    (out = .readFile none EBUSY (some 0) ∨
      ∃ r n, out = .readFile (some r) 0 (some ((n : Nat) : Int)) ∧ r.fault = false ∧ n ≤ 40000 ∧
        ∀ i < n, ∃ x, r.cells[i]? = some (some x) ∧
          (swapped.contents (i / contentSize))[i]? = some x) := by
  have serves : ∀ k offset, Serves (swapped.contents k) offset (regular (swapped.contents k) offset) := by
    intro k offset
    have small := swapped.small k
    exact regular_serves (by omega) offset
  have size : (swapped.contents 0).length = 40000 := List.length_replicate
  have ends := chunks_reassemble (fun _ => rfl) Member.zero swapped (some 7) serves
  simp only [size, Option.map_some] at ends
  obtain ⟨out, run, found, _⟩ := ends
  exact ⟨out, run, found⟩

end Xposed.Membased
