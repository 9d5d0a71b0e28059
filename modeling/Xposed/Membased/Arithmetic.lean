import Xposed.Membased.Bounds

/-!
# The 32-bit arithmetic of `readFile`

A 64-bit size that goes through an `int`, and the sums the client computes with
it, against the numbers they stand for.
-/

namespace Xposed.Membased

/-- The `int` expressions around a copy have their exact values for a file of
`size` bytes, and the buffer is made one byte larger than that. -/
structure Copy.Exact (int : Int → Int) (size : Int) (c : Copy) : Prop where
  totalSize : c.totalSize = size
  room : int (c.totalSize + 1) = c.totalSize + 1
  sum : int (c.offset + c.bytesRead) = c.offset + c.bytesRead
  block : (HeapBlock.malloc (int (c.totalSize + 1))).cells.length = size + 1

theorem exact_iff {total size : Int} {sum n : Nat} (range : -2 ^ 31 ≤ total ∧ total < 2 ^ 31)
    (positive : 0 ≤ size) (short : sum + n < 2 ^ 32) :
    Copy.Exact int32 size ⟨sum, n, total⟩ ↔
      total = size ∧ total < 2 ^ 31 - 1 ∧ sum + n < 2 ^ 31 := by
  constructor
  · rintro ⟨same, room, added, _⟩
    simp only at same room added
    have top := (int32_range (total + 1)).2
    refine ⟨same, by omega, ?_⟩
    by_contra wraps
    have negative := int32_above (x := sum + n) (by omega) (by omega)
    omega
  · rintro ⟨same, top, small⟩
    have room : int32 (total + 1) = total + 1 := by
      apply int32_eq <;> omega
    refine ⟨same, room, ?_, ?_⟩
    · apply int32_eq
      · dsimp only
        omega
      · dsimp only
        omega
    · rw [HeapBlock.malloc_length]
      dsimp only
      rw [room]
      omega

theorem firstBlock_length {total : Int} (low : 0 ≤ total) (top : total < 2 ^ 31 - 1)
    (chunk : Bytes) : ((firstBlock total chunk).cells.length : Int) = total + 1 := by
  have room : int32 (total + 1) = total + 1 := by
    apply int32_eq <;> omega
  rw [firstBlock, HeapBlock.store_length, HeapBlock.store_length, HeapBlock.malloc_length, room]
  omega

/-- The first chunk and the terminator stay inside the block that `malloc` was
asked for. -/
theorem firstBlock_fault {total : Int} (range : -2 ^ 31 ≤ total ∧ total < 2 ^ 31) (chunk : Bytes) :
    (firstBlock total chunk).fault = false ↔
      0 ≤ total ∧ total < 2 ^ 31 - 1 ∧ (chunk.length : Int) ≤ total + 1 := by
  rw [← Bool.not_eq_true, firstBlock, HeapBlock.store_fault, HeapBlock.store_fault,
    HeapBlock.store_length, HeapBlock.malloc_length]
  have clean : (HeapBlock.malloc (int32 (total + 1))).fault = false := rfl
  simp only [clean, Bool.false_eq_true, false_or, not_or, not_not, List.length_singleton]
  by_cases below : total < 2 ^ 31 - 1
  · have room : int32 (total + 1) = total + 1 := by
      apply int32_eq <;> omega
    rw [room]
    omega
  · have room := int32_above (x := total + 1) (by omega) (by omega)
    omega

section
variable {U : Type} [Abi U]

/-- Once a store has left the block, the rest of the read does not mend it. -/
theorem session_faulted {path : Bytes} {v w : ReadLocals} {b b' : MemBasedState U}
    {answers : List Answer} {block : HeapBlock} (result : v.result = some block)
    (fault : block.fault = true)
    (ends : session (.readFile true path v) b answers = some (.readFree w, b')) :
    ∃ r, w.result = some r ∧ r.fault = true := by
  induction answers generalizing v b block with
  | nil => cases ends
  | cons a rest ih =>
    have stored : (copied (Abi.int U) true v (Abi.readFile (respond a b).data)).result =
        some (copyChunk block v.offset (Abi.readFile (respond a b).data)) := by
      simp [copied, result]
    have stays : (copyChunk block v.offset (Abi.readFile (respond a b).data)).fault = true :=
      (HeapBlock.store_fault _ _ _).mpr (.inl fault)
    have turned := resume_turned true path v (respond a b)
    rcases session_step ends with ⟨g, b₁, turn, later⟩ | ⟨turn, _⟩
    · rw [turn] at turned
      cases turned with
      | again =>
        refine ih ?_ stays later
        exact stored
    · rw [turn] at turned
      cases turned with
      | failed => exact ⟨block, result, fault⟩
      | grew => exact ⟨block, result, fault⟩
      | done => exact ⟨_, stored, stays⟩

section
variable {sum last : Nat} {v : ReadLocals} {b : MemBasedState U} {a : Answer} {n : Nat} {eof : Bool}

/-- What a response in the loop brings is exact, as long as its sum is small. -/
theorem Follows.brings_exact (narrow : ∀ x, Abi.int U x = int32 x) (h : Follows sum last v b)
    {total : Int} (low : 0 ≤ total) (top : total < 2 ^ 31 - 1) (size : v.totalSize = total)
    (brought : Brought n eof (respond a b)) (small : sum + n < 2 ^ 31) (path : Bytes) :
    ∀ c ∈ Round.brings ⟨.readFile true path v, a, respond a b⟩, c.Exact (Abi.int U) total := by
  rw [h.brings brought, size, funext narrow]
  rintro c ⟨⟩
  apply (exact_iff ⟨by omega, by omega⟩ low (by omega)).mpr
  exact ⟨rfl, top, small⟩

theorem Follows.brings_inexact (narrow : ∀ x, Abi.int U x = int32 x) (h : Follows sum last v b)
    (below : sum < 2 ^ 31) (brought : Brought n eof (respond a b)) (wraps : 2 ^ 31 ≤ sum + n)
    (path : Bytes) (s : Int) :
    ¬ ∀ c ∈ Round.brings ⟨.readFile true path v, a, respond a b⟩, c.Exact (Abi.int U) s := by
  intro all
  have added := (all _ (h.brings brought)).sum
  have short := brought.chunk
  simp only [contentSize] at short
  have negative := int32_above (x := sum + n) (by omega) (by omega)
  simp only [narrow] at added
  omega

/-- What the first response brings is exact if its size is. -/
theorem Follows.first_brings_exact (narrow : ∀ x, Abi.int U x = int32 x) (h : Follows 0 0 v b)
    (positive : 0 ≤ a.st_size) (brought : Brought n eof (respond a b)) (path : Bytes) :
    (∀ c ∈ Round.brings ⟨.readFile false path v, a, respond a b⟩, c.Exact (Abi.int U) a.st_size) ↔
      int32 a.st_size = a.st_size ∧ int32 a.st_size < 2 ^ 31 - 1 := by
  have short := brought.chunk
  simp only [contentSize] at short
  have exact_ := @exact_iff (int32 a.st_size) a.st_size 0 n (int32_range _) positive (by omega)
  rw [h.first_brings narrow brought, funext narrow]
  constructor
  · intro all
    have := exact_.mp (all _ rfl)
    exact ⟨this.1, this.2.1⟩
  · rintro ⟨same, top⟩ c ⟨⟩
    exact exact_.mpr ⟨same, top, by omega⟩

/-- A read whose sums stay small stores inside its buffer in the loop, computes
exactly, and fails unless a response ends it well. -/
theorem loop_small (narrow : ∀ x, Abi.int U x = int32 x) {total : Int} (low : 0 ≤ total)
    (top : total < 2 ^ 31 - 1) {path : Bytes} {answers : List Answer} (h : Follows sum last v b)
    (size : v.totalSize = total) (below : sum < 2 ^ 31) {block : HeapBlock}
    (result : v.result = some block) (length : (block.cells.length : Int) = total + 1)
    {w : ReadLocals} {b' : MemBasedState U}
    (ends : session (.readFile true path v) b answers = some (.readFree w, b'))
    (small : Small (handedLater total sum last answers)) :
    (b'.error ≠ 0 ↔ ∀ h ∈ handedLater total sum last answers, h.ends = false) ∧
    (∃ r, w.result = some r ∧ r.fault = block.fault) ∧
    ∀ r ∈ rounds (.readFile true path v) b answers, ∀ c ∈ r.brings, c.Exact (Abi.int U) total := by
  induction answers generalizing sum last v b block with
  | nil => cases ends
  | cons a rest ih =>
    have exactly {n eof} (brought : Brought n eof (respond a b)) (small : sum + n < 2 ^ 31) :=
      h.brings_exact narrow low top size brought small path
    -- a chunk that was accepted lies inside the block
    have stored : ∀ {n} {chunk : Bytes}, chunk.length = n → ((sum + n : Nat) : Int) ≤ total →
        (block.store sum chunk).fault = block.fault := by
      intro n chunk long fits
      apply HeapBlock.store_kept
      omega
    have turned := h.turn narrow low (by omega) size below path a
    rcases session_step ends with ⟨g, b₁, turn, later⟩ | ⟨turn, rfl⟩
    · rw [turn] at turned
      rw [forall_rounds_again turn]
      cases turned with
      | again n w₁ chunk b₁ delivers brought accepted unseen copies long size' follows =>
        rcases accepted with fits | wraps
        · rw [handedLater_goes_on delivers fits] at small ⊢
          obtain ⟨head, tail⟩ := List.forall_mem_cons.mp small
          have result' : w₁.result = some (block.store sum chunk) := by rw [copies, result]; rfl
          obtain ⟨error, ⟨r, last, fault⟩, exact_⟩ :=
            ih (follows head) size' head result' (by rw [HeapBlock.store_length, length]) later tail
          refine ⟨?_, ⟨r, last, fault.trans (stored long fits)⟩, exactly brought head, exact_⟩
          rw [List.forall_mem_cons]
          simpa using error
        · have := small.first delivers
          omega
    · rw [turn] at turned
      rw [forall_rounds_unlock turn]
      cases turned with
      | failed error fails =>
        rw [handedLater_fails fails]
        refine ⟨by simpa using error, ⟨block, result, rfl⟩, ?_⟩
        simp [Round.brings, error]
      | grew n eof delivers brought below' exceeds seen =>
        rw [handedLater_exceeds delivers exceeds]
        exact ⟨by simp [EBUSY], ⟨block, result, rfl⟩, exactly brought below'⟩
      | done n w₁ chunk delivers brought accepted unseen copies long =>
        rcases accepted with fits | wraps
        · rw [handedLater_ends delivers fits] at small ⊢
          refine ⟨by simp [brought.clear], ⟨block.store sum chunk, ?_, stored long fits⟩,
            exactly brought (small _ List.mem_cons_self)⟩
          rw [copies, result]
          rfl
        · have := small.first delivers
          omega

/-- A sum that wraps lets a store out of the buffer, and is not exact. -/
theorem loop_wraps (narrow : ∀ x, Abi.int U x = int32 x) {total : Int} (low : 0 ≤ total)
    (top : total < 2 ^ 31 - 1) {path : Bytes} {answers : List Answer} (h : Follows sum last v b)
    (size : v.totalSize = total) (below : sum < 2 ^ 31) {block : HeapBlock}
    (result : v.result = some block) (length : (block.cells.length : Int) = total + 1)
    {w : ReadLocals} {b' : MemBasedState U}
    (ends : session (.readFile true path v) b answers = some (.readFree w, b'))
    (wraps : ¬ Small (handedLater total sum last answers)) :
    (∃ r, w.result = some r ∧ r.fault = true) ∧ ∀ s,
      ¬ ∀ r ∈ rounds (.readFile true path v) b answers, ∀ c ∈ r.brings, c.Exact (Abi.int U) s := by
  induction answers generalizing sum last v b block with
  | nil => cases ends
  | cons a rest ih =>
    have strays : ∀ {n} {chunk : Bytes}, chunk.length = n → 2 ^ 31 ≤ sum + n →
        (block.store sum chunk).fault = true := by
      intro n chunk long wraps
      apply HeapBlock.store_strays
      omega
    have turned := h.turn narrow low (by omega) size below path a
    rcases session_step ends with ⟨g, b₁, turn, later⟩ | ⟨turn, rfl⟩
    · rw [turn] at turned
      cases turned with
      | again n w₁ chunk b₁ delivers brought accepted unseen copies long size' follows =>
        have result' : w₁.result = some (block.store sum chunk) := by rw [copies, result]; rfl
        rcases accepted with fits | wraps'
        · have head : sum + n < 2 ^ 31 := by omega
          rw [handedLater_goes_on delivers fits] at wraps
          have tail : ¬ Small (handedLater total (sum + n) n rest) := by
            intro small
            exact wraps (List.forall_mem_cons.mpr ⟨head, small⟩)
          obtain ⟨fault, inexact⟩ := ih (follows head) size' head result'
            (by rw [HeapBlock.store_length, length]) later tail
          refine ⟨fault, fun s all => ?_⟩
          exact inexact s ((forall_rounds_again turn _).mp all).2
        · refine ⟨session_faulted result' (strays long wraps') later, fun s all => ?_⟩
          apply h.brings_inexact narrow below brought wraps' path s
          exact ((forall_rounds_again turn _).mp all).1
    · rw [turn] at turned
      cases turned with
      | failed error fails =>
        rw [handedLater_fails fails] at wraps
        exact absurd (by simp [Small]) wraps
      | grew n eof delivers brought small exceeds seen =>
        rw [handedLater_exceeds delivers exceeds] at wraps
        exact absurd (by simpa [Small] using small) wraps
      | done n w₁ chunk delivers brought accepted unseen copies long =>
        rcases accepted with fits | wraps'
        · rw [handedLater_ends delivers fits] at wraps
          have small : sum + n < 2 ^ 31 := by omega
          exact absurd (by simpa [Small] using small) wraps
        · refine ⟨⟨block.store sum chunk, ?_, strays long wraps'⟩, fun s all => ?_⟩
          · rw [copies, result]
            rfl
          · apply h.brings_inexact narrow below brought wraps' path s
            exact (forall_rounds_unlock turn _).mp all

end

/-- A read of a file of `size` bytes fails, and has not left its buffer before
that, or computes exactly in every iteration. -/
def FailsOrExact (size : Int) (rs : List (Round U)) (w : ReadLocals) (b' : MemBasedState U) : Prop :=
  (b'.error ≠ 0 ∧ ∀ r ∈ w.result, r.fault = false) ∨
    ∀ r ∈ rs, ∀ c ∈ r.brings, c.Exact (Abi.int U) size

/-- The first request fails; or the sizes and sums are in range, and the size is
either kept by its conversion, or small enough behind it for the first chunk
and for the read to be refused later. -/
def InRange (size : Int) (answers : List Answer) : Prop :=
  handed answers = [] ∨
    (0 ≤ int32 size ∧ int32 size < 2 ^ 31 - 1 ∧ Small (handed answers) ∧
      (int32 size = size ∨
        (∀ h ∈ (handed answers).head?, (h.sum : Int) ≤ int32 size + 1) ∧
          ∀ h ∈ handed answers, h.ends = false))

section
variable {v w : ReadLocals} {b b' : MemBasedState U} {n : Nat} {path chunk : Bytes}
  {rest : List Answer}

/-- A size without room for the terminator lets it out of the buffer. -/
theorem first_strays {size : Int} (range : -2 ^ 31 ≤ size ∧ size < 2 ^ 31)
    (cramped : ¬ (0 ≤ size ∧ size < 2 ^ 31 - 1)) (copies : v.result = some (firstBlock size chunk))
    (ends : session (.readFile true path v) b rest = some (.readFree w, b')) :
    ¬ ∀ r ∈ w.result, r.fault = false := by
  have fault : (firstBlock size chunk).fault = true := by
    rw [← Bool.not_eq_false, firstBlock_fault range]
    rintro ⟨low, top, _⟩
    exact cramped ⟨low, top⟩
  obtain ⟨r, result, faulted⟩ := session_faulted copies fault ends
  intro fine
  exact absurd faulted (by simp [fine r result])

/-- What comes of a first chunk, where there is room for the terminator. -/
theorem loop_failsOrExact (narrow : ∀ x, Abi.int U x = int32 x) {total : Int} (low : 0 ≤ total)
    (top : total < 2 ^ 31 - 1) (short : n < 2 ^ 31) (h : Follows n n v b)
    (size : v.totalSize = total) (copies : v.result = some (firstBlock total chunk))
    (long : chunk.length = n)
    (ends : session (.readFile true path v) b rest = some (.readFree w, b')) (promised : Int) :
    ((b'.error ≠ 0 ∧ ∀ r ∈ w.result, r.fault = false) ∨
        total = promised ∧ ∀ r ∈ rounds (.readFile true path v) b rest, ∀ c ∈ r.brings,
          c.Exact (Abi.int U) promised) ↔
      Small (handedLater total n n rest) ∧ (total = promised ∨
        (n : Int) ≤ total + 1 ∧ ∀ h ∈ handedLater total n n rest, h.ends = false) := by
  have length := firstBlock_length low top chunk
  have range : -2 ^ 31 ≤ total ∧ total < 2 ^ 31 := by omega
  have fault := firstBlock_fault range chunk
  by_cases small : Small (handedLater total n n rest)
  · obtain ⟨error, ⟨r, result, kept⟩, exact_⟩ :=
      loop_small narrow low top h size short copies length ends small
    have clean : (∀ r ∈ w.result, r.fault = false) ↔ (n : Int) ≤ total + 1 := by
      rw [long] at fault
      rw [result]
      constructor
      · intro fine
        exact (fault.mp (kept.symm.trans (fine r rfl))).2.2
      · rintro fits r ⟨⟩
        exact kept.trans (fault.mpr ⟨low, top, fits⟩)
    rw [clean, error]
    constructor
    · rintro (⟨never, fits⟩ | ⟨same, _⟩)
      · exact ⟨small, .inr ⟨fits, never⟩⟩
      · exact ⟨small, .inl same⟩
    · rintro ⟨_, same | ⟨fits, never⟩⟩
      · rw [same] at exact_
        exact .inr ⟨same, exact_⟩
      · exact .inl ⟨never, fits⟩
  · obtain ⟨⟨r, result, faulted⟩, inexact⟩ :=
      loop_wraps narrow low top h size short copies length ends small
    constructor
    · rintro (⟨_, fine⟩ | ⟨_, all⟩)
      · exact absurd faulted (by simp [fine r result])
      · exact absurd all (inexact _)
    · rintro ⟨all, _⟩
      exact absurd all small

theorem first_exact (narrow : ∀ x, Abi.int U x = int32 x) (h : Follows 0 0 v b)
    (empty : v.result = none) {a : Answer} (positive : 0 ≤ a.st_size)
    (ends : session (.readFile false path v) b (a :: rest) = some (.readFree w, b')) :
    FailsOrExact a.st_size (rounds (.readFile false path v) b (a :: rest)) w b' ↔
      InRange a.st_size (a :: rest) := by
  have range := int32_range a.st_size
  have turned := h.first_turn narrow path a
  unfold FailsOrExact InRange
  rcases session_step ends with ⟨g, b₁, turn, later⟩ | ⟨turn, rfl⟩
  · rw [turn] at turned
    rw [forall_rounds_again turn]
    cases turned with
    | again n w₁ chunk b₁ delivers brought copies long size follows =>
      have short := brought.chunk
      simp only [contentSize] at short
      have head : n < 2 ^ 31 := by omega
      rw [h.first_brings_exact narrow positive brought, handed_delivers delivers, if_neg (by simp)]
      by_cases room : 0 ≤ int32 a.st_size ∧ int32 a.st_size < 2 ^ 31 - 1
      · obtain ⟨low, top⟩ := room
        have loop := loop_failsOrExact narrow low top head follows size copies long later a.st_size
        have small : Small (⟨n, false⟩ :: handedLater (int32 a.st_size) n n rest) ↔
            Small (handedLater (int32 a.st_size) n n rest) := by
          unfold Small
          rw [List.forall_mem_cons]
          exact and_iff_right head
        simp only [top, and_true, loop, small]
        simp [low]
      · have strays := first_strays range room copies later
        constructor
        · rintro (⟨_, fine⟩ | ⟨⟨same, top⟩, _⟩)
          · exact absurd fine strays
          · exact absurd ⟨by omega, top⟩ room
        · rintro (none | ⟨low, top, _⟩)
          · cases none
          · exact absurd ⟨low, top⟩ room
  · rw [turn] at turned
    rw [forall_rounds_unlock turn]
    cases turned with
    | failed error fails =>
      have fine : ∀ r ∈ v.result, r.fault = false := by simp [empty]
      exact ⟨fun _ => .inl (handed_fails fails []), fun _ => .inl ⟨error, fine⟩⟩
    | done n w₁ chunk delivers brought copies long =>
      have short := brought.chunk
      simp only [contentSize] at short
      rw [h.first_brings_exact narrow positive brought]
      simp [handed_delivers delivers, brought.clear, Small]
      omega

end

/-- Sizes below 2³¹ − 32768 are in range, whatever the file does later. -/
theorem small_inRange {a : Answer} (positive : 0 ≤ a.st_size)
    (small : a.st_size < 2 ^ 31 - contentSize) (rest : List Answer) :
    InRange a.st_size (a :: rest) := by
  have kept : int32 a.st_size = a.st_size := by
    apply int32_eq <;> omega
  have sums : Small (handed (a :: rest)) := by
    apply handed_small
    rwa [kept]
  simp only [contentSize] at small
  exact .inr ⟨by omega, by omega, sums, .inl kept⟩

/-- **The arithmetic of `readFile` is exact** for a size from 0 on, or the read
fails, exactly if the first request fails, or the size is below 2³¹ − 1 and the
content handed out below 2³¹, or a larger size comes out of its conversion in
that range and the read is refused before it takes the result for the file. -/
theorem arithmetic_exact_iff (narrow : ∀ x, Abi.int U x = int32 x) (data : U) (path : Bytes)
    (bytesRead : Option Int) {a : Answer} {rest : List Answer} (positive : 0 ≤ a.st_size)
    {w : ReadLocals} {b' : MemBasedState U}
    (ends : session (Call.request (.readFile path bytesRead) (idleBlock data 0)).1
      (Call.request (.readFile path bytesRead) (idleBlock data 0)).2 (a :: rest) =
        some (.readFree w, b')) :
    FailsOrExact a.st_size (rounds (Call.request (.readFile path bytesRead) (idleBlock data 0)).1
      (Call.request (.readFile path bytesRead) (idleBlock data 0)).2 (a :: rest)) w b' ↔
      InRange a.st_size (a :: rest) :=
  first_exact narrow (request_follows path bytesRead data) rfl positive ends

end

/-- A file of 2³² + 5 bytes that is truncated before the looper opens it. -/
def truncated : Answer := { threeBytes with stat := .ok ⟨0o100644, 4294967301, 0⟩ }

theorem threeBytes_exact : ∃ w b',
    session (Call.request (.readFile [47] none) (idleBlock Member.zero 0)).1
      (Call.request (.readFile [47] none) (idleBlock Member.zero 0)).2 [threeBytes] =
        some (.readFree w, b') ∧
    FailsOrExact 3 (rounds (Call.request (.readFile [47] none) (idleBlock Member.zero 0)).1
      (Call.request (.readFile [47] none) (idleBlock Member.zero 0)).2 [threeBytes]) w b' := by
  refine ⟨_, _, rfl, ?_⟩
  have range : InRange threeBytes.st_size [threeBytes] := by
    refine .inr ⟨by decide, by decide, ?_, .inl (by decide)⟩
    unfold Small
    decide
  exact (arithmetic_exact_iff (fun _ => rfl) Member.zero [47] none (by decide) rfl).mpr range

/-- The truncated file is read with success, as one of a promised size of 5. -/
theorem truncated_inexact : ¬ ∀ (data : Member) (path : Bytes) (bytesRead : Option Int) (a : Answer)
    (rest : List Answer), 0 ≤ a.st_size → ∀ w b',
      session (Call.request (.readFile path bytesRead) (idleBlock data 0)).1
        (Call.request (.readFile path bytesRead) (idleBlock data 0)).2 (a :: rest) =
          some (.readFree w, b') →
      FailsOrExact a.st_size (rounds (Call.request (.readFile path bytesRead) (idleBlock data 0)).1
        (Call.request (.readFile path bytesRead) (idleBlock data 0)).2 (a :: rest)) w b' := by
  intro exact_
  rcases exact_ Member.zero [47] none truncated [] (by decide) _ _ rfl with ⟨error, _⟩ | all
  · exact error rfl
  · have size := (all _ List.mem_cons_self ⟨0, 3, 5⟩ (show _ = _ by decide)).totalSize
    exact absurd size (by decide)

end Xposed.Membased
