import Xposed.Membased.Chunks

/-!
# The bounds of `readFile`'s copies

What the looper hands out to a read is counted here without any bound, from its
answers alone, and compared with what `readFile` does with its 32-bit sums.
-/

namespace Xposed.Membased

/-- A response that `readFile` looks into: all the content handed out by then,
and whether the read ends well with it. -/
structure Handed where
  sum : Nat
  ends : Bool
  deriving DecidableEq

/-- How many bytes an answer to a request at `offset` leaves in `content`, where
the request before left `last`, and the end-of-file flag; nothing if it leaves
an error. -/
def Answer.delivers (a : Answer) (offset : Int) (last : Nat) : Option (Nat × Bool) :=
  if (Request.readFile [] offset).error a = 0 then
    match seek a offset with
    | .ok => some (a.fread.data.length, a.fread.feof)
    | .fail _ _ => some (last, false)
  else none

/-- The responses in the loop, up to an error, the end of the file or one that
exceeds `total`. -/
def handedLater (total : Int) : Nat → Nat → List Answer → List Handed
  | _, _, [] => []
  | sum, last, a :: rest =>
    match a.delivers sum last with
    | none => []
    | some (n, eof) =>
      ⟨sum + n, eof && decide ((sum + n : Nat) ≤ total)⟩ ::
        if eof || decide (total < (sum + n : Nat)) then [] else handedLater total (sum + n) n rest

/-- The responses of a read. The first one is not checked against the size. -/
def handed : List Answer → List Handed
  | [] => []
  | a :: rest =>
    match a.delivers 0 0 with
    | none => []
    | some (n, eof) =>
      ⟨n, eof⟩ :: if eof then [] else handedLater (int32 a.st_size) n n rest

/-- The first chunk is no longer than the `int` that `totalSize` becomes. -/
def Sized (answers : List Answer) : Prop :=
  ∀ a ∈ answers.head?, ∀ h ∈ (handed answers).head?, (h.sum : Int) ≤ int32 a.st_size

/-- The content handed out stays below 2³¹ bytes. -/
def Small (handed : List Handed) : Prop := ∀ h ∈ handed, h.sum < 2 ^ 31

theorem handedLater_fails {a : Answer} {sum last : Nat} (fails : a.delivers sum last = none)
    (total : Int) (rest : List Answer) : handedLater total sum last (a :: rest) = [] := by
  simp [handedLater, fails]

/-- The first response of them is small. -/
theorem Small.first {total : Int} {a : Answer} {sum last n : Nat} {eof : Bool} {rest : List Answer}
    (small : Small (handedLater total sum last (a :: rest)))
    (delivers : a.delivers sum last = some (n, eof)) : sum + n < 2 ^ 31 := by
  rw [handedLater, delivers] at small
  exact small _ List.mem_cons_self

theorem handedLater_exceeds {total : Int} {a : Answer} {sum last n : Nat} {eof : Bool}
    (delivers : a.delivers sum last = some (n, eof)) (exceeds : total < (sum + n : Nat))
    (rest : List Answer) : handedLater total sum last (a :: rest) = [⟨sum + n, false⟩] := by
  have not : ¬ ((sum + n : Nat) : Int) ≤ total := by omega
  simp only [handedLater, delivers, exceeds, not, decide_true, decide_false, Bool.and_false,
    Bool.or_true, if_true]

theorem handedLater_ends {total : Int} {a : Answer} {sum last n : Nat}
    (delivers : a.delivers sum last = some (n, true)) (fits : ((sum + n : Nat) : Int) ≤ total)
    (rest : List Answer) : handedLater total sum last (a :: rest) = [⟨sum + n, true⟩] := by
  simp only [handedLater, delivers, fits, decide_true, Bool.and_self, Bool.true_or, if_true]

theorem handedLater_goes_on {total : Int} {a : Answer} {sum last n : Nat}
    (delivers : a.delivers sum last = some (n, false)) (fits : ((sum + n : Nat) : Int) ≤ total)
    (rest : List Answer) : handedLater total sum last (a :: rest) =
      ⟨sum + n, false⟩ :: handedLater total (sum + n) n rest := by
  have more : (false || decide (total < (sum + n : Nat))) = false := by simpa using fits
  simp only [handedLater, delivers, more, Bool.false_and, Bool.false_eq_true, if_false]

theorem delivers_le {a : Answer} {offset : Int} {last n : Nat} {eof : Bool}
    (chunk : last ≤ contentSize) (delivers : a.delivers offset last = some (n, eof)) :
    n ≤ contentSize := by
  unfold Answer.delivers at delivers
  split at delivers
  · split at delivers
    · cases delivers
      exact a.fread.fits
    · cases delivers
      exact chunk
  · cases delivers

/-- The loop is left at most one chunk behind the promised size. -/
theorem handedLater_le {total : Int} {sum last : Nat} (chunk : last ≤ contentSize)
    (answers : List Answer) :
    ∀ h ∈ handedLater total sum last answers, (h.sum : Int) ≤ max total sum + contentSize := by
  induction answers generalizing sum last with
  | nil => simp [handedLater]
  | cons a rest ih =>
    cases delivers : a.delivers sum last with
    | none => simp [handedLater_fails delivers]
    | some answer =>
      obtain ⟨n, eof⟩ := answer
      have short := delivers_le chunk delivers
      by_cases fits : ((sum + n : Nat) : Int) ≤ total
      · cases eof with
        | true =>
          rw [handedLater_ends delivers fits, List.forall_mem_singleton]
          dsimp only
          omega
        | false =>
          rw [handedLater_goes_on delivers fits, List.forall_mem_cons]
          refine ⟨?_, fun h later => ?_⟩
          · dsimp only
            omega
          · have := ih short h later
            omega
      · rw [handedLater_exceeds delivers (by omega), List.forall_mem_singleton]
        dsimp only
        omega

section
variable {U : Type} [Abi U]

/-- The arguments of a `memcpy` into the buffer, and the size it was made for. -/
structure Copy where
  offset : Int
  bytesRead : Int
  totalSize : Int
  deriving DecidableEq

/-- What a response without an error brings to copy. -/
def Round.brings (r : Round U) : Option Copy :=
  if r.block.error ≠ 0 then none
  else
    match r.frame with
    | .readFile false _ _ =>
      some ⟨0, (Abi.readFile r.block.data).bytesRead, (Abi.readFile r.block.data).totalSize⟩
    | .readFile true _ v => some ⟨v.offset, (Abi.readFile r.block.data).bytesRead, v.totalSize⟩
    | _ => none

/-- The `memcpy` of a round, which the overflow check may keep from happening. -/
def Round.memcpy (r : Round U) : Option Copy := if r.grew then none else r.brings

/-- A round's copy stays inside the `totalSize` bytes, and a chunk that would
not makes the call return `NULL` with `EBUSY`. -/
structure Contained (r : Round U) : Prop where
  inside : ∀ c ∈ r.memcpy, c.offset + c.bytesRead ≤ c.totalSize
  refused : ∀ c ∈ r.brings, c.totalSize < c.offset + c.bytesRead → ∃ u b' n,
    r.frame.resume r.block = .unlock u b' ∧ u.finish b' = .readFile none EBUSY n

/-- A chunk that is not copied is refused. -/
theorem contained_iff (r : Round U) :
    Contained r ↔ ∀ c ∈ r.memcpy, c.offset + c.bytesRead ≤ c.totalSize := by
  refine ⟨Contained.inside, fun inside => ⟨inside, fun c brings exceeds => ?_⟩⟩
  have grew : r.grew = true := by
    by_contra small
    have := inside c (by simpa [Round.memcpy, small] using brings)
    omega
  obtain ⟨frame, answer, block⟩ := r
  cases frame with
  | accessFile path mode => simp [Round.grew] at grew
  | statFile path => simp [Round.grew] at grew
  | readFile looping path v =>
    cases looping with
    | false => simp [Round.grew] at grew
    | true =>
      simp only [Round.grew, Bool.and_eq_true, beq_iff_eq] at grew
      refine ⟨.readFree v, makeIdle { block with error := EBUSY }, v.bytesRead, ?_, rfl⟩
      simp [Frame.resume, readFileLoop, grew.1, grew.2]

theorem forall_rounds_again {P : Round U → Prop} {f g : Frame} {b b' : MemBasedState U} {a : Answer}
    (turn : f.resume (respond a b) = .again g b') (rest : List Answer) :
    (∀ r ∈ rounds f b (a :: rest), P r) ↔ P ⟨f, a, respond a b⟩ ∧ ∀ r ∈ rounds g b' rest, P r := by
  rw [rounds, turn, List.forall_mem_cons]

theorem forall_rounds_unlock {P : Round U → Prop} {f : Frame} {u : Unlocked} {b b' : MemBasedState U}
    {a : Answer} (turn : f.resume (respond a b) = .unlock u b') (rest : List Answer) :
    (∀ r ∈ rounds f b (a :: rest), P r) ↔ P ⟨f, a, respond a b⟩ := by
  simp [rounds, turn]

/-- `readFile` and the member before a request, with `sum` bytes handed out, the
last `last` of them by the request before. -/
structure Follows (sum last : Nat) (v : ReadLocals) (b : MemBasedState U) : Prop where
  asks : Asks b
  offset : v.offset = sum
  member : (Abi.readFile b.data).offset = sum
  eof : 0 < sum → (Abi.readFile b.data).eof = false
  bytesRead : 0 < sum → (Abi.readFile b.data).bytesRead = last
  content : 0 < sum → last ≤ (Abi.readFile b.data).content.length
  chunk : 0 < sum → last ≤ contentSize

/-- What a response of `n` bytes leaves in the member. -/
structure Brought (n : Nat) (eof : Bool) (b : MemBasedState U) : Prop where
  clear : b.error = 0
  bytesRead : (Abi.readFile b.data).bytesRead = n
  eof : (Abi.readFile b.data).eof = eof
  content : n ≤ (Abi.readFile b.data).content.length
  chunk : n ≤ contentSize

/-- What `memcpy` takes of it. -/
theorem Brought.length {n : Nat} {eof : Bool} {b : MemBasedState U} (brought : Brought n eof b) :
    ((Abi.readFile b.data).content.take (Abi.readFile b.data).bytesRead.toNat).length = n := by
  have := brought.content
  rw [brought.bytesRead, Int.toNat_natCast, List.length_take]
  omega

section
variable {sum last : Nat} {v : ReadLocals} {b : MemBasedState U}

/-- The two outcomes of a request. -/
theorem Follows.answered (narrow : ∀ x, Abi.int U x = int32 x) (h : Follows sum last v b)
    (a : Answer) : ((respond a b).error ≠ 0 ∧ a.delivers sum last = none) ∨
      ∃ n eof, a.delivers sum last = some (n, eof) ∧ Brought n eof (respond a b) := by
  have error : (respond a b).error = (Request.readFile [] sum).error a := by
    have same := respond_asks h.asks a
    rw [h.member] at same
    exact same
  by_cases clear : (respond a b).error = 0
  · have fine : (Request.readFile [] sum).error a = 0 := error.symm.trans clear
    have chunk := respond_chunk h.asks clear
    refine .inr ?_
    generalize member : Abi.readFile (respond a b).data = d at chunk
    cases chunk with
    | fresh seeks _ =>
      have short := a.fread.fits
      rw [h.member] at seeks
      have word : Abi.int U a.fread.data.length = a.fread.data.length := by
        rw [narrow]
        simp only [contentSize] at short
        apply int32_eq <;> omega
      refine ⟨a.fread.data.length, a.fread.feof, by simp [Answer.delivers, fine, seeks], clear, ?_,
        ?_, ?_, short⟩
      · rw [member]
        exact word
      · rw [member]
      · rw [member]
        simp
    | stale e fails =>
      rw [h.member] at fails
      have positive : 0 < sum := by
        apply Nat.pos_of_ne_zero
        intro zero
        subst zero
        rw [Int.natCast_zero, seek_zero] at fails
        cases fails
      refine ⟨last, false, by simp [Answer.delivers, fine, fails], clear, ?_, ?_, ?_,
        h.chunk positive⟩
      · rw [member]
        exact h.bytesRead positive
      · rw [member]
        exact h.eof positive
      · rw [member]
        exact h.content positive
  · refine .inl ⟨clear, ?_⟩
    rw [error] at clear
    simp [Answer.delivers, clear]

/-- The next request, as long as the sum fits into an `int`. -/
theorem Follows.next (narrow : ∀ x, Abi.int U x = int32 x) {b₁ b' : MemBasedState U} {n : Nat}
    {w : ReadLocals} (h : Follows sum last v b) (brought : Brought n false b₁)
    (small : sum + n < 2 ^ 31) (asks : Asks b')
    (offset : w.offset = Abi.int U (v.offset + (Abi.readFile b₁.data).bytesRead))
    (member : Abi.readFile b'.data = { Abi.readFile b₁.data with offset := w.offset }) :
    Follows (sum + n) n w b' := by
  have at_ : w.offset = (sum + n : Nat) := by
    rw [offset, h.offset, brought.bytesRead, narrow, Int.natCast_add]
    apply int32_eq <;> omega
  refine ⟨asks, at_, ?_, ?_, ?_, ?_, fun _ => brought.chunk⟩
  · rw [member]
    exact at_
  · intro _
    rw [member]
    exact brought.eof
  · intro _
    rw [member]
    exact brought.bytesRead
  · intro _
    rw [member]
    exact brought.content

/-- The sum `readFile` computes at a response. -/
theorem Follows.added (narrow : ∀ x, Abi.int U x = int32 x) {b₁ : MemBasedState U} {n : Nat}
    {eof : Bool} (h : Follows sum last v b) (brought : Brought n eof b₁) :
    Abi.int U (v.offset + (Abi.readFile b₁.data).bytesRead) = int32 (sum + n) := by
  rw [narrow, h.offset, brought.bytesRead]

/-- What `readFile`'s loop does with an answer. A chunk is copied where it fits,
and where the sum has gone negative. -/
inductive LoopTurn (total : Int) (sum last : Nat) (path : Bytes) (v : ReadLocals)
    (b : MemBasedState U) (a : Answer) : Turn U → Prop where
  | failed (error : (respond a b).error ≠ 0) (fails : a.delivers sum last = none) :
      LoopTurn total sum last path v b a (.unlock (.readFree v) (makeIdle (respond a b)))
  | grew (n : Nat) (eof : Bool) (delivers : a.delivers sum last = some (n, eof))
      (brought : Brought n eof (respond a b)) (small : sum + n < 2 ^ 31)
      (exceeds : total < (sum + n : Nat))
      (seen : Round.grew ⟨.readFile true path v, a, respond a b⟩ = true) :
      LoopTurn total sum last path v b a
        (.unlock (.readFree v) (makeIdle { respond a b with error := EBUSY }))
  | done (n : Nat) (w : ReadLocals) (chunk : Bytes) (delivers : a.delivers sum last = some (n, true))
      (brought : Brought n true (respond a b))
      (accepted : ((sum + n : Nat) : Int) ≤ total ∨ 2 ^ 31 ≤ sum + n)
      (unseen : Round.grew ⟨.readFile true path v, a, respond a b⟩ = false)
      (copies : w.result = v.result.map fun r => r.store sum chunk) (length : chunk.length = n) :
      LoopTurn total sum last path v b a (.unlock (.readFree w) (makeIdle (respond a b)))
  | again (n : Nat) (w : ReadLocals) (chunk : Bytes) (b' : MemBasedState U)
      (delivers : a.delivers sum last = some (n, false)) (brought : Brought n false (respond a b))
      (accepted : ((sum + n : Nat) : Int) ≤ total ∨ 2 ^ 31 ≤ sum + n)
      (unseen : Round.grew ⟨.readFile true path v, a, respond a b⟩ = false)
      (copies : w.result = v.result.map fun r => r.store sum chunk) (length : chunk.length = n)
      (size : w.totalSize = total)
      (follows : sum + n < 2 ^ 31 → Follows (sum + n) n w b') :
      LoopTurn total sum last path v b a (.again (.readFile true path w) b')

theorem Follows.turn (narrow : ∀ x, Abi.int U x = int32 x) (h : Follows sum last v b)
    {total : Int} (low : 0 ≤ total) (high : total < 2 ^ 31) (size : v.totalSize = total)
    (below : sum < 2 ^ 31) (path : Bytes) (a : Answer) :
    LoopTurn total sum last path v b a ((Frame.readFile true path v).resume (respond a b)) := by
  have turned := resume_turned true path v (respond a b)
  generalize (Frame.readFile true path v).resume (respond a b) = turn at turned ⊢
  rcases h.answered narrow a with ⟨error, fails⟩ | ⟨n, eof, delivers, brought⟩
  · rw [turned.of_error error]
    exact .failed error fails
  · have added := h.added narrow brought
    have short := brought.chunk
    simp only [contentSize] at short
    have exactly : sum + n < 2 ^ 31 → int32 (sum + n) = sum + n := by
      intro small
      apply int32_eq <;> omega
    have accepts : int32 (sum + n) ≤ total →
        ((sum + n : Nat) : Int) ≤ total ∨ 2 ^ 31 ≤ sum + n := by
      intro fits
      rcases Nat.lt_or_ge (sum + n) (2 ^ 31) with small | wraps
      · rw [exactly small] at fits
        exact .inl (by omega)
      · exact .inr wraps
    have unseen : int32 (sum + n) ≤ total →
        Round.grew ⟨.readFile true path v, a, respond a b⟩ = false := by
      intro fits
      simpa [Round.grew, brought.clear, detectsGrowth, added, size] using fits
    have length := brought.length
    cases turned with
    | failed error => exact absurd brought.clear error
    | grew _ _ grows =>
      rw [added, size] at grows
      have small : sum + n < 2 ^ 31 := by
        by_contra wraps
        have := int32_above (x := sum + n) (by omega) (by omega)
        omega
      rw [exactly small] at grows
      refine .grew n eof delivers brought small (by omega) ?_
      simpa [Round.grew, brought.clear, detectsGrowth, added, size, exactly small] using grows
    | done _ fits ends =>
      obtain rfl : eof = true := brought.eof.symm.trans ends
      have fits := fits rfl
      rw [added, size] at fits
      refine .done n _ _ delivers brought (accepts fits) (unseen fits) ?_ length
      simp [copied, copyChunk, h.offset]
    | again b' _ fits more asks member =>
      obtain rfl : eof = false := brought.eof.symm.trans more
      have fits := fits rfl
      rw [added, size] at fits
      refine .again n _ _ b' delivers brought (accepts fits) (unseen fits) ?_ length size ?_
      · simp [copied, copyChunk, h.offset]
      · intro small
        exact h.next narrow brought small asks rfl member

/-- What a response in the loop brings to copy. -/
theorem Follows.brings (h : Follows sum last v b) {n : Nat} {eof : Bool} {path : Bytes} {a : Answer}
    (brought : Brought n eof (respond a b)) :
    Round.brings ⟨.readFile true path v, a, respond a b⟩ = some ⟨sum, n, v.totalSize⟩ := by
  simp [Round.brings, brought.clear, h.offset, brought.bytesRead]

/-- Each copy in the loop stays inside exactly as long as the sums do not wrap. -/
theorem loop_contained (narrow : ∀ x, Abi.int U x = int32 x) {total : Int} (low : 0 ≤ total)
    (high : total < 2 ^ 31) (path : Bytes) (answers : List Answer) (h : Follows sum last v b)
    (size : v.totalSize = total) (below : sum < 2 ^ 31) :
    (∀ r ∈ rounds (.readFile true path v) b answers, Contained r) ↔
      Small (handedLater total sum last answers) := by
  induction answers generalizing sum last v b with
  | nil => simp [rounds, handedLater, Small]
  | cons a rest ih =>
    have turned := h.turn narrow low high size below path a
    generalize turn : (Frame.readFile true path v).resume (respond a b) = t at turned
    cases turned with
    | failed error fails =>
      rw [forall_rounds_unlock turn, contained_iff, handedLater_fails fails]
      simp [Round.memcpy, Round.brings, error, Small]
    | grew n eof delivers brought small exceeds seen =>
      rw [forall_rounds_unlock turn, contained_iff, handedLater_exceeds delivers exceeds]
      have kept : Small [⟨sum + n, false⟩] := by simpa [Small] using small
      simp [Round.memcpy, seen, kept]
    | done n w chunk delivers brought accepted unseen =>
      rw [forall_rounds_unlock turn, contained_iff]
      rcases accepted with fits | wraps
      · rw [handedLater_ends delivers fits]
        simp [Round.memcpy, unseen, h.brings brought, size, Small]
        omega
      · rw [handedLater_exceeds delivers (by omega)]
        simp [Round.memcpy, unseen, h.brings brought, size, Small]
        omega
    | again n w chunk b' delivers brought accepted unseen _ _ size' follows =>
      rw [forall_rounds_again turn, contained_iff]
      have copies : Round.memcpy ⟨.readFile true path v, a, respond a b⟩ = some ⟨sum, n, total⟩ := by
        simp [Round.memcpy, unseen, h.brings brought, size]
      rw [copies]
      rcases accepted with fits | wraps
      · rw [handedLater_goes_on delivers fits]
        have small : sum + n < 2 ^ 31 := by omega
        have later := ih (follows small) size' small
        constructor
        · rintro ⟨_, inside⟩
          exact List.forall_mem_cons.mpr ⟨small, later.mp inside⟩
        · intro all
          refine ⟨?_, later.mpr (List.forall_mem_cons.mp all).2⟩
          rintro c ⟨⟩
          simpa using fits
      · -- the copy that the negative sum lets through
        refine iff_of_false (fun both => ?_) fun small => ?_
        · have inside := both.1 _ rfl
          dsimp only at inside
          omega
        · have := small.first delivers
          omega

end

/-- A read before its first request. -/
theorem request_follows (path : Bytes) (bytesRead : Option Int) (data : U) :
    Follows 0 0 ⟨none, 0, 0, bytesRead.map fun _ => 0⟩
      (Call.request (.readFile path bytesRead) (idleBlock data 0)).2 := by
  refine ⟨⟨rfl, rfl⟩, rfl, by simp [Call.request, callService], ?_, ?_, ?_, ?_⟩
  all_goals
    intro positive
    omega

/-- The buffer with the first chunk. -/
def firstBlock (total : Int) (chunk : Bytes) : HeapBlock :=
  ((HeapBlock.malloc (int32 (total + 1))).store total [0]).store 0 chunk

/-- What `readFile` does with the answer to its first request. -/
inductive FirstTurn (path : Bytes) (v : ReadLocals) (b : MemBasedState U) (a : Answer) :
    Turn U → Prop where
  | failed (error : (respond a b).error ≠ 0) (fails : a.delivers 0 0 = none) :
      FirstTurn path v b a (.unlock (.readFree v) (makeIdle (respond a b)))
  | done (n : Nat) (w : ReadLocals) (chunk : Bytes) (delivers : a.delivers 0 0 = some (n, true))
      (brought : Brought n true (respond a b))
      (copies : w.result = some (firstBlock (int32 a.st_size) chunk)) (length : chunk.length = n) :
      FirstTurn path v b a (.unlock (.readFree w) (makeIdle (respond a b)))
  | again (n : Nat) (w : ReadLocals) (chunk : Bytes) (b' : MemBasedState U)
      (delivers : a.delivers 0 0 = some (n, false)) (brought : Brought n false (respond a b))
      (copies : w.result = some (firstBlock (int32 a.st_size) chunk)) (length : chunk.length = n)
      (size : w.totalSize = int32 a.st_size) (follows : Follows n n w b') :
      FirstTurn path v b a (.again (.readFile true path w) b')

section
variable {v : ReadLocals} {b : MemBasedState U} {a : Answer}

theorem Follows.first_turn (narrow : ∀ x, Abi.int U x = int32 x) (h : Follows 0 0 v b)
    (path : Bytes) (a : Answer) :
    FirstTurn path v b a ((Frame.readFile false path v).resume (respond a b)) := by
  have turned := resume_turned false path v (respond a b)
  generalize (Frame.readFile false path v).resume (respond a b) = turn at turned ⊢
  rcases h.answered narrow a with ⟨error, fails⟩ | ⟨n, eof, delivers, brought⟩
  · rw [turned.of_error error]
    exact .failed error fails
  · have size : (Abi.readFile (respond a b).data).totalSize = int32 a.st_size := by
      rw [chunk_totalSize h.asks brought.clear, narrow]
    have length := brought.length
    cases turned with
    | failed error => exact absurd brought.clear error
    | grew _ loop => cases loop
    | done _ _ ends =>
      obtain rfl : eof = true := brought.eof.symm.trans ends
      refine .done n _ _ delivers brought ?_ length
      simp [copied, copyChunk, firstBlock, size, narrow]
    | again b' _ _ more asks member =>
      obtain rfl : eof = false := brought.eof.symm.trans more
      have short := brought.chunk
      simp only [contentSize] at short
      refine .again n _ _ b' delivers brought ?_ length size ?_
      · simp [copied, copyChunk, firstBlock, size, narrow]
      · have added : ∀ w, Follows (0 + n) n w b' → Follows n n w b' := by
          intro w follows
          rwa [Nat.zero_add] at follows
        exact added _ (h.next narrow brought (by omega) asks rfl member)

/-- What the first response brings to copy. -/
theorem Follows.first_brings (narrow : ∀ x, Abi.int U x = int32 x) (h : Follows 0 0 v b) {n : Nat}
    {eof : Bool} {path : Bytes} (brought : Brought n eof (respond a b)) :
    Round.brings ⟨.readFile false path v, a, respond a b⟩ = some ⟨0, n, int32 a.st_size⟩ := by
  have size := chunk_totalSize h.asks brought.clear
  rw [narrow] at size
  simp [Round.brings, brought.clear, brought.bytesRead, size]

end

theorem handed_fails {a : Answer} (fails : a.delivers 0 0 = none) (rest : List Answer) :
    handed (a :: rest) = [] := by
  simp [handed, fails]

theorem handed_delivers {a : Answer} {n : Nat} {eof : Bool} (delivers : a.delivers 0 0 = some (n, eof))
    (rest : List Answer) : handed (a :: rest) =
      ⟨n, eof⟩ :: if eof then [] else handedLater (int32 a.st_size) n n rest := by
  simp [handed, delivers]

theorem first_contained (narrow : ∀ x, Abi.int U x = int32 x) {v : ReadLocals}
    {b : MemBasedState U} (h : Follows 0 0 v b) (path : Bytes) (answers : List Answer) :
    (∀ r ∈ rounds (.readFile false path v) b answers, Contained r) ↔
      Sized answers ∧ Small (handed answers) := by
  cases answers with
  | nil => simp [rounds, Sized, Small, handed]
  | cons a rest =>
    have turned := h.first_turn narrow path a
    have high := (int32_range a.st_size).2
    generalize turn : (Frame.readFile false path v).resume (respond a b) = t at turned
    cases turned with
    | failed error fails =>
      rw [forall_rounds_unlock turn, contained_iff]
      simp [Round.memcpy, Round.grew, Round.brings, error, Sized, Small, handed_fails fails]
    | done n w chunk delivers brought =>
      rw [forall_rounds_unlock turn, contained_iff, handed_delivers delivers]
      have := brought.chunk
      simp only [contentSize] at this
      simp [Round.memcpy, Round.grew, h.first_brings narrow brought, Sized, Small,
        handed_delivers delivers]
      omega
    | again n w chunk b' delivers brought _ _ size follows =>
      have copies : Round.memcpy ⟨.readFile false path v, a, respond a b⟩ =
          some ⟨0, n, int32 a.st_size⟩ := by
        simp [Round.memcpy, Round.grew, h.first_brings narrow brought]
      have sized : Sized (a :: rest) ↔ (n : Int) ≤ int32 a.st_size := by
        simp [Sized, handed_delivers delivers]
      rw [forall_rounds_again turn, contained_iff, copies, sized, handed_delivers delivers,
        if_neg (by simp)]
      constructor
      · rintro ⟨inside, later⟩
        have fits : (n : Int) ≤ int32 a.st_size := by simpa using inside _ rfl
        have small : n < 2 ^ 31 := by omega
        refine ⟨fits, List.forall_mem_cons.mpr ⟨small, ?_⟩⟩
        exact (loop_contained narrow (by omega) high path rest follows size small).mp later
      · rintro ⟨fits, all⟩
        obtain ⟨small, later⟩ := List.forall_mem_cons.mp all
        refine ⟨?_, ?_⟩
        · rintro c ⟨⟩
          simpa using fits
        · exact (loop_contained narrow (by omega) high path rest follows size small).mpr later

/-- No sum wraps in a read of less than 2³¹ − 32768 bytes. -/
theorem handed_small {a : Answer} {rest : List Answer}
    (size : int32 a.st_size < 2 ^ 31 - contentSize) : Small (handed (a :: rest)) := by
  cases delivers : a.delivers 0 0 with
  | none => simp [handed_fails delivers, Small]
  | some answer =>
    obtain ⟨n, eof⟩ := answer
    have short := delivers_le (Nat.zero_le _) delivers
    simp only [contentSize] at short size
    rw [handed_delivers delivers, Small, List.forall_mem_cons]
    refine ⟨by dsimp only; omega, ?_⟩
    cases eof with
    | true => simp
    | false =>
      rw [if_neg (by simp)]
      intro h later
      have := handedLater_le short rest h later
      simp only [contentSize] at this
      omega

/-- **The copies of `readFile` stay inside its buffer** exactly if the first
chunk is no longer than the size given before it, as an `int`, and the content
handed out stays below 2³¹ bytes. The first chunk is copied unchecked. -/
theorem copies_contained_iff (narrow : ∀ x, Abi.int U x = int32 x) (data : U) (path : Bytes)
    (bytesRead : Option Int) (answers : List Answer) :
    let opened := Call.request (.readFile path bytesRead) (idleBlock data 0)
    (∀ r ∈ rounds opened.1 opened.2 answers, Contained r) ↔
      Sized answers ∧ Small (handed answers) :=
  first_contained narrow (request_follows path bytesRead data) path answers

end

/-- A file of three bytes, and one of `/proc` that has no size but content. -/
def threeBytes : Answer :=
  { (default : Answer) with
    stat := .ok ⟨0o100644, 3, 0⟩
    fread := ⟨[49, 50, 10], by decide, none, true⟩ }

def procFile : Answer :=
  { (default : Answer) with
    stat := .ok ⟨0o100444, 0, 0⟩
    fread := ⟨[49, 50, 51, 52, 10], by decide, none, true⟩ }

theorem threeBytes_contained :
    Call.run Member.zero (.readFile [47] none) [threeBytes] =
      some (.readFile (some ⟨[some 49, some 50, some 10, some 0], false⟩) 0 none) ∧
    ∀ r ∈ rounds (Call.request (.readFile [47] none) (idleBlock Member.zero 0)).1
      (Call.request (.readFile [47] none) (idleBlock Member.zero 0)).2 [threeBytes],
      Contained r := by
  refine ⟨by decide, ?_⟩
  apply (copies_contained_iff (fun _ => rfl) Member.zero [47] none [threeBytes]).mpr
  constructor
  · rintro a ⟨⟩ h ⟨⟩
    decide
  · unfold Small
    decide

/-- Five bytes go into the one that was allocated. -/
theorem procFile_overruns : ¬ ∀ (data : Member) (path : Bytes) (bytesRead : Option Int)
    (answers : List Answer), ∀ r ∈ rounds (Call.request (.readFile path bytesRead)
      (idleBlock data 0)).1 (Call.request (.readFile path bytesRead) (idleBlock data 0)).2 answers,
      Contained r := by
  intro contained
  have first := contained Member.zero [47] none [procFile] _ List.mem_cons_self
  have inside := first.inside ⟨0, 5, 0⟩ (show _ = _ by decide)
  exact absurd inside (by decide)

end Xposed.Membased
