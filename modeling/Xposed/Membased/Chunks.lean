import Xposed.Membased.Refinement

/-!
# The chunks of `readFile`

What one answer of the looper leaves of the member, and how a call ends against
a server that answers request after request: `readFile`'s loop ends whatever
happens to the file.
-/

namespace Xposed.Membased

/-- The size `stat` gave, and 0 where it failed. -/
def Answer.st_size (a : Answer) : Int :=
  match a.stat with
  | .ok st => st.st_size.toInt
  | .error _ => 0

/-- The first request does not seek. -/
theorem seek_zero (a : Answer) : seek a 0 = .ok := rfl

/-- What an answer without an error makes of the member. Where `fseek` fails
and leaves the stream's error indicator clear, the chunk before stays. -/
inductive Chunk (int : Int → Int) (a : Answer) (d : ReadFileData) : ReadFileData → Prop where
  | fresh (seeks : seek a d.offset = .ok) (fine : a.fread.failed = none) :
      Chunk int a d
        { d with
          totalSize := int a.st_size
          bytesRead := int a.fread.data.length
          content := a.fread.data ++ d.content.drop a.fread.data.length
          eof := a.fread.feof }
  | stale (e : Errno) (fails : seek a d.offset = .fail e 0) :
      Chunk int a d { d with totalSize := int a.st_size }

section
variable {U : Type} [Abi U]

theorem respond_asks {b : MemBasedState U} (asks : Asks b) (a : Answer) :
    (respond a b).error =
      (Request.readFile (Abi.readFile b.data).path (Abi.readFile b.data).offset).error a := by
  let v : ReadLocals := ⟨none, (Abi.readFile b.data).offset, 0, none⟩
  apply respond_error (f := .readFile true (Abi.readFile b.data).path v) a _ asks.clear
  simp [MemBasedState.request, asks.action, Frame.written, v]

theorem respond_chunk {b : MemBasedState U} (asks : Asks b) {a : Answer}
    (clear : (respond a b).error = 0) :
    Chunk (Abi.int U) a (Abi.readFile b.data) (Abi.readFile (respond a b).data) := by
  have serves : respond a b = { serveReadFile a b with state := .serverResponse } := by
    simp [respond, serve, asks.action]
  rw [serves] at clear ⊢
  cases hs : a.stat with
  | error e => simp [serveReadFile, hs, e.ne] at clear
  | ok st =>
    have size : st.st_size.toInt = a.st_size := by simp [Answer.st_size, hs]
    cases ho : a.fopen with
    | error e => simp [serveReadFile, hs, ho, e.ne] at clear
    | ok _ =>
      cases hk : seek a (Abi.readFile b.data).offset with
      | fail e ferror =>
        have quiet : ferror = 0 := by simpa [serveReadFile, hs, ho, hk] using clear
        subst quiet
        simpa [serveReadFile, hs, ho, hk, size] using Chunk.stale e hk
      | ok =>
        have quiet : a.fread.ferror = 0 := by simpa [serveReadFile, hs, ho, hk] using clear
        have fine : a.fread.failed = none := by
          cases hf : a.fread.failed with
          | none => rfl
          | some e => exact absurd quiet (by simpa [Fread.ferror, hf] using e.ne)
        simpa [serveReadFile, hs, ho, hk, size] using Chunk.fresh hk fine

/-! ## A call against a server -/

/-- The answers of a server that knows the number of each request and the
offset it asks for, up to the call's unlock. -/
def answersTo (server : Nat → Int → Answer) : Nat → Nat → Frame → MemBasedState U → List Answer
  | 0, _, _, _ => []
  | fuel + 1, k, f, b =>
    let a := server k (Abi.readFile b.data).offset
    a :: match f.resume (respond a b) with
      | .again f' b' => answersTo server fuel (k + 1) f' b'
      | .unlock _ _ => []

/-- What a server answers to a call that has it to itself, in at most `fuel`
requests. -/
def Call.answeredBy (data : U) (call : Call) (server : Nat → Int → Answer) (fuel : Nat) :
    List Answer :=
  let opened := call.request (idleBlock data 0)
  if call.tooLong then [] else answersTo server fuel 0 opened.1 opened.2

theorem answersTo_length (server : Nat → Int → Answer) (fuel k : Nat) (f : Frame)
    (b : MemBasedState U) : (answersTo server fuel k f b).length ≤ fuel := by
  induction fuel generalizing k f b with
  | zero => exact Nat.le_refl _
  | succ fuel ih =>
    unfold answersTo
    dsimp only
    split
    · rw [List.length_cons]
      exact Nat.succ_le_succ (ih _ _ _)
    · simp

theorem answeredBy_length (data : U) (call : Call) (server : Nat → Int → Answer) (fuel : Nat) :
    (call.answeredBy data server fuel).length ≤ fuel := by
  unfold Call.answeredBy
  dsimp only
  split
  · exact Nat.zero_le _
  · exact answersTo_length _ _ _ _ _

/-- The rule for a call against a server. An invariant each request keeps, and
which bounds the number of requests, brings the call to its unlock. -/
theorem answersTo_total {server : Nat → Int → Answer} {bound : Nat}
    {Inv : Nat → Frame → MemBasedState U → Prop} {Post : Unlocked → MemBasedState U → Prop}
    (bounded : ∀ k f b, Inv k f b → k < bound)
    (again : ∀ k f b f' b', Inv k f b →
      f.resume (respond (server k (Abi.readFile b.data).offset) b) = .again f' b' →
      Inv (k + 1) f' b')
    (unlock : ∀ k f b u b', Inv k f b →
      f.resume (respond (server k (Abi.readFile b.data).offset) b) = .unlock u b' → Post u b')
    {fuel k : Nat} {f : Frame} {b : MemBasedState U} (h : Inv k f b) (enough : bound ≤ k + fuel) :
    ∃ u b', session f b (answersTo server fuel k f b) = some (u, b') ∧ Post u b' := by
  induction fuel generalizing k f b with
  | zero =>
    have := bounded k f b h
    omega
  | succ fuel ih =>
    cases turn : f.resume (respond (server k (Abi.readFile b.data).offset) b) with
    | again f' b' =>
      obtain ⟨u, b'', ends, post⟩ := ih (again k f b f' b' h turn) (by omega)
      refine ⟨u, b'', ?_, post⟩
      simpa [answersTo, session, turn] using ends
    | unlock u b' =>
      refine ⟨u, b', ?_, unlock k f b u b' h turn⟩
      simp [answersTo, session, turn]

theorem run_answeredBy {data : U} {call : Call} {server : Nat → Int → Answer} {fuel : Nat}
    {u : Unlocked} {b' : MemBasedState U} (short : call.tooLong = false)
    (h : session (call.request (idleBlock data 0)).1 (call.request (idleBlock data 0)).2
      (answersTo server fuel 0 (call.request (idleBlock data 0)).1
        (call.request (idleBlock data 0)).2) = some (u, b')) :
    call.run data (call.answeredBy data server fuel) = some (u.finish b') := by
  have passes : call.refusal true = none := by simp [Call.refusal, short]
  simp [Call.run, passes, alone, Call.answeredBy, short, h]

/-! ## The loop ends -/

/-- `fread` gives a short count only at the end of the file or on an error. -/
def Answer.whole (a : Answer) : Prop :=
  a.fread.data.length < contentSize → a.fread.feof = true ∨ a.fread.failed ≠ none

/-- The `totalSize` of `readFile` behind the answer to its first request. -/
def Answer.totalSize (a : Answer) : Int :=
  if (Request.readFile [] 0).error a = 0 then a.st_size else 0

/-- `readFile` at its request number `k`. Each request before it left a full
chunk in the member, its own or the one it found there. -/
structure Full (size : Int) (k : Nat) (looping : Bool) (v : ReadLocals) (b : MemBasedState U) :
    Prop where
  asks : Asks b
  offset : v.offset = contentSize * k
  member : (Abi.readFile b.data).offset = v.offset
  loop : looping = true ↔ 0 < k
  eof : 0 < k → (Abi.readFile b.data).eof = false
  bytesRead : 0 < k → (Abi.readFile b.data).bytesRead = contentSize
  totalSize : 0 < k → v.totalSize = size
  room : 1 < k → (contentSize * k : Int) ≤ size

/-- An answer without an error and without an end of file leaves a full chunk. -/
theorem Full.chunk {size : Int} {k : Nat} {looping : Bool} {v : ReadLocals} {b : MemBasedState U}
    {a : Answer} (full : Full size k looping v b) (whole : a.whole)
    (word : Abi.int U contentSize = contentSize) (clear : (respond a b).error = 0)
    (more : (Abi.readFile (respond a b).data).eof = false) :
    (Abi.readFile (respond a b).data).bytesRead = contentSize := by
  have chunk := respond_chunk full.asks clear
  generalize Abi.readFile (respond a b).data = d at chunk more ⊢
  cases chunk with
  | fresh seeks fine =>
    have long : ¬ a.fread.data.length < contentSize := by
      intro short
      rcases whole short with eof | failed
      · exact absurd (eof.symm.trans more) (by decide)
      · exact failed fine
    have exactly : a.fread.data.length = contentSize := by
      have := a.fread.fits
      omega
    simpa [exactly] using word
  | stale e fails =>
    apply full.bytesRead
    apply Nat.pos_of_ne_zero
    intro zero
    subst zero
    have at_ : (Abi.readFile b.data).offset = 0 := by simpa [full.offset] using full.member
    rw [at_, seek_zero] at fails
    cases fails

/-- An `int` holds all numbers from 0 on up to a chunk behind `size`. -/
def Precise (U : Type) [Abi U] (size : Int) : Prop :=
  ∀ x, 0 ≤ x → x ≤ max size contentSize + contentSize → Abi.int U x = x

theorem Precise.length {size : Int} (precise : Precise U size) (a : Answer) :
    Abi.int U a.fread.data.length = a.fread.data.length := by
  have short := a.fread.fits
  apply precise <;> omega

theorem chunk_totalSize {b : MemBasedState U} (asks : Asks b) {a : Answer}
    (clear : (respond a b).error = 0) :
    (Abi.readFile (respond a b).data).totalSize = Abi.int U a.st_size := by
  have chunk := respond_chunk asks clear
  generalize Abi.readFile (respond a b).data = d at chunk ⊢
  cases chunk <;> rfl

/-- The next request finds one more full chunk, within the size promised first. -/
theorem Full.next {size : Int} {k : Nat} {looping : Bool} {v : ReadLocals}
    {b b' : MemBasedState U} {a : Answer} (full : Full size k looping v b) (whole : a.whole)
    (precise : Precise U size)
    (clear : (respond a b).error = 0) (first : k = 0 → size = Abi.int U a.st_size)
    (fits : looping = true →
      Abi.int U (v.offset + (Abi.readFile (respond a b).data).bytesRead) ≤ v.totalSize)
    (more : (Abi.readFile (respond a b).data).eof = false) (asks : Asks b')
    (member : Abi.readFile b'.data = { Abi.readFile (respond a b).data with
      offset := Abi.int U (v.offset + (Abi.readFile (respond a b).data).bytesRead) }) :
    Full size (k + 1) true
      { copied (Abi.int U) looping v (Abi.readFile (respond a b).data) with
        offset := Abi.int U (v.offset + (Abi.readFile (respond a b).data).bytesRead) } b' := by
  have word : Abi.int U contentSize = contentSize := by
    apply precise <;> omega
  have chunk := full.chunk whole word clear more
  have room : 0 < k → (contentSize * k : Int) ≤ max size contentSize := by
    intro positive
    by_cases one : k = 1
    · subst one
      omega
    · have := full.room (by omega)
      omega
  have sum : Abi.int U (v.offset + (Abi.readFile (respond a b).data).bytesRead) =
      contentSize * ((k + 1 : Nat) : Int) := by
    have exactly : (contentSize * (k + 1 : Nat) : Int) = contentSize * k + contentSize := by
      rw [Int.natCast_add, Int.natCast_one, Int.mul_add, Int.mul_one]
    have nonneg : (0 : Int) ≤ contentSize * k := Int.mul_nonneg (by omega) (by omega)
    rw [full.offset, chunk, exactly]
    apply precise
    · omega
    · by_cases zero : k = 0
      · subst zero
        omega
      · have := room (by omega)
        omega
  have taken : (copied (Abi.int U) looping v (Abi.readFile (respond a b).data)).totalSize =
      size := by
    cases looping with
    | false =>
      have zero : k = 0 := by simpa using full.loop
      exact (chunk_totalSize full.asks clear).trans (first zero).symm
    | true => exact full.totalSize (full.loop.mp rfl)
  refine ⟨asks, sum, by rw [member], by simp, ?_, ?_, fun _ => taken, ?_⟩
  · intro _
    rw [member]
    exact more
  · intro _
    rw [member]
    exact chunk
  · intro many
    have positive : 0 < k := by omega
    have below := fits (full.loop.mpr positive)
    rw [sum, full.totalSize positive] at below
    exact below

theorem Full.bounded {size : Int} {k : Nat} {looping : Bool} {v : ReadLocals}
    {b : MemBasedState U} (full : Full size k looping v b) :
    k < size.toNat / contentSize + 2 := by
  have room := full.room
  simp only [contentSize] at room ⊢
  omega

theorem request_full (size : Int) (path : Bytes) (bytesRead : Option Int) (data : U) :
    Full size 0 false ⟨none, 0, 0, bytesRead.map fun _ => 0⟩
      (Call.request (.readFile path bytesRead) (idleBlock data 0)).2 := by
  refine ⟨⟨rfl, rfl⟩, ?_, ?_, ?_, ?_, ?_, ?_, ?_⟩
  all_goals simp [Call.request, callService]

/-- **The chunk loop ends** whatever happens to the file and whatever the
looper's libc calls give, a stale chunk included, if `fread` gives short counts
only at an end of file or on an error and no `int` overflows. -/
theorem chunk_loop_ends (unbounded : ∀ x, Abi.int U x = x) (data : U) (path : Bytes)
    (bytesRead : Option Int) {server : Nat → Int → Answer}
    (whole : ∀ k offset, (server k offset).whole) :
    let call : Call := .readFile path bytesRead
    let requests := (server 0 0).totalSize.toNat / contentSize + 2
    (call.answeredBy data server requests).length ≤ requests ∧
      ∃ out, call.run data (call.answeredBy data server requests) = some out := by
  intro call requests
  refine ⟨answeredBy_length _ _ _ _, ?_⟩
  cases short : call.tooLong with
  | true =>
    refine ⟨.readFile none ENAMETOOLONG (bytesRead.map fun _ => 0), ?_⟩
    simp [Call.run, Call.answeredBy, Call.refusal, short, call]
  | false =>
    let size := (server 0 0).totalSize
    let Inv : Nat → Frame → MemBasedState U → Prop := fun k f b =>
      ∃ looping v, f = .readFile looping path v ∧ Full size k looping v b
    have opened : Inv 0 (call.request (idleBlock data 0)).1 (call.request (idleBlock data 0)).2 :=
      ⟨_, _, rfl, request_full size path bytesRead data⟩
    have bounded : ∀ k f b, Inv k f b → k < requests := by
      rintro k f b ⟨looping, v, rfl, full⟩
      exact full.bounded
    have again : ∀ k f b f' b', Inv k f b →
        f.resume (respond (server k (Abi.readFile b.data).offset) b) = .again f' b' →
        Inv (k + 1) f' b' := by
      rintro k f b f' b' ⟨looping, v, rfl, full⟩ turn
      have turned := turn ▸ resume_turned looping path v
        (respond (server k (Abi.readFile b.data).offset) b)
      cases turned with
      | again b' clear fits more asks member =>
        refine ⟨_, _, rfl, full.next (whole _ _) (fun x _ _ => unbounded x) clear ?_ fits more asks
          member⟩
        intro zero
        subst zero
        have at_ : (Abi.readFile b.data).offset = 0 := by simpa [full.offset] using full.member
        rw [at_] at clear ⊢
        have fine : (Request.readFile [] 0).error (server 0 0) = 0 := by
          have same := respond_asks full.asks (server 0 0)
          rw [at_] at same
          exact same.symm.trans clear
        simp [size, Answer.totalSize, fine, unbounded]
    have unlock : ∀ k f b u b', Inv k f b →
        f.resume (respond (server k (Abi.readFile b.data).offset) b) = .unlock u b' → True := by
      intros
      trivial
    obtain ⟨u, b', ends, _⟩ := answersTo_total bounded again unlock opened (Nat.le_add_left _ _)
    exact ⟨_, run_answeredBy short ends⟩

end

/-- The block where an `int` has no bounds. -/
structure Unbounded where
  member : Member

instance : Abi Unbounded where
  accessFile u := Abi.accessFile u.member
  setAccessFile d u := ⟨Abi.setAccessFile d u.member⟩
  accessFile_set d u := Abi.accessFile_set d u.member
  statFile u := Abi.statFile u.member
  setStatFile d u := ⟨Abi.setStatFile d u.member⟩
  statFile_set d u := Abi.statFile_set d u.member
  readFile u := Abi.readFile u.member
  setReadFile d u := ⟨Abi.setReadFile d u.member⟩
  readFile_set d u := Abi.readFile_set d u.member
  int x := x

/-- A file that grows by two chunks from request to request. -/
def growing : Nat → Int → Answer := fun k _ =>
  { (default : Answer) with
    stat := .ok ⟨0o100644, Int64.ofNat (2 * contentSize * (k + 1)), 0⟩
    fread := ⟨List.replicate contentSize 0, by simp, none, false⟩ }

theorem growing_ends : ∃ out, Call.run (⟨.zero⟩ : Unbounded) (.readFile [47] none)
    (Call.answeredBy (⟨.zero⟩ : Unbounded) (.readFile [47] none) growing 4) = some out := by
  have whole : ∀ k offset, (growing k offset).whole := by
    intro k offset short
    simp [growing] at short
  have requests : (growing 0 0).totalSize.toNat / contentSize + 2 = 4 := by decide
  have ends := chunk_loop_ends (fun _ => rfl) (⟨.zero⟩ : Unbounded) [47] none whole
  rw [requests] at ends
  exact ends.2

end Xposed.Membased
