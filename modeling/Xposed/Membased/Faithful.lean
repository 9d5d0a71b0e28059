import Xposed.Membased.Arithmetic

/-!
# When a call does what its system calls would

A call is told what its libc calls produced, and the one thing that went wrong;
and no store of it leaves the block that `readFile` allocates. What is stored
outside is the end of any such account, whatever the call returns.
-/

namespace Xposed.Membased

/-- The size of the first response leaves room for the terminator and for the
content that comes with it, and the content handed out stays below 2³¹ bytes. -/
structure Roomy (answers : List Answer) : Prop where
  size : ∀ a ∈ answers.head?, handed answers ≠ [] →
    0 ≤ int32 a.st_size ∧ int32 a.st_size < 2 ^ 31 - 1
  first : ∀ a ∈ answers.head?, ∀ h ∈ (handed answers).head?, (h.sum : Int) ≤ int32 a.st_size + 1
  small : Small (handed answers)

/-- Only `readFile` has a buffer. -/
def Call.Roomy (call : Call) (answers : List Answer) : Prop :=
  match call with
  | .accessFile _ _ | .statFile _ => True
  | .readFile _ _ => Membased.Roomy answers

/-- A read that is refused at once has nothing to store. -/
theorem Roomy.of_handed {answers : List Answer} (nothing : handed answers = []) : Roomy answers := by
  refine ⟨fun _ _ some => absurd nothing some, ?_, ?_⟩
  · simp [nothing]
  · simp [nothing, Small]

theorem roomy_iff {a : Answer} {rest : List Answer} {n : Nat} {eof : Bool}
    (delivers : a.delivers 0 0 = some (n, eof)) : Roomy (a :: rest) ↔
      (0 ≤ int32 a.st_size ∧ int32 a.st_size < 2 ^ 31 - 1 ∧ (n : Int) ≤ int32 a.st_size + 1) ∧
        Small (handed (a :: rest)) := by
  have shown := handed_delivers delivers rest
  constructor
  · intro roomy
    obtain ⟨low, top⟩ := roomy.size a rfl (by simp [shown])
    exact ⟨⟨low, top, roomy.first a rfl ⟨n, eof⟩ (by simp [shown])⟩, roomy.small⟩
  · rintro ⟨⟨low, top, fits⟩, small⟩
    refine ⟨?_, ?_, small⟩
    · rintro _ ⟨⟩ _
      exact ⟨low, top⟩
    · rintro _ ⟨⟩ h first
      rw [shown, List.head?_cons, Option.mem_some_iff] at first
      subst first
      exact fits

section
variable {U : Type} [Abi U]

/-- The buffer of a read at its end, before a failed call frees it. -/
def buffer (data : U) (call : Call) (answers : List Answer) : Option HeapBlock :=
  let opened := call.request (idleBlock data 0)
  match session opened.1 opened.2 answers with
  | some (.readFree v, _) => v.result
  | _ => none

/-- A call stores outside its buffer. -/
def Call.strays (data : U) (call : Call) (answers : List Answer) : Bool :=
  !call.tooLong && (buffer data call answers).any HeapBlock.fault

/-- The call is told what the libc calls produced or the one thing that went
wrong, and every store of it stays inside its buffer. -/
structure Refines (data : U) (call : Call) (answers : List Answer) (out : Outcome) : Prop where
  accounted : Accounted (call.causes data answers) out
  delivered : Delivered call answers out
  inside : call.strays data answers = false

/-! ## The stores of a read -/

section
variable {v w : ReadLocals} {b b' : MemBasedState U} {n : Nat} {path chunk : Bytes}
  {answers : List Answer}

/-- A read ends in `if (shared->error && result)`. -/
theorem session_readFree {looping : Bool} {u : Unlocked}
    (ends : session (.readFile looping path v) b answers = some (u, b')) : ∃ w, u = .readFree w := by
  induction answers generalizing looping v b with
  | nil => cases ends
  | cons a rest ih =>
    have turned := resume_turned looping path v (respond a b)
    rcases session_step ends with ⟨g, b₁, turn, later⟩ | ⟨turn, _⟩
    · rw [turn] at turned
      cases turned with
      | again => exact ih later
    · rw [turn] at turned
      cases turned with
      | failed | grew | done => exact ⟨_, rfl⟩

/-- The loop stays inside the buffer if the first chunk did and no sum wraps. -/
theorem loop_inside (narrow : ∀ x, Abi.int U x = int32 x) {total : Int} (low : 0 ≤ total)
    (top : total < 2 ^ 31 - 1) (short : n < 2 ^ 31) (h : Follows n n v b)
    (size : v.totalSize = total) (copies : v.result = some (firstBlock total chunk))
    (long : chunk.length = n)
    (ends : session (.readFile true path v) b answers = some (.readFree w, b')) :
    (∀ r ∈ w.result, r.fault = false) ↔
      (n : Int) ≤ total + 1 ∧ Small (handedLater total n n answers) := by
  have length := firstBlock_length low top chunk
  have range : -2 ^ 31 ≤ total ∧ total < 2 ^ 31 := by omega
  have fault := firstBlock_fault range chunk
  rw [long] at fault
  by_cases small : Small (handedLater total n n answers)
  · obtain ⟨_, ⟨r, result, kept⟩, _⟩ :=
      loop_small narrow low top h size short copies length ends small
    rw [result]
    constructor
    · intro fine
      exact ⟨(fault.mp (kept.symm.trans (fine r rfl))).2.2, small⟩
    · rintro ⟨fits, _⟩ r ⟨⟩
      exact kept.trans (fault.mpr ⟨low, top, fits⟩)
  · obtain ⟨⟨r, result, faulted⟩, _⟩ :=
      loop_wraps narrow low top h size short copies length ends small
    constructor
    · intro fine
      exact absurd faulted (by simp [fine r result])
    · rintro ⟨_, all⟩
      exact absurd all small

/-- **A read stays inside its buffer** exactly if its answers leave room. -/
theorem read_inside (narrow : ∀ x, Abi.int U x = int32 x) (h : Follows 0 0 v b)
    (empty : v.result = none)
    (ends : session (.readFile false path v) b answers = some (.readFree w, b')) :
    (∀ r ∈ w.result, r.fault = false) ↔ Roomy answers := by
  cases answers with
  | nil => cases ends
  | cons a rest =>
    have range := int32_range a.st_size
    have turned := h.first_turn narrow path a
    rcases session_step ends with ⟨g, b₁, turn, later⟩ | ⟨turn, rfl⟩
    · rw [turn] at turned
      cases turned with
      | again n w₁ chunk b₁ delivers brought copies long size follows =>
        have short := brought.chunk
        simp only [contentSize] at short
        have head : n < 2 ^ 31 := by omega
        have small : Small (handed (a :: rest)) ↔ Small (handedLater (int32 a.st_size) n n rest) := by
          rw [handed_delivers delivers, if_neg (by simp), Small, List.forall_mem_cons]
          exact and_iff_right head
        rw [roomy_iff delivers, small]
        by_cases room : 0 ≤ int32 a.st_size ∧ int32 a.st_size < 2 ^ 31 - 1
        · obtain ⟨low, top⟩ := room
          rw [loop_inside narrow low top head follows size copies long later]
          exact and_congr_left fun _ => ⟨fun fits => ⟨low, top, fits⟩, fun room => room.2.2⟩
        · refine iff_of_false (first_strays range room copies later) ?_
          rintro ⟨⟨low, top, _⟩, _⟩
          exact room ⟨low, top⟩
    · rw [turn] at turned
      cases turned with
      | failed error fails =>
        exact iff_of_true (by simp [empty]) (.of_handed (handed_fails fails []))
      | done n w₁ chunk delivers brought copies long =>
        have short := brought.chunk
        simp only [contentSize] at short
        have small : Small (handed [a]) := by
          simp only [handed_delivers delivers, if_true, Small, List.forall_mem_singleton]
          omega
        have fault := firstBlock_fault range chunk
        rw [long] at fault
        rw [roomy_iff delivers, and_iff_left small, copies]
        simpa using fault

end

/-! ## The length that a read hands out -/

section
variable {v w : ReadLocals} {b b' : MemBasedState U} {path : Bytes} {answers : List Answer}

end

/-! ## Every call -/

theorem strays_iff (narrow : ∀ x, Abi.int U x = int32 x) {data : U} {call : Call}
    {answers : List Answer} {out : Outcome} (h : call.run data answers = some out) :
    call.strays data answers = false ↔ call.Roomy answers := by
  unfold Call.run at h
  split at h
  · rename_i refused
    obtain ⟨nil, _⟩ := Option.ite_none_right_eq_some.mp h
    obtain rfl := List.isEmpty_iff.mp nil
    refine iff_of_true (by simp [Call.strays, (refusal_tooLong refused).1]) ?_
    cases call with
    | accessFile | statFile => trivial
    | readFile path bytesRead => exact .of_handed rfl
  · rename_i passed
    obtain ⟨u, b', ends, _⟩ := alone_session h
    unfold Call.strays buffer
    dsimp only
    rw [refusal_short passed, ends, Bool.not_false, Bool.true_and]
    cases call with
    | accessFile | statFile =>
      cases answers with
      | nil => cases ends
      | cons a rest =>
        rcases session_step ends with ⟨_, _, does, _⟩ | ⟨does, _⟩
        · cases does
        · cases does
          exact iff_of_true rfl trivial
    | readFile path bytesRead =>
      obtain ⟨w, rfl⟩ := session_readFree ends
      have inside := read_inside narrow (request_follows path bytesRead data) rfl ends
      rw [Call.Roomy, ← inside]
      dsimp only
      cases w.result with
      | none => exact iff_of_true rfl (by simp)
      | some r => simp

/-- **A call refines the system calls it stands for** exactly if `ferror` showed
the `errno` of every `fseek` and `fread` that failed, and a read has room: it
fails when and only when one of the looper's libc calls failed, the path is too
long or the file grew, with the `errno` of just that, it hands out what the calls
produced, and it stores nothing outside its buffer. -/
theorem calls_refine (narrow : ∀ x, Abi.int U x = int32 x) {data : U} {call : Call}
    {answers : List Answer} {out : Outcome} (h : call.run data answers = some out) :
    Refines data call answers out ↔ call.candid data answers = true ∧ call.Roomy answers := by
  obtain ⟨accounted, delivered⟩ := run_accounted h
  have inside := strays_iff narrow h
  constructor
  · intro refines
    exact ⟨accounted.mp refines.accounted, inside.mp refines.inside⟩
  · rintro ⟨candid, roomy⟩
    exact ⟨accounted.mpr candid, delivered, inside.mpr roomy⟩

end

/-- A directory: `stat` and `fopen` succeed and `fread` fails with `EISDIR`. -/
def directory : Answer where
  access := .ok ()
  stat := .ok ⟨0o040755, 4096, 0⟩
  fopen := .ok ()
  fseek := .ok
  fread := ⟨[], by decide, some ⟨⟨EISDIR, by decide⟩, 1, by decide⟩, false⟩

/-- A file whose size is negative as an `int`. -/
def large : Answer := { threeBytes with stat := .ok ⟨0o100644, 3000000000, 0⟩ }

/-- None of the looper's calls fails, and the terminator is stored in front of the buffer. -/
example : Call.strays Member.zero (.readFile [47] none) [large] = true := by decide

/-- A read of a file of three bytes whose second request fails in `fseek`. -/
def interrupted : List Answer :=
  [{ (default : Answer) with stat := .ok ⟨0, 3, 0⟩, fread := ⟨[1, 2], by decide, none, false⟩ },
   { (default : Answer) with stat := .ok ⟨0, 3, 0⟩, fseek := .fail ⟨5, by decide⟩ 5 }]

theorem interrupted_refines : ∃ out,
    Call.run Member.zero (.readFile [47] (some 7)) interrupted = some out ∧
      Refines Member.zero (.readFile [47] (some 7)) interrupted out := by
  have fails : Call.run Member.zero (.readFile [47] (some 7)) interrupted =
      some (.readFile none 5 (some 0)) := by decide
  have shown : handed interrupted = [⟨2, false⟩] := by decide
  have roomy : Roomy interrupted := by
    refine ⟨?_, ?_, ?_⟩
    · rintro a ⟨⟩ _
      decide
    · rintro a ⟨⟩ h ⟨⟩
      decide
    · rw [shown]
      simp [Small]
  exact ⟨_, fails, (calls_refine (fun _ => rfl) fails).mpr ⟨by decide, roomy⟩⟩

/-- Reading a directory fails with the value of `ferror`, which is `EPERM`. -/
theorem directory_misreported : ¬ ∀ (data : Member) call answers out,
    call.run data answers = some out → Refines data call answers out := by
  intro refines
  have fails : Call.run Member.zero (.readFile [47] none) [directory] =
      some (.readFile none EPERM none) := rfl
  obtain ⟨c, only, same⟩ := (refines _ _ _ _ fails).accounted.errno rfl
  have cause : Call.causes Member.zero (.readFile [47] none) [directory] =
      [.libc ⟨EISDIR, by decide⟩] := rfl
  rw [cause] at only
  cases only
  exact absurd same (by decide)

end Xposed.Membased
