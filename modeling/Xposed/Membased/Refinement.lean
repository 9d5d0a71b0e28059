import Xposed.Membased.Isolation

/-!
# The service against the system calls it stands for

A client that has the service to itself calls it where other code calls
`access`, `stat` or the `stdio` functions. What the looper's libc calls did is
read off its answers; what the client is told goes through the one error field.
-/

namespace Xposed.Membased

open Monitor (Anything Place)

/-- Why a call has to fail. -/
inductive Cause where
  | tooLong
  | libc (e : Errno)
  /-- `readFile` saw more content than the first request's `stat` had promised. -/
  | growth
  deriving DecidableEq

def Cause.errno : Cause → Int32
  | .tooLong => ENAMETOOLONG
  | .libc e => e.code
  | .growth => EBUSY

def failure {α : Type} : Except Errno α → Option Errno
  | .ok _ => none
  | .error e => some e

/-- The libc call that failed while the looper answered `r`. It makes no
further one after it. -/
def Request.failed (r : Request) (a : Answer) : Option Errno :=
  match r with
  | .accessFile _ _ => failure a.access
  | .statFile _ => failure a.stat
  | .readFile _ offset =>
    match a.stat, a.fopen, seek a offset with
    | .error e, _, _ | .ok _, .error e, _ | .ok _, .ok _, .fail e _ => some e
    | .ok _, .ok _, .ok => a.fread.failed.map (·.errno)

/-- If `fseek` or `fread` failed, `ferror` gave the `errno` of that failure. -/
def Request.candid (r : Request) (a : Answer) : Bool :=
  match r with
  | .accessFile _ _ | .statFile _ => true
  | .readFile _ offset =>
    match a.stat, a.fopen, seek a offset with
    | .error _, _, _ | .ok _, .error _, _ => true
    | .ok _, .ok _, .fail e ferror => ferror == e.code
    | .ok _, .ok _, .ok => a.fread.failed.all fun e => e.ferror == e.errno.code

/-- What a request with its answer leaves in a clear error field. -/
def Request.error (r : Request) (a : Answer) : Int32 :=
  match r with
  | .accessFile _ _ => ((failure a.access).map (·.code)).getD 0
  | .statFile _ => ((failure a.stat).map (·.code)).getD 0
  | .readFile _ offset =>
    match a.stat, a.fopen, seek a offset with
    | .error e, _, _ | .ok _, .error e, _ => e.code
    | .ok _, .ok _, .fail _ ferror => ferror
    | .ok _, .ok _, .ok => a.fread.ferror

theorem Request.failed_none {r : Request} {a : Answer} (h : r.failed a = none) :
    r.error a = 0 ∧ r.candid a = true := by
  cases r with
  | accessFile path mode => exact ⟨by simp_all [error, failed], rfl⟩
  | statFile path => exact ⟨by simp_all [error, failed], rfl⟩
  | readFile path offset =>
    unfold failed error candid at *
    dsimp only at *
    split at h
    · cases h
    · cases h
    · cases h
    · rename_i st o hs ho hk
      have none : a.fread.failed = none := Option.map_eq_none_iff.mp h
      simp [Fread.ferror, none]

theorem Request.failed_some {r : Request} {a : Answer} {e : Errno} (h : r.failed a = some e) :
    r.candid a = true ↔ r.error a = e.code := by
  cases r with
  | accessFile path mode => simp_all [error, failed, candid]
  | statFile path => simp_all [error, failed, candid]
  | readFile path offset =>
    unfold failed error candid at *
    dsimp only at *
    split at h
    · cases h; simp_all
    · cases h; simp_all
    · cases h; simp_all
    · rename_i st o hs ho hk
      obtain ⟨x, hx, rfl⟩ := Option.map_eq_some_iff.mp h
      simp [Fread.ferror, hx]

section
variable {U : Type} [Abi U]

theorem respond_error {f : Frame} {b : MemBasedState U} (a : Answer)
    (asked : b.request = some f.written) (clear : b.error = 0) :
    (respond a b).error = f.written.error a := by
  unfold MemBasedState.request at asked
  cases hb : b.action with
  | opNone => simp [hb] at asked
  | opAccessFile =>
    simp only [hb, Option.some.injEq] at asked
    rw [← asked]
    cases ha : a.access <;>
      simp [respond, serve, serveAccessFile, hb, ha, clear, Request.error, failure]
  | opStatFile =>
    simp only [hb, Option.some.injEq] at asked
    rw [← asked]
    cases ha : a.stat <;>
      simp [respond, serve, serveStatFile, hb, ha, clear, Request.error, failure]
  | opReadFile =>
    simp only [hb, Option.some.injEq] at asked
    rw [← asked]
    cases hs : a.stat with
    | error e => simp [respond, serve, serveReadFile, hb, hs, Request.error]
    | ok st =>
      cases ho : a.fopen with
      | error e => simp [respond, serve, serveReadFile, hb, hs, ho, Request.error]
      | ok _ =>
        cases hk : seek a (Abi.readFile b.data).offset <;>
          simp [respond, serve, serveReadFile, hb, hs, ho, hk, Request.error]

/-! ## The rounds of a session -/

/-- A request of a session with its answer; `block` is what its client then
finds. -/
structure Round (U : Type) where
  frame : Frame
  answer : Answer
  block : MemBasedState U

def rounds (f : Frame) (b : MemBasedState U) : List Answer → List (Round U)
  | [] => []
  | a :: rest =>
    ⟨f, a, respond a b⟩ ::
      match f.resume (respond a b) with
      | .again f' b' => rounds f' b' rest
      | .unlock _ _ => []

/-- The overflow check runs in the loop, on a response without an error. -/
def Round.grew (r : Round U) : Bool :=
  match r.frame with
  | .readFile true _ v => r.block.error == 0 && detectsGrowth v r.block
  | _ => false

def Round.causes (r : Round U) : List Cause :=
  ((r.frame.written.failed r.answer).map Cause.libc).toList ++ if r.grew then [.growth] else []

def Round.candid (r : Round U) : Bool := r.frame.written.candid r.answer

/-- Everything that went wrong in a call, in order. -/
def Call.causes (data : U) (call : Call) (answers : List Answer) : List Cause :=
  if call.tooLong then [.tooLong]
  else
    let opened := call.request (idleBlock data 0)
    (rounds opened.1 opened.2 answers).flatMap Round.causes

/-- In each request of a call, a failed `fseek` or `fread` showed its `errno` as
`ferror`. -/
def Call.candid (data : U) (call : Call) (answers : List Answer) : Bool :=
  let opened := call.request (idleBlock data 0)
  call.tooLong || (rounds opened.1 opened.2 answers).all Round.candid

/-- A call of a client that may access the service and has it to itself. -/
def Call.run (data : U) (call : Call) (answers : List Answer) : Option Outcome :=
  match call.refusal true with
  | some out => if answers.isEmpty then some out else none
  | none => alone data call answers

end

/-- A call fails when something went wrong, and then with the one thing that
did, which also ended it; it hands out no partial content. -/
structure Accounted (causes : List Cause) (out : Outcome) : Prop where
  fails : out.failed = true ↔ causes ≠ []
  errno : out.failed = true → ∃ c, causes = [c] ∧ out.errno = c.errno
  empty : out.failed = true → ∀ n, out.bytesRead = some n → n = 0

/-- `access` and `stat` results are the ones of the one system call made. -/
def Delivered (call : Call) (answers : List Answer) (out : Outcome) : Prop :=
  match call, out with
  | .accessFile _ _, .accessFile ret _ =>
    out.failed = false → ret = 0 ∧ ∃ a, answers = [a] ∧ a.access = .ok ()
  | .statFile _, .statFile ret _ st =>
    out.failed = false → ret = 0 ∧ ∃ a s, answers = [a] ∧ a.stat = .ok s ∧ st = some s
  | .readFile _ _, .readFile _ _ _ => True
  | _, _ => False

section
variable {U : Type} [Abi U]

/-! ## `readFile` -/

/-- What holds of `readFile`'s locals while it waits for an answer. -/
structure Waits (looping : Bool) (v : ReadLocals) : Prop where
  bytesRead : ∀ n, v.bytesRead = some n → n = 0
  result : looping = true → v.result ≠ none

/-- How `readFile` goes on at a response. -/
inductive ReadTurn (looping : Bool) (path : Bytes) (v : ReadLocals) (b : MemBasedState U) :
    Turn U → Prop where
  | failed (error : b.error ≠ 0) : ReadTurn looping path v b (.unlock (.readFree v) (makeIdle b))
  | grew (clear : b.error = 0) (loop : looping = true) (grows : detectsGrowth v b = true) :
      ReadTurn looping path v b (.unlock (.readFree v) (makeIdle { b with error := EBUSY }))
  | done (w) (clear : b.error = 0) (fits : looping = true → detectsGrowth v b = false)
      (result : w.result ≠ none) : ReadTurn looping path v b (.unlock (.readFree w) (makeIdle b))
  | again (w b') (clear : b.error = 0) (fits : looping = true → detectsGrowth v b = false)
      (clear' : b'.error = 0) (waits : Waits true w) :
      ReadTurn looping path v b (.again (.readFile true path w) b')

theorem resume_turn {looping : Bool} (path : Bytes) {v : ReadLocals} (b : MemBasedState U)
    (waits : Waits looping v) :
    ReadTurn looping path v b ((Frame.readFile looping path v).resume b) := by
  have stays : ∀ d, (copied (Abi.int U) looping v d).bytesRead = v.bytesRead := by
    intro d
    cases looping <;> rfl
  have result : ∀ d, (copied (Abi.int U) looping v d).result ≠ none := by
    intro d
    cases looping with
    | false => simp [copied]
    | true => simpa [copied] using waits.result rfl
  have turned := resume_turned looping path v b
  generalize (Frame.readFile looping path v).resume b = turn at turned ⊢
  cases turned with
  | failed error => exact .failed error
  | grew clear loop grows => exact .grew clear loop (by simpa [detectsGrowth] using grows)
  | done clear fits eof =>
    exact .done _ clear (fun loop => by simpa [detectsGrowth] using fits loop) (result _)
  | again b' clear fits more asks member =>
    refine .again _ _ clear (fun loop => by simpa [detectsGrowth] using fits loop) asks.clear ?_
    exact ⟨fun n some => waits.bytesRead n ((stays _).symm.trans some), fun _ => result _⟩

theorem session_step {f : Frame} {b b' : MemBasedState U} {a : Answer} {rest : List Answer}
    {u : Unlocked} (h : session f b (a :: rest) = some (u, b')) :
    (∃ g b₁, f.resume (respond a b) = .again g b₁ ∧ session g b₁ rest = some (u, b')) ∨
    (f.resume (respond a b) = .unlock u b' ∧ rest = []) := by
  unfold session at h
  split at h
  · exact .inl ⟨_, _, ‹_›, h⟩
  · split at h
    · cases h
      exact .inr ⟨‹_›, by simpa using ‹rest.isEmpty = true›⟩
    · cases h

/-- A session that ends behind the round `r`, whose answer left `r.block`. -/
structure Ends (r : Round U) (out : Outcome) : Prop where
  error : r.block.error = r.frame.written.error r.answer
  empty : out.failed = true → ∀ n, out.bytesRead = some n → n = 0
  /-- The call reports the error field, or the growth it saw, or no failure. -/
  how : (r.block.error ≠ 0 ∧ r.grew = false ∧ out.failed = true ∧ out.errno = r.block.error) ∨
    (r.block.error = 0 ∧ r.grew = true ∧ out.failed = true ∧ out.errno = EBUSY) ∨
    (r.block.error = 0 ∧ r.grew = false ∧ out.failed = false)

theorem Ends.causes {r : Round U} {out : Outcome} (h : Ends r out) (failed : out.failed = true) :
    r.causes ≠ [] := by
  rcases h.how with ⟨error, _⟩ | ⟨_, grew, _⟩ | ⟨_, _, not⟩
  · have some : r.frame.written.failed r.answer ≠ none := by
      intro none
      exact error (h.error.trans (Request.failed_none none).1)
    obtain ⟨e, he⟩ := Option.ne_none_iff_exists'.mp some
    simp [Round.causes, he]
  · simp [Round.causes, grew]
  · simp [not] at failed

theorem Ends.accounted {r : Round U} {out : Outcome} (h : Ends r out) :
    Accounted r.causes out ↔ r.candid = true := by
  have error := h.error
  cases hf : r.frame.written.failed r.answer with
  | none =>
    -- nothing failed: the call either saw growth or succeeded, and says so
    obtain ⟨clear, candid⟩ := Request.failed_none hf
    refine ⟨fun _ => candid, fun _ => ?_⟩
    rcases h.how with ⟨broken, _⟩ | ⟨_, grew, failed, errno⟩ | ⟨_, small, fine⟩
    · exact absurd (error.trans clear) broken
    · have only : r.causes = [.growth] := by simp [Round.causes, hf, grew]
      exact ⟨by simp [only, failed], fun _ => ⟨_, only, errno⟩, h.empty⟩
    · have only : r.causes = [] := by simp [Round.causes, hf, small]
      exact ⟨by simp [only, fine], fun failed => by simp [fine] at failed, h.empty⟩
  | some e =>
    have candid : r.candid = true ↔ r.block.error = e.code := by
      rw [error]
      exact Request.failed_some hf
    rw [candid]
    rcases h.how with ⟨_, small, failed, errno⟩ | ⟨clear, grew, failed, _⟩ | ⟨clear, small, fine⟩
    · have only : r.causes = [.libc e] := by simp [Round.causes, hf, small]
      constructor
      · intro accounted
        obtain ⟨c, hc, same⟩ := accounted.errno failed
        rw [only] at hc
        cases hc
        exact errno.symm.trans same
      · intro same
        exact ⟨by simp [only, failed], fun _ => ⟨_, only, errno.trans same⟩, h.empty⟩
    · -- two things went wrong, and the first one left no error
      have both : r.causes = [.libc e, .growth] := by simp [Round.causes, hf, grew]
      refine ⟨fun accounted => ?_, fun same => absurd (same.symm.trans clear) e.ne⟩
      obtain ⟨c, hc, _⟩ := accounted.errno failed
      simp [both] at hc
    · have only : r.causes = [.libc e] := by simp [Round.causes, hf, small]
      refine ⟨fun accounted => ?_, fun same => absurd (same.symm.trans clear) e.ne⟩
      have failed := accounted.fails.mpr (by simp [only])
      simp [fine] at failed

/-- A round behind which the session goes on had no error in its answer. -/
theorem go_on {r : Round U} {causes : List Cause} {out : Outcome}
    (error : r.block.error = r.frame.written.error r.answer) (clear : r.block.error = 0)
    (small : r.grew = false) (later : out.failed = true → causes ≠ []) :
    (out.failed = true → r.causes ++ causes ≠ []) ∧
    (Accounted (r.causes ++ causes) out ↔ r.candid = true ∧ Accounted causes out) := by
  cases hf : r.frame.written.failed r.answer with
  | none =>
    have none : r.causes = [] := by simp [Round.causes, hf, small]
    have candid : r.candid = true := (Request.failed_none hf).2
    simpa [none, candid] using later
  | some e =>
    have only : r.causes = [.libc e] := by simp [Round.causes, hf, small]
    have quiet : ¬ r.candid = true := by
      intro candid
      exact e.ne (((Request.failed_some hf).mp candid).symm.trans (error.symm.trans clear))
    refine ⟨by simp [only], fun accounted => ?_, fun h => absurd h.1 quiet⟩
    -- the failure went unnoticed, so another one would have to end the call
    have failed := accounted.fails.mpr (by simp [only])
    obtain ⟨c, hc, _⟩ := accounted.errno failed
    rw [only] at hc
    exact absurd (List.cons.inj hc).2 (later failed)

section
variable {looping : Bool} {path : Bytes} {v : ReadLocals}

/-- No growth is seen before the loop, nor behind an error. -/
theorem not_grew {a : Answer} {b : MemBasedState U}
    (fits : looping = true → b.error = 0 → detectsGrowth v b = false) :
    Round.grew ⟨.readFile looping path v, a, b⟩ = false := by
  cases looping with
  | false => rfl
  | true =>
    by_cases clear : b.error = 0
    · simp [Round.grew, fits rfl clear]
    · simp [Round.grew, clear]

/-- How `readFile` ends, once it does not go on. -/
theorem ReadTurn.ends {a : Answer} {b b' : MemBasedState U} {u : Unlocked}
    (turn : ReadTurn looping path v b (.unlock u b')) (waits : Waits looping v)
    (error : b.error = (Frame.readFile looping path v).written.error a) :
    (∃ ret errno n, u.finish b' = .readFile ret errno n) ∧
      Ends ⟨.readFile looping path v, a, b⟩ (u.finish b') := by
  cases turn with
  | failed broken =>
    have small : Round.grew ⟨.readFile looping path v, a, b⟩ = false :=
      not_grew fun _ clear => absurd clear broken
    have failed : ((Unlocked.readFree v).finish (makeIdle b)).failed = true := by
      simp [Unlocked.finish, Outcome.failed, broken]
    exact ⟨⟨_, _, _, rfl⟩, error, fun _ => waits.bytesRead, .inl ⟨broken, small, failed, rfl⟩⟩
  | grew clear loop grows =>
    subst loop
    have grew : Round.grew ⟨.readFile true path v, a, b⟩ = true := by simp [Round.grew, clear, grows]
    exact ⟨⟨_, _, _, rfl⟩, error, fun _ => waits.bytesRead, .inr (.inl ⟨clear, grew, rfl, rfl⟩)⟩
  | done w clear fits result =>
    have small : Round.grew ⟨.readFile looping path v, a, b⟩ = false :=
      not_grew fun loop _ => fits loop
    have fine : ((Unlocked.readFree w).finish (makeIdle b)).failed = false := by
      simpa [Unlocked.finish, Outcome.failed, clear] using Option.isSome_iff_ne_none.mpr result
    refine ⟨⟨_, _, _, rfl⟩, error, ?_, .inr (.inr ⟨clear, small, fine⟩)⟩
    intro failed
    simp [fine] at failed

theorem read_accounted {b b' : MemBasedState U} {answers : List Answer} {u : Unlocked}
    (asked : b.request = some (Frame.readFile looping path v).written) (clear : b.error = 0)
    (waits : Waits looping v) (h : session (.readFile looping path v) b answers = some (u, b')) :
    (∃ ret errno n, u.finish b' = .readFile ret errno n) ∧
    ((u.finish b').failed = true →
      (rounds (.readFile looping path v) b answers).flatMap Round.causes ≠ []) ∧
    (Accounted ((rounds (.readFile looping path v) b answers).flatMap Round.causes) (u.finish b') ↔
      (rounds (.readFile looping path v) b answers).all Round.candid = true) := by
  induction answers generalizing looping v b with
  | nil => cases h
  | cons a rest ih =>
    have error := respond_error a asked clear
    have turn := resume_turn path (respond a b) waits
    rcases session_step h with ⟨g, b₁, does, left⟩ | ⟨does, rfl⟩
    · rw [does] at turn
      cases turn with
      | again w b₁ clear' fits clear₁ waits' =>
        have asked₁ := resume_written does ((respond_request a b).trans asked)
        obtain ⟨kind, later, same⟩ := ih asked₁ clear₁ waits' left
        have small : Round.grew ⟨.readFile looping path v, a, respond a b⟩ = false :=
          not_grew fun loop _ => fits loop
        have whole := go_on (r := ⟨.readFile looping path v, a, respond a b⟩) error clear' small later
        simp only [rounds, does, List.flatMap_cons, List.all_cons, Bool.and_eq_true]
        exact ⟨kind, whole.1, whole.2.trans (and_congr_right fun _ => same)⟩
    · rw [does] at turn
      obtain ⟨kind, ends⟩ := turn.ends waits error
      simp only [rounds, does, List.flatMap_cons, List.flatMap_nil, List.append_nil, List.all_cons,
        List.all_nil, Bool.and_true]
      exact ⟨kind, ends.causes, ends.accounted⟩

end

/-! ## Every call -/

theorem alone_session {data : U} {call : Call} {answers : List Answer} {out : Outcome}
    (h : alone data call answers = some out) : ∃ u b',
      session (call.request (idleBlock data 0)).1 (call.request (idleBlock data 0)).2 answers =
        some (u, b') ∧ out = u.finish b' := by
  obtain ⟨⟨u, b'⟩, hs, same⟩ := Option.map_eq_some_iff.mp h
  exact ⟨u, b', hs, same.symm⟩

/-- A call whose first response is its last one. -/
theorem alone_single {data : U} {call : Call} {answers : List Answer} {out : Outcome}
    (once : ∀ b : MemBasedState U, ∃ u,
      (call.request (idleBlock data 0)).1.resume b = .unlock u (makeIdle b))
    (h : alone data call answers = some out) : ∃ a u, answers = [a] ∧
      (call.request (idleBlock data 0)).1.resume (respond a (call.request (idleBlock data 0)).2) =
        .unlock u (makeIdle (respond a (call.request (idleBlock data 0)).2)) ∧
      out = u.finish (makeIdle (respond a (call.request (idleBlock data 0)).2)) := by
  obtain ⟨u, b', hs, rfl⟩ := alone_session h
  cases answers with
  | nil => cases hs
  | cons a rest =>
    obtain ⟨v, unlocks⟩ := once (respond a (call.request (idleBlock data 0)).2)
    rcases session_step hs with ⟨_, _, does, _⟩ | ⟨does, rfl⟩
    · cases unlocks.symm.trans does
    · cases unlocks.symm.trans does
      exact ⟨a, u, rfl, unlocks, rfl⟩

/-- A call of one request reports just what is in the error field. -/
theorem Ends.of_error {r : Round U} {out : Outcome}
    (error : r.block.error = r.frame.written.error r.answer) (small : r.grew = false)
    (empty : out.bytesRead = none) (errno : out.errno = r.block.error)
    (fails : out.failed = true ↔ r.block.error ≠ 0) : Ends r out := by
  refine ⟨error, by simp [empty], ?_⟩
  by_cases clear : r.block.error = 0
  · have fine : out.failed = false := by simpa [clear] using fails
    exact .inr (.inr ⟨clear, small, fine⟩)
  · exact .inl ⟨clear, small, fails.mpr clear, errno⟩

theorem access_ends {path : Bytes} {mode : Int32} {data : U} {answers : List Answer} {out : Outcome}
    (h : alone data (.accessFile path mode) answers = some out) : ∃ r,
      rounds (Call.request (.accessFile path mode) (idleBlock data 0)).1
        (Call.request (.accessFile path mode) (idleBlock data 0)).2 answers = [r] ∧
      Ends r out ∧ Delivered (.accessFile path mode) answers out := by
  obtain ⟨a, u, rfl, does, rfl⟩ := alone_single (fun b => ⟨_, rfl⟩) h
  cases does
  have error := respond_error a (request_written (.accessFile path mode) (idleBlock data 0)) rfl
  refine ⟨_, rfl, .of_error error rfl rfl rfl ?_, ?_⟩
  · cases ha : a.access with
    | ok _ =>
      simp [Call.request, Unlocked.finish, Outcome.failed, respond, serve, serveAccessFile,
        callService, ha]
    | error e =>
      simp [Call.request, Unlocked.finish, Outcome.failed, respond, serve, serveAccessFile,
        callService, ha, e.ne]
  · cases ha : a.access <;>
      simp_all [Delivered, Call.request, Unlocked.finish, Outcome.failed, respond, serve,
        serveAccessFile, callService]

theorem stat_ends {path : Bytes} {data : U} {answers : List Answer} {out : Outcome}
    (h : alone data (.statFile path) answers = some out) : ∃ r,
      rounds (Call.request (.statFile path) (idleBlock data 0)).1
        (Call.request (.statFile path) (idleBlock data 0)).2 answers = [r] ∧
      Ends r out ∧ Delivered (.statFile path) answers out := by
  obtain ⟨a, u, rfl, does, rfl⟩ := alone_single (fun b => ⟨_, rfl⟩) h
  cases does
  have error := respond_error a (request_written (.statFile path) (idleBlock data 0)) rfl
  refine ⟨_, rfl, .of_error error rfl rfl rfl ?_, ?_⟩
  · cases ha : a.stat with
    | ok _ =>
      simp [Call.request, Unlocked.finish, Outcome.failed, respond, serve, serveStatFile,
        callService, ha]
    | error e =>
      simp [Call.request, Unlocked.finish, Outcome.failed, respond, serve, serveStatFile,
        callService, ha, e.ne]
  · cases ha : a.stat <;>
      simp_all [Delivered, Call.request, Unlocked.finish, Outcome.failed, respond, serve,
        serveStatFile, callService]

theorem alone_accounted {data : U} {call : Call} {answers : List Answer} {out : Outcome}
    (h : alone data call answers = some out) :
    (Accounted ((rounds (call.request (idleBlock data 0)).1 (call.request (idleBlock data 0)).2
        answers).flatMap Round.causes) out ↔
      (rounds (call.request (idleBlock data 0)).1 (call.request (idleBlock data 0)).2
        answers).all Round.candid = true) ∧
    Delivered call answers out := by
  cases call with
  | accessFile path mode =>
    obtain ⟨r, only, ends, delivered⟩ := access_ends h
    rw [only]
    simpa using ⟨ends.accounted, delivered⟩
  | statFile path =>
    obtain ⟨r, only, ends, delivered⟩ := stat_ends h
    rw [only]
    simpa using ⟨ends.accounted, delivered⟩
  | readFile path bytesRead =>
    obtain ⟨u, b', hs, rfl⟩ := alone_session h
    have waits : Waits false ⟨none, 0, 0, bytesRead.map fun _ => 0⟩ := ⟨by simp, by simp⟩
    obtain ⟨⟨ret, errno, n, kind⟩, _, same⟩ :=
      read_accounted (request_written (.readFile path bytesRead) (idleBlock data 0)) rfl waits hs
    exact ⟨same, by rw [kind]; trivial⟩

theorem refusal_tooLong {call : Call} {out : Outcome} (h : call.refusal true = some out) :
    call.tooLong = true ∧ Accounted [.tooLong] out ∧ Delivered call [] out := by
  unfold Call.refusal at h
  cases long : call.tooLong with
  | false => simp [long] at h
  | true =>
    simp only [long, Bool.not_true, Bool.false_eq_true, ↓reduceIte, Option.some.injEq] at h
    subst h
    cases call with
    | accessFile | statFile =>
      exact ⟨rfl, ⟨by simp [Outcome.failed], fun _ => ⟨_, rfl, rfl⟩, by simp [Outcome.bytesRead]⟩,
        by simp [Delivered, Outcome.failed]⟩
    | readFile path bytesRead =>
      exact ⟨rfl, ⟨by simp [Outcome.failed], fun _ => ⟨_, rfl, rfl⟩, by simp [Outcome.bytesRead]⟩,
        trivial⟩

theorem refusal_short {call : Call} (h : call.refusal true = none) : call.tooLong = false := by
  cases long : call.tooLong with
  | false => rfl
  | true => simp [Call.refusal, long] at h

/-- A call is accounted for exactly if `ferror` showed the `errno` of every
`fseek` and `fread` that failed. -/
theorem run_accounted {data : U} {call : Call} {answers : List Answer} {out : Outcome}
    (h : call.run data answers = some out) :
    (Accounted (call.causes data answers) out ↔ call.candid data answers = true) ∧
      Delivered call answers out := by
  unfold Call.run at h
  split at h
  · rename_i refused
    split at h
    · cases h
      obtain ⟨long, accounted, delivered⟩ := refusal_tooLong refused
      have nil : answers = [] := by simpa using ‹answers.isEmpty = true›
      subst nil
      simpa [Call.causes, Call.candid, long] using ⟨accounted, delivered⟩
    · cases h
  · rename_i passed
    obtain ⟨accounted, delivered⟩ := alone_accounted h
    have short := refusal_short passed
    simpa [Call.causes, Call.candid, short, delivered] using accounted

/-! ## One client in the protocol -/

/-- The call a client has brought past the checks before `waitForIdle`. -/
def passed : ClientOut ⊕ ClientIn → Option Call
  | .inl (.unlocked call _) | .inl (.returned call _)
  | .inr (.waitForIdle call) | .inr (.callService call _) => some call
  | _ => none

/-- A call that is past the checks has passed them. -/
def Checked {C : Type} (s : Stages C U) : Prop :=
  ∀ c call, passed (s.stage (.client c)) = some call → call.refusal true = none

theorem begin_checked {e : Env} {call : Call} (h : passed (begin e).place.stage = some call) :
    call.refusal true = none := by
  unfold begin at h
  split at h
  · cases h
  · rename_i called _
    split at h
    · cases h
    · rename_i hr
      cases h
      cases ha : e.accessible with
      | true => rwa [ha] at hr
      | false => simp [Call.refusal, ha] at hr

variable {C : Type} [DecidableEq C]

theorem change_checked {s r : Stages C U} {l : Monitor.Label (Party C) Env} (h : Checked s)
    (step : Change s l r) : Checked r := by
  intro d call hd
  -- a client that moves, with the call it had before
  have moves : ∀ {c : C} {x : ClientOut ⊕ ClientIn}, (passed x = some call →
      passed (s.stage (.client c)) = some call ∨ call.refusal true = none) →
      passed ((s.put (.client c) x).stage (.client d)) = some call → call.refusal true = none := by
    intro c x keep now
    by_cases same : d = c
    · subst same
      rw [s.put_self] at now
      exact (keep now).elim (h d call) id
    · rw [s.put_other _ (by simpa using same)] at now
      exact h d call now
  cases step with
  | stutter => exact h d call hd
  | boot | idle => exact h d call (by simpa [Monitor.Stages.put] using hd)
  | serve => exact h d call hd
  | begin c e o at_ free => exact moves (fun now => .inr (begin_checked now)) hd
  | statement c e call u x at_ does | «return» c e call u out at_ does =>
    exact moves (fun now => .inl (by simpa [at_, passed] using now)) hd
  | «open» c e call at_ idle =>
    exact moves (fun now => .inl (by simpa [at_, passed] using now)) hd
  | again c e call f g b at_ ready does | unlock c e call f u b at_ ready does =>
    exact moves (fun now => .inl (by simpa [show _ = _ from at_, passed] using now)) hd
  | running l c x y at_ next =>
    refine moves (fun now => ?_) hd
    rcases next with rfl | rfl <;> cases now

omit [Abi U] [DecidableEq C] in
theorem sole_undisturbed [Subsingleton C] (s : Stages C U) (l : Monitor.Label (Party C) Env) :
    Undisturbed s l := by
  unfold Undisturbed
  split
  · rename_i c e
    intro opening d
    obtain rfl : c = d := Subsingleton.elim c d
    unfold Opening at opening
    unfold Reading
    split at opening
    · rename_i hs
      simp [hs]
    · cases opening
  · trivial

/-- What the call of an only client returns is what `Call.run` computes. -/
theorem sole_run [Subsingleton C] {data : U} {w : World C U} (h : Reachable data Anything w)
    {c : C} {call : Call} {out : Outcome}
    (at_ : w.place (.client c) = .outside (.returned call out)) : ∃ found answers,
      sessionOf c w.shared.log = some (call, found, answers) ∧
      call.run found answers = some out := by
  have told := (reachable_isolated (h.mono fun w l _ => sole_undisturbed w.stages l)).told c
  have checked : Checked w.stages :=
    h.always (fun c call => by simp [first, passed, Place.stage])
      fun _ _ _ ih step => change_checked ih (atomic_change step)
  obtain ⟨found, answers, session, ends⟩ : ∃ found answers,
      sessionOf c w.shared.log = some (call, found, answers) ∧
      alone found call answers = some out := by
    simpa [Told, at_, Place.stage] using told
  refine ⟨found, answers, session, ?_⟩
  rw [Call.run, checked c call (by simp [at_, Place.stage, passed])]
  exact ends

end

end Xposed.Membased
