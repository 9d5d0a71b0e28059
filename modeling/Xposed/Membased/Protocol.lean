import Xposed.Lib.Monitor
import Xposed.Membased.Client

/-!
# The memory-based service as a monitor

The looper and the clients `C` as threads of one monitor, whose mutex is
`workerMutex` and whose condition variable is `workerCond`. A client calls the
service as often as it likes; `waitForRunning` is one more thing it can call.

Next to the block the shared memory has a log of what happened to it. No code
reads the log.
-/

namespace Xposed.Membased

open Monitor (Exit Move Section Place)

/-- The action and the request fields of the block, as the `switch` reads them. -/
inductive Request where
  | accessFile (path : Bytes) (mode : Int32)
  | statFile (path : Bytes)
  | readFile (path : Bytes) (offset : Int)
  deriving DecidableEq

def MemBasedState.request {U : Type} [Abi U] (b : MemBasedState U) : Option Request :=
  match b.action with
  | .opNone => none
  | .opAccessFile => some (.accessFile (Abi.accessFile b.data).path (Abi.accessFile b.data).mode)
  | .opStatFile => some (.statFile (Abi.statFile b.data).path)
  | .opReadFile => some (.readFile (Abi.readFile b.data).path (Abi.readFile b.data).offset)

/-- The request a call has made when it waits in `callService`. -/
def Frame.written : Frame → Request
  | .accessFile path mode => .accessFile path mode
  | .statFile path => .statFile path
  | .readFile _ path v => .readFile path v.offset

inductive Event (C U : Type) where
  /-- A client's `waitForIdle` returned; `data` is what it found in the union. -/
  | opened (c : C) (call : Call) (data : U)
  | called (c : C) (request : Request)
  /-- The looper ran its `switch`. -/
  | served (request : Option Request) (answer : Answer)
  /-- A client's `callService` returned. -/
  | answered (c : C)
  | closed (c : C)

/-- The log has its newest event first. -/
structure Shared (C U : Type) where
  block : MemBasedState U
  log : List (Event C U)

inductive Party (C : Type) where
  | looper
  | client (c : C)
  deriving DecidableEq

inductive LooperOut where
  | notStarted
  deriving DecidableEq

inductive LooperIn where
  /-- Before the looper has taken the mutex for the first time. -/
  | starting
  | loop
  deriving DecidableEq

inductive ClientOut where
  | idle
  | unlocked (call : Call) (u : Unlocked)
  | returned (call : Call) (out : Outcome)
  /-- The call returned before `waitForIdle`. -/
  | refused (call : Call) (accessible : Bool) (out : Outcome)
  | running (result : Bool)
  deriving DecidableEq

inductive ClientIn where
  | waitForIdle (call : Call)
  /-- Between the return of `waitForIdle` and `makeIdle`. -/
  | callService (call : Call) (f : Frame)
  | waitForRunning (timedOut : Bool)
  deriving DecidableEq

abbrev Out {C : Type} : Party C → Type
  | .looper => LooperOut
  | .client _ => ClientOut

abbrev In {C : Type} : Party C → Type
  | .looper => LooperIn
  | .client _ => ClientIn

inductive Start where
  | call (call : Call)
  | waitForRunning
  deriving DecidableEq

/-- What the environment decides in one step: what a client does next, what
`isServiceAccessible` says in its process, and what libc answers the looper. -/
structure Env where
  start : Start
  accessible : Bool
  answer : Answer

instance : Inhabited Answer where
  default := ⟨.ok (), .ok ⟨0, 0, 0⟩, .ok (), .ok, ⟨[], by simp, none, true⟩⟩

instance : Inhabited Env := ⟨⟨.waitForRunning, true, default⟩⟩

section
variable {C U : Type} [Abi U]

/-- A client that is not in a call makes one. -/
def begin (e : Env) : Move ClientOut ClientIn :=
  match e.start with
  | .waitForRunning => .lock (.waitForRunning false)
  | .call call =>
    match call.refusal e.accessible with
    | some out => .stay (.refused call e.accessible out)
    | none => .lock (.waitForIdle call)

def clientOutside (o : ClientOut) (e : Env) (s : Shared C U) : Option (Move ClientOut ClientIn) :=
  match o with
  | .unlocked call u =>
    match u.step s.block with
    | .inl u => some (.stay (.unlocked call u))
    | .inr out => some (.stay (.returned call out))
  | .idle | .returned _ _ | .refused _ _ _ | .running _ => some (begin e)

/-- `looper` between two places where it gives the mutex away. Its first stretch
and each answer end at the inner loop's test, which finds `STATE_IDLE` or
`STATE_SERVER_RESPONSE` and waits. -/
def looperInside (i : LooperIn) (e : Env) (s : Shared C U) :
    Section (Shared C U) LooperOut LooperIn :=
  match i with
  | .starting => ⟨{ s with block := { s.block with state := .idle } }, true, .wait .loop⟩
  | .loop =>
    if s.block.state ≠ .serviceAction then ⟨s, false, .wait .loop⟩
    else
      ⟨⟨respond e.answer s.block, .served s.block.request e.answer :: s.log⟩, true, .wait .loop⟩

/-- A client between two places where it gives the mutex away. -/
def clientInside (c : C) (i : ClientIn) (s : Shared C U) :
    Section (Shared C U) ClientOut ClientIn :=
  match i with
  | .waitForIdle call =>
    if s.block.state ≠ .idle then ⟨s, false, .wait (.waitForIdle call)⟩
    else
      let (f, b) := call.request s.block
      ⟨⟨b, .called c f.written :: .opened c call s.block.data :: s.log⟩, true,
        .wait (.callService call f)⟩
  | .callService call f =>
    if s.block.state ≠ .serverResponse then ⟨s, false, .wait (.callService call f)⟩
    else
      match f.resume s.block with
      | .again f b =>
        ⟨⟨b, .called c f.written :: .answered c :: s.log⟩, true, .wait (.callService call f)⟩
      | .unlock u b => ⟨⟨b, .closed c :: .answered c :: s.log⟩, true, .unlock (.unlocked call u)⟩
  | .waitForRunning timedOut =>
    if s.block.state = .notRunning ∧ timedOut = false then
      ⟨s, false, .wait (.waitForRunning timedOut)⟩
    else ⟨s, false, .unlock (.running (!timedOut))⟩

/-- What the wait loops of the looper and of the clients test for. The looper
waits nowhere but in its loop. -/
def awaits : ∀ t : Party C, In t → Shared C U → Prop
  | .looper, .starting, _ => True
  | .looper, .loop, s => s.block.state = .serviceAction
  | .client _, .waitForIdle _, s => s.block.state = .idle
  | .client _, .callService _ _, s => s.block.state = .serverResponse
  | .client _, .waitForRunning _, s => s.block.state ≠ .notRunning

/-- Everything a stretch of the looper can do. -/
inductive LooperTurn (e : Env) (s : Shared C U) :
    LooperIn → Section (Shared C U) LooperOut LooperIn → Prop where
  | start :
      LooperTurn e s .starting ⟨{ s with block := { s.block with state := .idle } }, true, .wait .loop⟩
  | wait (quiet : s.block.state ≠ .serviceAction) : LooperTurn e s .loop ⟨s, false, .wait .loop⟩
  | serve (asked : s.block.state = .serviceAction) :
      LooperTurn e s .loop
        ⟨⟨respond e.answer s.block, .served s.block.request e.answer :: s.log⟩, true, .wait .loop⟩

/-- Everything a stretch of a client can do. -/
inductive ClientTurn (c : C) (s : Shared C U) :
    ClientIn → Section (Shared C U) ClientOut ClientIn → Prop where
  | wait (i) (untrue : ¬ awaits (.client c) i s) : ClientTurn c s i ⟨s, false, .wait i⟩
  | open (call) (idle : s.block.state = .idle) :
      ClientTurn c s (.waitForIdle call)
        ⟨⟨(call.request s.block).2,
          .called c (call.request s.block).1.written :: .opened c call s.block.data :: s.log⟩, true,
          .wait (.callService call (call.request s.block).1)⟩
  | again (call f g b) (ready : s.block.state = .serverResponse)
      (does : f.resume s.block = .again g b) :
      ClientTurn c s (.callService call f)
        ⟨⟨b, .called c g.written :: .answered c :: s.log⟩, true, .wait (.callService call g)⟩
  | unlock (call f u b) (ready : s.block.state = .serverResponse)
      (does : f.resume s.block = .unlock u b) :
      ClientTurn c s (.callService call f)
        ⟨⟨b, .closed c :: .answered c :: s.log⟩, true, .unlock (.unlocked call u)⟩
  | running (timedOut) :
      ClientTurn c s (.waitForRunning timedOut) ⟨s, false, .unlock (.running (!timedOut))⟩

theorem looper_turn (i : LooperIn) (e : Env) (s : Shared C U) :
    LooperTurn e s i (looperInside i e s) := by
  cases i with
  | starting => exact .start
  | loop =>
    unfold looperInside
    dsimp only
    split
    · exact .wait ‹_›
    · rename_i asked
      exact .serve (not_not.mp asked)

theorem client_turn (c : C) (i : ClientIn) (s : Shared C U) :
    ClientTurn c s i (clientInside c i s) := by
  cases i with
  | waitForIdle call =>
    unfold clientInside
    dsimp only
    split
    · exact .wait _ ‹_›
    · rename_i idle
      exact .open call (not_not.mp idle)
  | callService call f =>
    unfold clientInside
    dsimp only
    split
    · exact .wait _ ‹_›
    · rename_i ready
      split
      · exact .again call f _ _ (not_not.mp ready) ‹_›
      · exact .unlock call f _ _ (not_not.mp ready) ‹_›
  | waitForRunning timedOut =>
    unfold clientInside
    dsimp only
    split
    · rename_i off
      exact .wait _ (not_not_intro off.1)
    · exact .running timedOut

def code (C U : Type) [Abi U] : Monitor.Code (Party C) (Shared C U) Env Out In where
  outside
    | .looper, _, _, _ => some (.lock .starting)
    | .client _, o, e, s => clientOutside o e s
  inside
    | .looper, i, e, s => looperInside i e s
    | .client c, i, _, s => clientInside c i s
  timeout
    | .client _, .waitForRunning _ => some (.waitForRunning true)
    | _, _ => none

abbrev World (C U : Type) := Monitor.World (Party C) (Shared C U) Out In

abbrev Stages (C U : Type) := Monitor.Stages (Party C) (Shared C U) Out In

/-- After `init`, before anybody has done anything. -/
def first (C : Type) {U : Type} (data : U) : World C U where
  shared := ⟨init data, []⟩
  owner := none
  place
    | .looper => .outside .notStarted
    | .client _ => .outside .idle

def Started {C U : Type} (s : Stages C U) : Prop := s.stage .looper = .inr .loop

/-- Client `c` is between its return from `waitForIdle` and its `makeIdle`. -/
def InSession {C U : Type} (s : Stages C U) (c : C) (call : Call) (f : Frame) : Prop :=
  s.stage (.client c) = .inr (.callService call f)

variable [DecidableEq C]

abbrev Reachable (data : U) (ok : World C U → Monitor.Label (Party C) Env → Prop)
    (w : World C U) : Prop :=
  Monitor.Reachable (code C U) (first C data) ok w

/-- Everything one step can do to the block, the log and the calls. -/
inductive Change (s : Stages C U) : Monitor.Label (Party C) Env → Stages C U → Prop where
  | stutter (l) : Change s l s
  | boot (e) (off : s.stage .looper = .inl .notStarted) :
      Change s (.move .looper e) (s.put .looper (.inr .starting))
  | idle (e) (off : s.stage .looper = .inr .starting) :
      Change s (.run .looper e)
        { s.put .looper (.inr .loop) with
          shared := { s.shared with block := { s.shared.block with state := .idle } } }
  | serve (e) (up : Started s) (asked : s.shared.block.state = .serviceAction) :
      Change s (.run .looper e)
        { s with
          shared := ⟨respond e.answer s.shared.block,
            .served s.shared.block.request e.answer :: s.shared.log⟩ }
  | begin (c e o) (at_ : s.stage (.client c) = .inl o) (free : ∀ call u, o ≠ .unlocked call u) :
      Change s (.move (.client c) e) (s.put (.client c) (begin e).place.stage)
  | statement (c e call u x) (at_ : s.stage (.client c) = .inl (.unlocked call u))
      (does : u.step s.shared.block = .inl x) :
      Change s (.move (.client c) e) (s.put (.client c) (.inl (.unlocked call x)))
  | return (c e call u out) (at_ : s.stage (.client c) = .inl (.unlocked call u))
      (does : u.step s.shared.block = .inr out) :
      Change s (.move (.client c) e) (s.put (.client c) (.inl (.returned call out)))
  | open (c e call) (at_ : s.stage (.client c) = .inr (.waitForIdle call))
      (idle : s.shared.block.state = .idle) :
      Change s (.run (.client c) e)
        { s.put (.client c) (.inr (.callService call (call.request s.shared.block).1)) with
          shared := ⟨(call.request s.shared.block).2,
            .called c (call.request s.shared.block).1.written ::
              .opened c call s.shared.block.data :: s.shared.log⟩ }
  | again (c e call f g b) (at_ : InSession s c call f)
      (ready : s.shared.block.state = .serverResponse)
      (does : f.resume s.shared.block = .again g b) :
      Change s (.run (.client c) e)
        { s.put (.client c) (.inr (.callService call g)) with
          shared := ⟨b, .called c g.written :: .answered c :: s.shared.log⟩ }
  | unlock (c e call f u b) (at_ : InSession s c call f)
      (ready : s.shared.block.state = .serverResponse)
      (does : f.resume s.shared.block = .unlock u b) :
      Change s (.run (.client c) e)
        { s.put (.client c) (.inl (.unlocked call u)) with
          shared := ⟨b, .closed c :: .answered c :: s.shared.log⟩ }
  | running (l c x y) (at_ : s.stage (.client c) = .inr (.waitForRunning x))
      (next : y = .inr (.waitForRunning true) ∨ y = .inl (.running (!x))) :
      Change s l (s.put (.client c) y)

theorem client_move {s : Stages C U} {c : C} {e : Env} {o : ClientOut} {m : Move ClientOut ClientIn}
    (at_ : s.stage (.client c) = .inl o) (does : clientOutside o e s.shared = some m) :
    Change s (.move (.client c) e) (s.put (.client c) m.place.stage) := by
  cases o with
  | unlocked call u =>
    cases hu : u.step s.shared.block with
    | inl x =>
      simp only [clientOutside, hu] at does
      cases does
      exact .statement c e call u x at_ hu
    | inr out =>
      simp only [clientOutside, hu] at does
      cases does
      exact .return c e call u out at_ hu
  | _ =>
    cases does
    exact .begin c e _ at_ (by simp)

theorem looper_run {s : Stages C U} {e : Env} {i : LooperIn} (at_ : s.stage .looper = .inr i) :
    Change s (.run .looper e)
      { s.put .looper (looperInside i e s.shared).exit.place.stage with
        shared := (looperInside i e s.shared).shared } := by
  have stays : s.put .looper (.inr i) = s := s.put_same at_
  have turn := looper_turn i e s.shared
  generalize looperInside i e s.shared = does at turn ⊢
  cases turn with
  | start => exact .idle e at_
  | wait quiet =>
    simpa [Exit.place, Place.stage, stays] using Change.stutter (s := s) (.run .looper e)
  | serve asked => simpa [Exit.place, Place.stage, stays] using Change.serve e at_ asked

theorem client_run {s : Stages C U} {c : C} {e : Env} {i : ClientIn}
    (at_ : s.stage (.client c) = .inr i) :
    Change s (.run (.client c) e)
      { s.put (.client c) (clientInside c i s.shared).exit.place.stage with
        shared := (clientInside c i s.shared).shared } := by
  have stays : s.put (.client c) (.inr i) = s := s.put_same at_
  have turn := client_turn c i s.shared
  generalize clientInside c i s.shared = does at turn ⊢
  cases turn with
  | wait =>
    simpa [Exit.place, Place.stage, stays] using Change.stutter (s := s) (.run (.client c) e)
  | «open» call idle => exact .open c e call at_ idle
  | again call f g b ready does => exact .again c e call f g b at_ ready does
  | unlock call f u b ready does => exact .unlock c e call f u b at_ ready does
  | running timedOut => exact .running _ c timedOut _ at_ (.inr rfl)

theorem atomic_change {s r : Stages C U} {l : Monitor.Label (Party C) Env}
    (step : Monitor.Atomic (code C U) s l r) : Change s l r := by
  cases step with
  | stutter => exact .stutter l
  | move t e o m at_ does =>
    cases t with
    | looper => cases does; exact .boot e at_
    | client c => exact client_move at_ does
  | run t e i at_ =>
    cases t with
    | looper => exact looper_run at_
    | client c => exact client_run at_
  | timeout t i j at_ expired =>
    cases t with
    | looper => cases expired
    | client c =>
      cases i with
      | waitForRunning x => cases expired; exact .running _ c x _ at_ (.inl rfl)
      | _ => cases expired

end

/-! ## Two clients -/

/-- Zygote and the logcat child. -/
inductive Client where
  | zygote
  | logcat
  deriving DecidableEq

instance (p : Client → Prop) [DecidablePred p] : Decidable (∀ c, p c) :=
  decidable_of_iff (p .zygote ∧ p .logcat)
    ⟨fun h c => by cases c; exacts [h.1, h.2], fun h => ⟨h _, h _⟩⟩

/-- What libc answers to a request for `access`. -/
def accessAnswer (access : Except Errno Unit) : Answer := { (default : Answer) with access := access }

def missing : Except Errno Unit := .error noEntry

/-- A call for the path `/a`. -/
def blocker : Call := .accessFile [47, 97] 0

def calls (call : Call) : Env := ⟨.call call, true, default⟩

/-- The looper starts, and Zygote asks for a file. -/
def zygoteAsks : List (Monitor.Label (Party Client) Env) :=
  [.move .looper default, .acquire .looper, .run .looper default,
   .move (.client .zygote) (calls blocker), .acquire (.client .zygote),
   .run (.client .zygote) default]

/-- The file is missing, and Zygote unlocks. -/
def zygoteAnswered : List (Monitor.Label (Party Client) Env) :=
  [.acquire .looper, .run .looper { (default : Env) with answer := accessAnswer missing },
   .acquire (.client .zygote), .run (.client .zygote) default]

/-- The logcat child asks for a file that is there. -/
def logcatAsks : List (Monitor.Label (Party Client) Env) :=
  [.move (.client .logcat) (calls (.accessFile [47, 98] 0)), .acquire (.client .logcat),
   .run (.client .logcat) default, .acquire .looper, .run .looper default]

/-- Zygote runs its two statements behind the unlock. -/
def zygoteReads : List (Monitor.Label (Party Client) Env) :=
  [.move (.client .zygote) default, .move (.client .zygote) default]

end Xposed.Membased
