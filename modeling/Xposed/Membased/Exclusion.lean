import Xposed.Membased.Protocol

/-!
# One session at a time

The state field and the mutex together keep the sessions apart: the block is
idle, or exactly one client is between its `waitForIdle` and its `makeIdle` and
the block holds that client's request or the looper's answer to it.
-/

namespace Xposed.Membased

open Monitor (Anything Place Step step_atomic)

section
variable {U : Type} [Abi U]

/-! ## The request fields -/

theorem request_written (call : Call) (b : MemBasedState U) :
    (call.request b).2.request = some (call.request b).1.written := by
  cases call <;> simp [Call.request, MemBasedState.request, callService, Frame.written]

/-- The looper writes out-fields only. -/
theorem respond_request (a : Answer) (b : MemBasedState U) :
    (respond a b).request = b.request := by
  have control := (serve_control a b).2
  cases hb : b.action with
  | opNone => simp [MemBasedState.request, respond, serve, hb]
  | opAccessFile =>
    cases ha : a.access <;>
      simp [MemBasedState.request, respond, serve, serveAccessFile, hb, ha]
  | opStatFile =>
    cases ha : a.stat <;> simp [MemBasedState.request, respond, serve, serveStatFile, hb, ha]
  | opReadFile =>
    cases hs : a.stat with
    | error e => simp [MemBasedState.request, respond, serve, serveReadFile, hb, hs]
    | ok st =>
      cases ho : a.fopen with
      | error e => simp [MemBasedState.request, respond, serve, serveReadFile, hb, hs, ho]
      | ok _ =>
        cases hk : seek a (Abi.readFile b.data).offset <;>
          simp [MemBasedState.request, respond, serve, serveReadFile, hb, hs, ho, hk]

/-- A call that goes on has written its next request. -/
theorem resume_written {f g : Frame} {b b' : MemBasedState U} (h : f.resume b = .again g b')
    (asked : b.request = some f.written) : b'.request = some g.written := by
  cases f with
  | accessFile => cases h
  | statFile => cases h
  | readFile looping path v =>
    have same : (Abi.readFile b.data).path = path := by
      unfold MemBasedState.request at asked
      split at asked <;> simp_all [Frame.written]
    have turned := h ▸ resume_turned looping path v b
    cases turned with
    | again b' clear fits more asks member =>
      simp [MemBasedState.request, asks.action, member, same, Frame.written]

end

/-! ## The log -/

/-- What the newest events of the log leave open. -/
inductive Pending (C : Type) where
  | none
  | asked (c : C) (r : Request)
  | served (c : C) (r : Request)

/-- A request is followed by one run of the `switch` on that request, and that
by the return of the `callService` that made it. -/
inductive Rounds {C U : Type} : List (Event C U) → Pending C → Prop where
  | nil : Rounds [] .none
  | opened {l} (c call data) : Rounds l .none → Rounds (.opened c call data :: l) .none
  | called {l} (c r) : Rounds l .none → Rounds (.called c r :: l) (.asked c r)
  | served {l c r} (a) : Rounds l (.asked c r) → Rounds (.served (some r) a :: l) (.served c r)
  | answered {l c r} : Rounds l (.served c r) → Rounds (.answered c :: l) .none
  | closed {l} (c) : Rounds l .none → Rounds (.closed c :: l) .none

/-- Each `callService` is answered by exactly one run of the `switch`, on the
request it made, and no `switch` runs for anything else. -/
structure AnsweredOnce {C U : Type} (log : List (Event C U)) : Prop where
  /-- What came after a request: nothing yet, or one answer and then the return. -/
  answer : ∀ newer c r older, log = newer ++ .called c r :: older →
    newer = [] ∨ (∃ a, newer = [.served (some r) a]) ∨
      ∃ a rest, newer = rest ++ [.answered c, .served (some r) a]
  request : ∀ newer q a older, log = newer ++ .served q a :: older →
    ∃ c r rest, q = some r ∧ older = .called c r :: rest
  back : ∀ newer c older, log = newer ++ .answered c :: older →
    ∃ r a rest, older = .served (some r) a :: .called c r :: rest

section
variable {C U : Type}

theorem Rounds.asked_head {l : List (Event C U)} {c : C} {r : Request} (h : Rounds l (.asked c r)) :
    ∃ rest, l = .called c r :: rest := by
  cases h
  exact ⟨_, rfl⟩

theorem Rounds.served_head {l : List (Event C U)} {c : C} {r : Request}
    (h : Rounds l (.served c r)) : ∃ a rest, l = .served (some r) a :: .called c r :: rest := by
  cases h with
  | served a h =>
    obtain ⟨rest, rfl⟩ := h.asked_head
    exact ⟨a, rest, rfl⟩

/-- What stands in a log stands in the log it grew from. -/
theorem Rounds.suffix {l newer older : List (Event C U)} {p : Pending C} (h : Rounds l p)
    (split : l = newer ++ older) : ∃ q, Rounds older q := by
  induction newer generalizing l p with
  | nil => exact ⟨p, by simpa [split] using h⟩
  | cons e newer ih =>
    subst split
    cases h with
    | opened _ _ _ h | called _ _ h | served _ h | answered h | closed _ h => exact ih h rfl

/-- Right behind a request the `switch` runs on it. -/
theorem Rounds.behind_called {l : List (Event C U)} {e : Event C U} {c : C} {r : Request}
    {p : Pending C} (h : Rounds (e :: .called c r :: l) p) : ∃ a, e = .served (some r) a := by
  cases h with
  | served a h =>
    cases h
    exact ⟨a, rfl⟩
  | opened _ _ _ h | called _ _ h | answered h | closed _ h => cases h

/-- Right behind the `switch` the `callService` that asked returns. -/
theorem Rounds.behind_served {l : List (Event C U)} {e : Event C U} {c : C} {r : Request}
    {a : Answer} {p : Pending C} (h : Rounds (e :: .served (some r) a :: .called c r :: l) p) :
    e = .answered c := by
  cases h with
  | answered h =>
    cases h with
    | served _ h =>
      cases h
      rfl
  | opened _ _ _ h | called _ _ h | served _ h | closed _ h => cases h

theorem Rounds.answer {l : List (Event C U)} {p : Pending C} (h : Rounds l p) :
    ∀ newer c r older, l = newer ++ .called c r :: older →
      newer = [] ∨ (∃ a, newer = [.served (some r) a]) ∨
        ∃ a rest, newer = rest ++ [.answered c, .served (some r) a] := by
  intro newer c r older split
  rcases List.eq_nil_or_concat newer with rfl | ⟨rest, x, rfl⟩
  · exact .inl rfl
  · have ends : l = rest ++ (x :: .called c r :: older) := by simp [split]
    obtain ⟨_, first⟩ := h.suffix ends
    obtain ⟨a, rfl⟩ := first.behind_called
    rcases List.eq_nil_or_concat rest with rfl | ⟨rest, y, rfl⟩
    · exact .inr (.inl ⟨a, rfl⟩)
    · have ends : l = rest ++ (y :: .served (some r) a :: .called c r :: older) := by simp [split]
      obtain ⟨_, second⟩ := h.suffix ends
      obtain rfl := second.behind_served
      exact .inr (.inr ⟨a, rest, by simp⟩)

theorem Rounds.once {l : List (Event C U)} {p : Pending C} (h : Rounds l p) : AnsweredOnce l where
  answer := h.answer
  request newer q a older split := by
    obtain ⟨_, h⟩ := h.suffix split
    cases h with
    | served _ h =>
      obtain ⟨rest, rfl⟩ := h.asked_head
      exact ⟨_, _, rest, rfl, rfl⟩
  back newer c older split := by
    obtain ⟨_, h⟩ := h.suffix split
    cases h with
    | answered h =>
      obtain ⟨a, rest, rfl⟩ := h.served_head
      exact ⟨_, a, rest, rfl⟩

end

/-! ## The invariant -/

/-- Client `c` is the only one in a session. -/
structure Sole {C U : Type} (s : Stages C U) (c : C) (call : Call) (f : Frame) : Prop where
  here : InSession s c call f
  only : ∀ d call' f', InSession s d call' f' → d = c

def NoSession {C U : Type} (s : Stages C U) : Prop := ∀ c call f, ¬ InSession s c call f

/-- What each value of the state field stands for. -/
inductive Stands {C U : Type} [Abi U] (s : Stages C U) : Prop where
  | notRunning (state : s.shared.block.state = .notRunning) (off : ¬ Started s)
      (quiet : NoSession s) (log : Rounds s.shared.log .none)
  | idle (state : s.shared.block.state = .idle) (up : Started s)
      (quiet : NoSession s) (log : Rounds s.shared.log .none)
  | asked (c call f) (state : s.shared.block.state = .serviceAction) (up : Started s)
      (sole : Sole s c call f) (log : Rounds s.shared.log (.asked c f.written))
      (wrote : s.shared.block.request = some f.written)
  | answered (c call f) (state : s.shared.block.state = .serverResponse) (up : Started s)
      (sole : Sole s c call f) (log : Rounds s.shared.log (.served c f.written))
      (wrote : s.shared.block.request = some f.written)

section
variable {C U : Type} [DecidableEq C]

theorem inSession_looper {s : Stages C U} {x : LooperOut ⊕ LooperIn} {d : C} {call : Call}
    {f : Frame} : InSession (s.put .looper x) d call f ↔ InSession s d call f := by
  unfold InSession
  rw [s.put_other _ (by simp)]

theorem started_client {s : Stages C U} {c : C} {x : ClientOut ⊕ ClientIn} :
    Started (s.put (.client c) x) ↔ Started s := by
  unfold Started
  rw [s.put_other _ (by simp)]

theorem inSession_other {s : Stages C U} {c d : C} {x : ClientOut ⊕ ClientIn} {call : Call}
    {f : Frame} (h : d ≠ c) : InSession (s.put (.client c) x) d call f ↔ InSession s d call f := by
  unfold InSession
  rw [s.put_other _ (by simpa using h)]

theorem inSession_self {s : Stages C U} {c : C} {x : ClientOut ⊕ ClientIn} {call : Call}
    {f : Frame} :
    InSession (s.put (.client c) x) c call f ↔ x = .inr (.callService call f) := by
  unfold InSession
  rw [s.put_self]

theorem put_started {s : Stages C U} {m : Shared C U} {c : C} {x : ClientOut ⊕ ClientIn}
    (up : Started s) : Started { s.put (.client c) x with shared := m } := by
  have h := (started_client (s := s) (c := c) (x := x)).mpr up
  exact h

/-- A client that enters a session nobody else is in has it for itself. -/
theorem sole_put {s : Stages C U} {m : Shared C U} {c : C} {call : Call} {f : Frame}
    (others : ∀ d call' f', d ≠ c → ¬ InSession s d call' f') :
    Sole { s.put (.client c) (.inr (.callService call f)) with shared := m } c call f where
  here := inSession_self.mpr rfl
  only d call' f' now := by
    by_contra other
    exact others d call' f' other ((inSession_other other).mp now)

/-- A client that moves outside a session changes nobody's session. -/
theorem inSession_aside {s : Stages C U} {c : C} {x : ClientOut ⊕ ClientIn}
    (before : ∀ call f, ¬ InSession s c call f) (after : ∀ call f, x ≠ .inr (.callService call f))
    {d : C} {call : Call} {f : Frame} :
    InSession (s.put (.client c) x) d call f ↔ InSession s d call f := by
  by_cases h : d = c
  · subst h
    rw [inSession_self]
    exact ⟨fun now => absurd now (after call f), fun now => absurd now (before call f)⟩
  · exact inSession_other h

end

section
variable {C U : Type} [Abi U]

/-- `Stands` reads the shared memory, the looper's start and the sessions. -/
theorem Stands.of_same {s r : Stages C U} (h : Stands s) (shared : r.shared = s.shared)
    (started : Started r ↔ Started s)
    (sessions : ∀ d call f, InSession r d call f ↔ InSession s d call f) : Stands r := by
  have quiet : NoSession s → NoSession r :=
    fun q c call f now => q c call f ((sessions c call f).mp now)
  have sole : ∀ c call f, Sole s c call f → Sole r c call f := by
    intro c call f q
    exact ⟨(sessions c call f).mpr q.here, fun d _ _ now => q.only d _ _ ((sessions _ _ _).mp now)⟩
  cases h with
  | notRunning state off q log =>
    exact .notRunning (by rw [shared, state]) (started.not.mpr off) (quiet q) (shared ▸ log)
  | idle state up q log =>
    exact .idle (by rw [shared, state]) (started.mpr up) (quiet q) (shared ▸ log)
  | asked c call f state up q log wrote =>
    exact .asked c call f (by rw [shared, state]) (started.mpr up) (sole c call f q)
      (shared ▸ log) (shared ▸ wrote)
  | answered c call f state up q log wrote =>
    exact .answered c call f (by rw [shared, state]) (started.mpr up) (sole c call f q)
      (shared ▸ log) (shared ▸ wrote)

theorem Stands.at_idle {s : Stages C U} (h : Stands s) (state : s.shared.block.state = .idle) :
    Started s ∧ NoSession s ∧ Rounds s.shared.log .none := by
  cases h with
  | idle _ up quiet log => exact ⟨up, quiet, log⟩
  | notRunning now | asked _ _ _ now | answered _ _ _ now => simp [state] at now

theorem Stands.at_serviceAction {s : Stages C U} (h : Stands s)
    (state : s.shared.block.state = .serviceAction) :
    Started s ∧ ∃ c call f, Sole s c call f ∧ Rounds s.shared.log (.asked c f.written) ∧
      s.shared.block.request = some f.written := by
  cases h with
  | asked c call f _ up sole log wrote => exact ⟨up, c, call, f, sole, log, wrote⟩
  | notRunning now | idle now | answered _ _ _ now => simp [state] at now

theorem Stands.at_serverResponse {s : Stages C U} (h : Stands s)
    (state : s.shared.block.state = .serverResponse) :
    Started s ∧ ∃ c call f, Sole s c call f ∧ Rounds s.shared.log (.served c f.written) ∧
      s.shared.block.request = some f.written := by
  cases h with
  | answered c call f _ up sole log wrote => exact ⟨up, c, call, f, sole, log, wrote⟩
  | notRunning now | idle now | asked _ _ _ now => simp [state] at now

/-- The client of an answer is the one that asked. -/
theorem Stands.answered_to {s : Stages C U} (h : Stands s)
    (state : s.shared.block.state = .serverResponse) {c : C} {call : Call} {f : Frame}
    (here : InSession s c call f) :
    Started s ∧ Sole s c call f ∧ Rounds s.shared.log (.served c f.written) ∧
      s.shared.block.request = some f.written := by
  obtain ⟨up, d, call', g, sole, log, wrote⟩ := h.at_serverResponse state
  obtain rfl := sole.only c call f here
  have same : ClientIn.callService call f = .callService call' g :=
    Sum.inr.inj (here.symm.trans sole.here)
  cases same
  exact ⟨up, sole, log, wrote⟩

theorem clientInside_unlock {c : C} {call : Call} {f : Frame} {m : Shared C U} {o : ClientOut}
    (exit : (clientInside c (.callService call f) m).exit = .unlock o) :
    (clientInside c (.callService call f) m).shared.block.state = .idle ∧
      (clientInside c (.callService call f) m).shared.block.action = .opNone := by
  have turn := client_turn c (.callService call f) m
  generalize clientInside c (.callService call f) m = does at turn exit ⊢
  cases turn with
  | wait | again => cases exit
  | unlock call f u b ready does => exact (resume_state f _).2 u b does

theorem clientInside_not_refused {c : C} {i : ClientIn} {m : Shared C U} {call : Call}
    {accessible : Bool} {out : Outcome} :
    (clientInside c i m).exit ≠ .unlock (.refused call accessible out) := by
  intro exit
  have turn := client_turn c i m
  generalize clientInside c i m = does at turn exit
  cases turn <;> cases exit

theorem first_stands (data : U) : Stands (first C data).stages :=
  .notRunning rfl (by simp [Started, first, Monitor.Place.stage])
    (by simp [NoSession, InSession, first, Monitor.Place.stage]) .nil

variable [DecidableEq C]

theorem Stands.aside {s : Stages C U} (h : Stands s) {c : C} {x : ClientOut ⊕ ClientIn}
    (before : ∀ call f, ¬ InSession s c call f) (after : ∀ call f, x ≠ .inr (.callService call f)) :
    Stands (s.put (.client c) x) :=
  h.of_same rfl started_client fun _ _ _ => inSession_aside before after

/-- The looper never leaves its loop. -/
theorem change_started {s r : Stages C U} {l : Monitor.Label (Party C) Env} (up : Started s)
    (step : Change s l r) : Started r := by
  cases step with
  | stutter | serve => exact up
  | boot e off => simp [Started, off] at up
  | idle e off => simp [Started, off] at up
  | begin | statement | «return» | «open» | again | unlock | running => exact put_started up

theorem change_stands {s r : Stages C U} {l : Monitor.Label (Party C) Env} (h : Stands s)
    (step : Change s l r) : Stands r := by
  cases step with
  | stutter => exact h
  | boot e off =>
    refine h.of_same rfl ?_ fun _ _ _ => inSession_looper
    simp [Started, off]
  | idle e off =>
    have down : ¬ Started s := by simp [Started, off]
    cases h with
    | notRunning state _ quiet log =>
      have up : Started (s.put .looper (.inr .loop)) := s.put_self .looper _
      have still : NoSession (s.put .looper (.inr .loop)) :=
        fun c call f now => quiet c call f (inSession_looper.mp now)
      exact .idle rfl up still log
    | idle _ up | asked _ _ _ _ up | answered _ _ _ _ up => exact absurd up down
  | serve e up asked =>
    obtain ⟨_, c, call, f, sole, log, wrote⟩ := h.at_serviceAction asked
    refine .answered c call f rfl up ⟨sole.here, sole.only⟩ ?_ (by simpa [respond_request] using wrote)
    simpa [wrote] using Rounds.served e.answer log
  | begin c e o at_ free =>
    refine h.aside (by simp [InSession, at_]) fun call f => ?_
    unfold begin
    split
    · simp [Monitor.Move.place, Monitor.Place.stage]
    · split <;> simp [Monitor.Move.place, Monitor.Place.stage]
  | statement c e call u x at_ _ => exact h.aside (by simp [InSession, at_]) (by simp)
  | «return» c e call u out at_ _ => exact h.aside (by simp [InSession, at_]) (by simp)
  | «open» c e call at_ idle =>
    obtain ⟨up, quiet, log⟩ := h.at_idle idle
    exact .asked c call _ (request_state call _) (put_started up)
      (sole_put fun d call' f' _ => quiet d call' f')
      (.called c _ (.opened c call _ log)) (request_written call _)
  | again c e call f g b at_ ready does =>
    obtain ⟨up, sole, log, wrote⟩ := h.answered_to ready at_
    exact .asked c call g ((resume_state f _).1 g b does) (put_started up)
      (sole_put fun d call' f' other now => other (sole.only d call' f' now))
      (.called c _ (.answered log)) (resume_written does wrote)
  | unlock c e call f u b at_ ready does =>
    obtain ⟨up, sole, log, _⟩ := h.answered_to ready at_
    have quiet : NoSession (s.put (.client c) (.inl (.unlocked call u))) := by
      intro d call' f' now
      by_cases same : d = c
      · subst same
        simpa using inSession_self.mp now
      · exact same (sole.only d call' f' ((inSession_other same).mp now))
    exact .idle ((resume_state f _).2 u b does).1 (put_started up) quiet (.closed c (.answered log))
  | running l c x y at_ next =>
    refine h.aside (by simp [InSession, at_]) ?_
    rcases next with rfl | rfl <;> simp

theorem reachable_stands {data : U} {w : World C U}
    {ok : World C U → Monitor.Label (Party C) Env → Prop} (h : Reachable data ok w) :
    Stands w.stages :=
  h.always (first_stands data) fun _ _ _ ih step => change_stands ih (atomic_change step)

/-! ## The protocol's guarantees -/

section
omit [DecidableEq C]
variable {s : Stages C U}

theorem Stands.one (h : Stands s) {c d : C} {call call' : Call} {f f' : Frame}
    (hc : InSession s c call f) (hd : InSession s d call' f') : c = d := by
  cases h with
  | notRunning _ _ quiet | idle _ _ quiet => exact absurd hc (quiet c call f)
  | asked e _ _ _ _ sole | answered e _ _ _ _ sole =>
    rw [sole.only c call f hc, sole.only d call' f' hd]

/-- The block holds a request or an answer only while exactly one client is in a
session. -/
theorem Stands.busy (h : Stands s)
    (busy : s.shared.block.state = .serviceAction ∨ s.shared.block.state = .serverResponse) :
    ∃! c, ∃ call f, InSession s c call f := by
  have someone : ∃ c call f, Sole s c call f := by
    rcases busy with asked | answered
    · obtain ⟨_, c, call, f, sole, _⟩ := h.at_serviceAction asked
      exact ⟨c, call, f, sole⟩
    · obtain ⟨_, c, call, f, sole, _⟩ := h.at_serverResponse answered
      exact ⟨c, call, f, sole⟩
  obtain ⟨c, call, f, sole⟩ := someone
  refine ⟨c, ⟨call, f, sole.here⟩, ?_⟩
  rintro d ⟨call', f', now⟩
  exact sole.only d call' f' now

theorem Stands.running (h : Stands s) (up : Started s) : s.shared.block.state ≠ .notRunning := by
  intro off
  cases h with
  | notRunning _ down => exact down up
  | idle now | asked _ _ _ now | answered _ _ _ now => simp [off] at now

theorem Stands.once (h : Stands s) : AnsweredOnce s.shared.log := by
  cases h with
  | notRunning _ _ _ log | idle _ _ _ log | asked _ _ _ _ _ _ log | answered _ _ _ _ _ _ log =>
    exact log.once

/-- What the looper will answer next is the newest request of the client in the
session. -/
theorem Stands.next (h : Stands s) (asked : s.shared.block.state = .serviceAction) :
    ∃ c call f rest, InSession s c call f ∧ s.shared.log = .called c f.written :: rest ∧
      s.shared.block.request = some f.written := by
  obtain ⟨_, c, call, f, sole, log, wrote⟩ := h.at_serviceAction asked
  obtain ⟨rest, head⟩ := log.asked_head
  exact ⟨c, call, f, rest, sole.here, head, wrote⟩

end

/-- A call gets out of its session by an unlock that leaves the service idle,
whichever way it ends. -/
theorem unlocks_idle {w v : World C U} {l : Monitor.Label (Party C) Env} {c : C} {call : Call}
    {f : Frame} {o : ClientOut} (step : Step (code C U) w l v) (before : InSession w.stages c call f)
    (after : v.place (.client c) = .outside o) :
    v.owner = none ∧ v.shared.block.state = .idle ∧ v.shared.block.action = .opNone := by
  obtain ⟨a, exit, rfl⟩ := Monitor.step_unlocks step before after
  exact ⟨rfl, clientInside_unlock exit⟩

/-- A call that is refused before `waitForIdle` changes nothing that is shared. -/
theorem refusal_keeps {w v : World C U} {l : Monitor.Label (Party C) Env} {c : C} {call : Call}
    {accessible : Bool} {out : Outcome} (step : Step (code C U) w l v)
    (before : w.place (.client c) ≠ .outside (.refused call accessible out))
    (after : v.place (.client c) = .outside (.refused call accessible out)) :
    v.shared = w.shared := by
  cases step with
  | move | acquire | wake | timeout => rfl
  | run t a i at_ =>
    exfalso
    by_cases ht : .client c = t
    · subst ht
      have entered : (w.place (.client c)).stage = .inr i := by simp [at_, Place.stage]
      obtain ⟨_, exit, _⟩ := Monitor.step_unlocks (.run w _ a i at_) entered after
      exact clientInside_not_refused exit
    · rw [w.finish_other _ ht] at after
      split at after
      · cases hp : w.place (.client c) <;> simp_all [Place.signal]
      · exact before after

/-- **The sessions of the memory-based service**, in every reachable state and
for any number of clients: at most one client is in a session; the block holds
a request or an answer only while exactly one is; a started looper never shows
as not running; each `callService` gets exactly one run of the `switch`, on the
request it wrote; a session ends with the service idle; and a refused call
leaves the block alone. -/
theorem sessions_exclusive {data : U} {w : World C U} (h : Reachable data Anything w) :
    (∀ c d call call' f f', InSession w.stages c call f → InSession w.stages d call' f' → c = d) ∧
    (w.shared.block.state = .serviceAction ∨ w.shared.block.state = .serverResponse →
      ∃! c, ∃ call f, InSession w.stages c call f) ∧
    (Started w.stages → w.shared.block.state ≠ .notRunning ∧
      ∀ l v, Step (code C U) w l v → Started v.stages) ∧
    AnsweredOnce w.shared.log ∧
    (w.shared.block.state = .serviceAction → ∃ c call f rest, InSession w.stages c call f ∧
      w.shared.log = .called c f.written :: rest ∧ w.shared.block.request = some f.written) ∧
    (∀ l v c call f o, Step (code C U) w l v → InSession w.stages c call f →
      v.place (.client c) = .outside o →
      v.owner = none ∧ v.shared.block.state = .idle ∧ v.shared.block.action = .opNone) ∧
    (∀ l v c call accessible out, Step (code C U) w l v →
      w.place (.client c) ≠ .outside (.refused call accessible out) →
      v.place (.client c) = .outside (.refused call accessible out) → v.shared = w.shared) := by
  have inv := reachable_stands h
  refine ⟨?_, inv.busy, ?_, inv.once, inv.next, ?_, ?_⟩
  · intro c d call call' f f' hc hd
    exact inv.one hc hd
  · intro up
    refine ⟨inv.running up, ?_⟩
    intro l v step
    exact change_started up (atomic_change (step_atomic step))
  · intro l v c call f o step before after
    exact unlocks_idle step before after
  · intro l v c call accessible out step before after
    exact refusal_keeps step before after

end

theorem zygote_sole : ∃ w, Monitor.execAll (code Client Member) Anything
      (first Client Member.zero) zygoteAsks = some w ∧
    (∃! c, ∃ call f, InSession w.stages c call f) ∧ AnsweredOnce w.shared.log := by
  obtain ⟨w, run, asked⟩ : ∃ w, Monitor.execAll (code Client Member) Anything
      (first Client Member.zero) zygoteAsks = some w ∧
      w.shared.block.state = .serviceAction := ⟨_, rfl, rfl⟩
  obtain ⟨_, busy, _, once, _⟩ := sessions_exclusive (Monitor.execAll_reachable .start run)
  exact ⟨w, run, busy (.inl asked), once⟩

end Xposed.Membased
