import Xposed.Membased.Exclusion

/-!
# What one client's call owes to the others

A call copies its results out of the block in part while it owns the session
and in part after `makeIdle` has unlocked. While no session begins during those
last reads, each call ends as it would have ended alone.
-/

namespace Xposed.Membased

open Monitor (Anything Place)

section
variable {C U : Type} [DecidableEq C]

/-- The newest session of client `c` in a log: its call, the union as it found
it, and the looper's answers to its requests. -/
def sessionOf (c : C) : List (Event C U) → Option (Call × U × List Answer)
  | [] => none
  | .opened d call data :: older => if d = c then some (call, data, []) else sessionOf c older
  | .served _ a :: .called d _ :: older =>
    if d = c then (sessionOf c older).map fun (call, data, answers) => (call, data, answers ++ [a])
    else sessionOf c older
  | _ :: older => sessionOf c older

@[simp] theorem sessionOf_called (c d : C) (r : Request) (l : List (Event C U)) :
    sessionOf c (.called d r :: l) = sessionOf c l := by simp [sessionOf]

@[simp] theorem sessionOf_answered (c d : C) (l : List (Event C U)) :
    sessionOf c (.answered d :: l) = sessionOf c l := by simp [sessionOf]

@[simp] theorem sessionOf_closed (c d : C) (l : List (Event C U)) :
    sessionOf c (.closed d :: l) = sessionOf c l := by simp [sessionOf]

@[simp] theorem sessionOf_opened_self (c : C) (call : Call) (data : U) (l : List (Event C U)) :
    sessionOf c (.opened c call data :: l) = some (call, data, []) := by simp [sessionOf]

theorem sessionOf_opened_other {c d : C} (call : Call) (data : U) (l : List (Event C U))
    (h : d ≠ c) : sessionOf c (.opened d call data :: l) = sessionOf c l := by
  simp [sessionOf, h]

theorem sessionOf_opened {r : Request} (c : C) (call : Call) (data : U) (l : List (Event C U)) :
    sessionOf c (.called c r :: .opened c call data :: l) = some (call, data, []) := by simp

theorem sessionOf_served_self {c : C} {q : Option Request} {a : Answer} {r : Request}
    {l : List (Event C U)} {call : Call} {data : U} {answers : List Answer}
    (h : sessionOf c (.called c r :: l) = some (call, data, answers)) :
    sessionOf c (.served q a :: .called c r :: l) = some (call, data, answers ++ [a]) := by
  rw [sessionOf_called] at h
  simp [sessionOf, h]

theorem sessionOf_served_other {c d : C} (q : Option Request) (a : Answer) (r : Request)
    (l : List (Event C U)) (h : d ≠ c) :
    sessionOf c (.served q a :: .called d r :: l) = sessionOf c (.called d r :: l) := by
  simp [sessionOf, h]

end

section
variable {U : Type} [Abi U]

/-! ## A session in the middle -/

/-- The part of `session` that leads from one request to a later one. -/
def advance (f : Frame) (b : MemBasedState U) : List Answer → Option (Frame × MemBasedState U)
  | [] => some (f, b)
  | a :: rest =>
    match f.resume (respond a b) with
    | .again f' b' => advance f' b' rest
    | .unlock _ _ => none

theorem advance_again {f g h : Frame} {b b' b'' : MemBasedState U} {answers : List Answer}
    {a : Answer} (sofar : advance f b answers = some (g, b'))
    (next : g.resume (respond a b') = .again h b'') :
    advance f b (answers ++ [a]) = some (h, b'') := by
  induction answers generalizing f b with
  | nil =>
    cases sofar
    simp [advance, next]
  | cons x rest ih =>
    simp only [advance, List.cons_append] at sofar ⊢
    cases hx : f.resume (respond x b) with
    | again f' b₁ =>
      simp only [hx] at sofar ⊢
      exact ih sofar
    | unlock u b₁ => simp [hx] at sofar

theorem session_of_advance {f g : Frame} {b b' b'' : MemBasedState U} {answers : List Answer}
    {a : Answer} {u : Unlocked} (sofar : advance f b answers = some (g, b'))
    (last : g.resume (respond a b') = .unlock u b'') :
    session f b (answers ++ [a]) = some (u, b'') := by
  induction answers generalizing f b with
  | nil =>
    cases sofar
    simp [session, last]
  | cons x rest ih =>
    simp only [advance, session, List.cons_append] at sofar ⊢
    cases hx : f.resume (respond x b) with
    | again f' b₁ =>
      simp only [hx] at sofar ⊢
      exact ih sofar
    | unlock u b₁ => simp [hx] at sofar

/-! ## The statements after the unlock -/

/-- The statement or one behind it still reads the block. -/
def Unlocked.reads : Unlocked → Bool
  | .readReturn _ _ => false
  | _ => true

theorem Unlocked.finish_fixed {u : Unlocked} (h : u.reads = false) (b b' : MemBasedState U) :
    u.finish b = u.finish b' := by
  cases u with
  | readReturn => rfl
  | _ => simp [reads] at h

/-- A statement after a read of the block was preceded by one. -/
theorem Unlocked.reads_before {u v : Unlocked} {b : MemBasedState U} (h : u.step b = .inl v) :
    u.reads = true := by
  cases u with
  | readReturn => cases h
  | _ => rfl

end

section
variable {C U : Type} [Abi U] [DecidableEq C]

/-- The block holds call `call`'s request, or the answer to it, as after the
same answers without anybody else. -/
def Midway (b : MemBasedState U) (call : Call) (f : Frame) (data : U) (answers : List Answer) :
    Prop :=
  let opened := call.request (idleBlock data 0)
  (b.state = .serviceAction ∧ advance opened.1 opened.2 answers = some (f, b)) ∨
    (b.state = .serverResponse ∧ ∃ before a b', answers = before ++ [a] ∧
      advance opened.1 opened.2 before = some (f, b') ∧ b = respond a b')

/-- Where client `c` stands compared with a client that is alone. -/
def Told (s : Stages C U) (c : C) : Prop :=
  match s.stage (.client c) with
  | .inr (.callService call f) => ∃ data answers,
      sessionOf c s.shared.log = some (call, data, answers) ∧
      Midway s.shared.block call f data answers
  | .inl (.unlocked call u) => ∃ data answers,
      sessionOf c s.shared.log = some (call, data, answers) ∧
      (u.reads = true → s.shared.block.state = .idle) ∧
      alone data call answers = some (u.finish s.shared.block)
  | .inl (.returned call out) => ∃ data answers,
      sessionOf c s.shared.log = some (call, data, answers) ∧ alone data call answers = some out
  | .inl (.refused call accessible out) => call.refusal accessible = some out
  | _ => True

/-- Client `c` has unlocked and still has to read the block. -/
def Reading (s : Stages C U) (c : C) : Bool :=
  match s.stage (.client c) with
  | .inl (.unlocked _ u) => u.reads
  | _ => false

/-- Client `c`'s `waitForIdle` will return when it has the mutex next. -/
def Opening (s : Stages C U) (c : C) : Bool :=
  match s.stage (.client c) with
  | .inr (.waitForIdle _) => decide (s.shared.block.state = .idle)
  | _ => false

/-- No session begins while another call still has to read the block it has
unlocked. -/
def Undisturbed (s : Stages C U) : Monitor.Label (Party C) Env → Prop
  | .run (.client c) _ => Opening s c = true → ∀ d, Reading s d = false
  | _ => True

/-- What others do to the block does not matter to a client that is neither in
a session nor reading. -/
theorem Told.frame {s r : Stages C U} {c : C} (h : Told s c)
    (stage : r.stage (.client c) = s.stage (.client c))
    (log : sessionOf c r.shared.log = sessionOf c s.shared.log)
    (out : ∀ call f, ¬ InSession s c call f)
    (done : ∀ call u, s.stage (.client c) = .inl (.unlocked call u) → u.reads = false) :
    Told r c := by
  unfold Told at h ⊢
  rw [stage, log]
  cases hs : s.stage (.client c) with
  | inr i =>
    cases i with
    | callService call f => exact absurd hs (out call f)
    | _ => trivial
  | inl o =>
    rw [hs] at h
    cases o with
    | unlocked call u =>
      obtain ⟨data, answers, found, _, same⟩ := h
      have quiet := done call u hs
      refine ⟨data, answers, found, by simp [quiet], ?_⟩
      rw [same, Unlocked.finish_fixed quiet]
    | _ => exact h

theorem Told.same {s r : Stages C U} {c : C} (h : Told s c)
    (stage : r.stage (.client c) = s.stage (.client c)) (shared : r.shared = s.shared) :
    Told r c := by
  unfold Told at h ⊢
  rwa [stage, shared]

/-- A client that still reads has left the service idle. -/
theorem Told.quiet {s : Stages C U} {c : C} (h : Told s c) (busy : s.shared.block.state ≠ .idle) :
    ∀ call u, s.stage (.client c) = .inl (.unlocked call u) → u.reads = false := by
  intro call u hs
  simp only [Told, hs] at h
  obtain ⟨_, _, _, idle, _⟩ := h
  cases hr : u.reads
  · rfl
  · exact absurd (idle hr) busy

theorem told_request {s : Stages C U} {call : Call} {data : U} {answers : List Answer} {c : C}
    {f : Frame} (here : InSession s c call f)
    (found : sessionOf c s.shared.log = some (call, data, answers))
    (mid : Midway s.shared.block call f data answers) : Told s c := by
  unfold Told
  rw [show s.stage (.client c) = _ from here]
  exact ⟨data, answers, found, mid⟩

theorem Told.midway {s : Stages C U} {c : C} {call : Call} {f : Frame} (h : Told s c)
    (here : InSession s c call f) : ∃ data answers,
      sessionOf c s.shared.log = some (call, data, answers) ∧
      Midway s.shared.block call f data answers := by
  unfold Told at h
  rwa [show s.stage (.client c) = _ from here] at h

/-- The answer a client finds is the one to its own last request. -/
theorem Midway.answered {b : MemBasedState U} {call : Call} {f : Frame} {data : U}
    {answers : List Answer} (h : Midway b call f data answers) (ready : b.state = .serverResponse) :
    ∃ before a b', answers = before ++ [a] ∧
      advance (call.request (idleBlock data 0)).1 (call.request (idleBlock data 0)).2 before =
        some (f, b') ∧ b = respond a b' := by
  rcases h with ⟨asked, _⟩ | ⟨_, h⟩
  · exact State.noConfusion (ready.symm.trans asked)
  · exact h

theorem Midway.asked {b : MemBasedState U} {call : Call} {f : Frame} {data : U}
    {answers : List Answer} (h : Midway b call f data answers) (state : b.state = .serviceAction) :
    advance (call.request (idleBlock data 0)).1 (call.request (idleBlock data 0)).2 answers =
      some (f, b) := by
  rcases h with ⟨_, h⟩ | ⟨ready, _⟩
  · exact h
  · exact State.noConfusion (state.symm.trans ready)

theorem serve_told {s : Stages C U} {e : Env} {d : C} (stands : Stands s) (told : ∀ c, Told s c)
    (asked : s.shared.block.state = .serviceAction) :
    Told { s with
      shared := ⟨respond e.answer s.shared.block,
        .served s.shared.block.request e.answer :: s.shared.log⟩ } d := by
  obtain ⟨_, c, call, f, sole, log, _⟩ := stands.at_serviceAction asked
  obtain ⟨rest, head⟩ := log.asked_head
  by_cases same : d = c
  · subst same
    obtain ⟨data, answers, found, mid⟩ := (told d).midway sole.here
    refine told_request sole.here ?_
      (.inr ⟨rfl, answers, e.answer, _, rfl, mid.asked asked, rfl⟩)
    rw [head] at found ⊢
    exact sessionOf_served_self found
  · refine (told d).frame rfl ?_ (fun call' f' now => same (sole.only d call' f' now))
      ((told d).quiet (by simp [asked]))
    change sessionOf d (_ :: s.shared.log) = sessionOf d s.shared.log
    rw [head]
    exact sessionOf_served_other _ _ _ _ (Ne.symm same)

theorem idle_told {s : Stages C U} {d : C} (stands : Stands s) (told : ∀ c, Told s c)
    (off : s.stage .looper = .inr .starting) :
    Told { s.put .looper (.inr .loop) with
      shared := { s.shared with block := { s.shared.block with state := .idle } } } d := by
  have down : ¬ Started s := by simp [Started, off]
  cases stands with
  | notRunning state _ quiet =>
    have stays : (s.put .looper (.inr .loop)).stage (.client d) = s.stage (.client d) :=
      s.put_other _ (by simp)
    exact (told d).frame stays rfl (quiet d) ((told d).quiet (by simp [state]))
  | idle _ up | asked _ _ _ _ up | answered _ _ _ _ up => exact absurd up down

theorem begin_told {s : Stages C U} {c : C} {e : Env} :
    Told (s.put (.client c) (begin e).place.stage) c := by
  unfold Told
  rw [s.put_self]
  cases hs : e.start with
  | waitForRunning => simp [begin, hs, Monitor.Move.place, Place.stage]
  | call call =>
    cases hr : call.refusal e.accessible <;> simp [begin, hs, hr, Monitor.Move.place, Place.stage]

theorem statement_told {s : Stages C U} {c : C} {call : Call} {u x : Unlocked} (told : Told s c)
    (at_ : s.stage (.client c) = .inl (.unlocked call u)) (does : u.step s.shared.block = .inl x) :
    Told (s.put (.client c) (.inl (.unlocked call x))) c := by
  unfold Told at told ⊢
  rw [at_] at told
  rw [s.put_self]
  obtain ⟨data, answers, found, idle, same⟩ := told
  refine ⟨data, answers, found, fun _ => idle (Unlocked.reads_before does), ?_⟩
  rw [same]
  exact congrArg some ((u.step_finish s.shared.block).1 x does).symm

theorem return_told {s : Stages C U} {c : C} {call : Call} {u : Unlocked} {out : Outcome}
    (told : Told s c) (at_ : s.stage (.client c) = .inl (.unlocked call u))
    (does : u.step s.shared.block = .inr out) :
    Told (s.put (.client c) (.inl (.returned call out))) c := by
  unfold Told at told ⊢
  rw [at_] at told
  rw [s.put_self]
  obtain ⟨data, answers, found, _, same⟩ := told
  refine ⟨data, answers, found, ?_⟩
  rw [same]
  exact congrArg some ((u.step_finish s.shared.block).2 out does).symm

theorem open_told {s : Stages C U} {c : C} {call : Call} :
    Told { s.put (.client c) (.inr (.callService call (call.request s.shared.block).1)) with
      shared := ⟨(call.request s.shared.block).2,
        .called c (call.request s.shared.block).1.written ::
          .opened c call s.shared.block.data :: s.shared.log⟩ } c := by
  have here : InSession (s.put (.client c) (.inr (.callService call (call.request s.shared.block).1)))
      c call (call.request s.shared.block).1 := inSession_self.mpr rfl
  have mid : Midway (call.request s.shared.block).2 call (call.request s.shared.block).1
      s.shared.block.data [] := by
    refine .inl ⟨request_state call _, ?_⟩
    rw [← request_idleBlock]
    rfl
  exact told_request here (sessionOf_opened c call s.shared.block.data s.shared.log) mid

theorem again_told {s : Stages C U} {c : C} {call : Call} {f g : Frame} {b : MemBasedState U}
    (told : Told s c) (at_ : InSession s c call f) (ready : s.shared.block.state = .serverResponse)
    (does : f.resume s.shared.block = .again g b) :
    Told { s.put (.client c) (.inr (.callService call g)) with
      shared := ⟨b, .called c g.written :: .answered c :: s.shared.log⟩ } c := by
  obtain ⟨data, answers, found, mid⟩ := told.midway at_
  obtain ⟨before, a, b', rfl, sofar, same⟩ := mid.answered ready
  have here : InSession (s.put (.client c) (.inr (.callService call g))) c call g :=
    inSession_self.mpr rfl
  refine told_request here (by simpa using found) (.inl ⟨(resume_state f _).1 g b does, ?_⟩)
  exact advance_again sofar (same ▸ does)

theorem unlock_told {s : Stages C U} {c : C} {call : Call} {f : Frame} {u : Unlocked}
    {b : MemBasedState U} (told : Told s c) (at_ : InSession s c call f)
    (ready : s.shared.block.state = .serverResponse)
    (does : f.resume s.shared.block = .unlock u b) :
    Told { s.put (.client c) (.inl (.unlocked call u)) with
      shared := ⟨b, .closed c :: .answered c :: s.shared.log⟩ } c := by
  obtain ⟨data, answers, found, mid⟩ := told.midway at_
  obtain ⟨before, a, b', rfl, sofar, same⟩ := mid.answered ready
  unfold Told
  rw [show (s.put (.client c) (.inl (.unlocked call u))).stage (.client c) = _ from s.put_self _ _]
  refine ⟨data, before ++ [a], by simpa using found, fun _ => ((resume_state f _).2 u b does).1, ?_⟩
  have whole := session_of_advance sofar (same ▸ does)
  simp [alone, whole]

/-- A client that takes its answer changes nothing for the others. -/
theorem answered_aside {s : Stages C U} {c d : C} {call : Call} {f : Frame}
    {x : ClientOut ⊕ ClientIn} {b : MemBasedState U} {log : List (Event C U)} (stands : Stands s)
    (told : Told s d) (other : d ≠ c) (at_ : InSession s c call f)
    (ready : s.shared.block.state = .serverResponse)
    (same : sessionOf d log = sessionOf d s.shared.log) :
    Told { s.put (.client c) x with shared := ⟨b, log⟩ } d := by
  obtain ⟨_, sole, _⟩ := stands.answered_to ready at_
  have out : ∀ call' f', ¬ InSession s d call' f' := by
    intro call' f' now
    exact other (sole.only d call' f' now)
  have stays : (s.put (.client c) x).stage (.client d) = s.stage (.client d) :=
    s.put_other _ (by simpa using other)
  exact told.frame stays same out (told.quiet (by simp [ready]))

theorem change_told {s r : Stages C U} {l : Monitor.Label (Party C) Env} (stands : Stands s)
    (told : ∀ c, Told s c) (calm : Undisturbed s l) (step : Change s l r) : ∀ d, Told r d := by
  intro d
  -- a client whose stage a step leaves alone, with the shared memory as it was
  have bystander : ∀ {c : C} {x : ClientOut ⊕ ClientIn}, d ≠ c → Told (s.put (.client c) x) d :=
    fun other => (told d).same (s.put_other _ (by simpa using other)) rfl
  cases step with
  | stutter => exact told d
  | boot e off => exact (told d).same (s.put_other _ (by simp)) rfl
  | idle e off => exact idle_told stands told off
  | serve e up asked => exact serve_told stands told asked
  | begin c e o at_ free =>
    by_cases same : d = c
    · subst same
      exact begin_told
    · exact bystander same
  | statement c e call u x at_ does =>
    by_cases same : d = c
    · subst same
      exact statement_told (told d) at_ does
    · exact bystander same
  | «return» c e call u out at_ does =>
    by_cases same : d = c
    · subst same
      exact return_told (told d) at_ does
    · exact bystander same
  | «open» c e call at_ idle =>
    by_cases same : d = c
    · subst same
      exact open_told
    · obtain ⟨_, quiet, _⟩ := stands.at_idle idle
      have opening : Opening s c = true := by simp [Opening, at_, idle]
      refine (told d).frame (s.put_other _ (by simpa using same)) ?_ (quiet d) fun call' u now => ?_
      · simp [sessionOf_opened_other _ _ _ (Ne.symm same)]
      · simpa [Reading, now] using calm opening d
  | again c e call f g b at_ ready does =>
    by_cases same : d = c
    · subst same
      exact again_told (told d) at_ ready does
    · exact answered_aside stands (told d) same at_ ready (by simp)
  | unlock c e call f u b at_ ready does =>
    by_cases same : d = c
    · subst same
      exact unlock_told (told d) at_ ready does
    · exact answered_aside stands (told d) same at_ ready (by simp)
  | running l c x y at_ next =>
    by_cases same : d = c
    · subst same
      unfold Told
      rw [s.put_self]
      rcases next with rfl | rfl <;> trivial
    · exact bystander same

/-- Every client stands as if it were alone. -/
structure Isolated (s : Stages C U) : Prop where
  stands : Stands s
  told : ∀ c, Told s c

theorem reachable_isolated {data : U} {w : World C U}
    (h : Reachable data (fun w l => Undisturbed w.stages l) w) : Isolated w.stages := by
  apply h.atomic (fun _ _ calm => calm)
  · exact ⟨first_stands data, fun c => by simp [Told, first, Place.stage]⟩
  · intro s l r ih calm step
    have change := atomic_change step
    exact ⟨change_stands ih.stands change, change_told ih.stands ih.told calm change⟩

/-- **Calls end as if alone** in every run in which no session begins while
another call still reads the block it has unlocked: the return value, `errno`
and the content are those of the call's own session, with the answers the
looper gave to its own requests. -/
theorem calls_isolated {data : U} {w : World C U}
    (h : Reachable data (fun w l => Undisturbed w.stages l) w) (c : C) (call : Call) :
    (∀ out, w.place (.client c) = .outside (.returned call out) → ∃ found answers,
      sessionOf c w.shared.log = some (call, found, answers) ∧
      alone found call answers = some out) ∧
    (∀ accessible out, w.place (.client c) = .outside (.refused call accessible out) →
      call.refusal accessible = some out) := by
  have told := (reachable_isolated h).told c
  constructor
  · intro out at_
    simpa [Told, at_, Place.stage] using told
  · intro accessible out at_
    simpa [Told, at_, Place.stage] using told

end

instance (s : Stages Client Member) (l : Monitor.Label (Party Client) Env) :
    Decidable (Undisturbed s l) := by
  unfold Undisturbed
  split <;> infer_instance

theorem zygote_isolated : ∃ w, Monitor.execAll (code Client Member)
      (fun w l => Undisturbed w.stages l) (first Client Member.zero)
      (zygoteAsks ++ zygoteAnswered ++ zygoteReads) = some w ∧
    ∃ found answers, sessionOf .zygote w.shared.log = some (blocker, found, answers) ∧
      alone found blocker answers = some (.accessFile (-1) 2) := by
  obtain ⟨w, run, out⟩ : ∃ w, Monitor.execAll (code Client Member)
      (fun w l => Undisturbed w.stages l) (first Client Member.zero)
      (zygoteAsks ++ zygoteAnswered ++ zygoteReads) = some w ∧
      w.place (.client .zygote) = .outside (.returned blocker (.accessFile (-1) 2)) :=
    ⟨_, rfl, rfl⟩
  have reached := Monitor.execAll_reachable .start run
  exact ⟨w, run, (calls_isolated reached .zygote blocker).1 _ out⟩

/-- Zygote asks for a file that is missing and unlocks; the logcat child asks
for one that is there; then Zygote reads the result: its file is there. -/
theorem zygote_disturbed : ¬ ∀ w : World Client Member, Reachable Member.zero Anything w →
    ∀ c call out, w.place (.client c) = .outside (.returned call out) → ∃ found answers,
      sessionOf c w.shared.log = some (call, found, answers) ∧
      alone found call answers = some out := by
  intro isolated
  obtain ⟨w, run, out, session⟩ : ∃ w, Monitor.execAll (code Client Member) Anything
      (first Client Member.zero) (zygoteAsks ++ zygoteAnswered ++ logcatAsks ++ zygoteReads) =
        some w ∧
      w.place (.client .zygote) = .outside (.returned blocker (.accessFile 0 0)) ∧
      sessionOf .zygote w.shared.log = some (blocker, Member.zero, [accessAnswer missing]) :=
    ⟨_, rfl, rfl, rfl⟩
  obtain ⟨found, answers, same, ends⟩ :=
    isolated w (Monitor.execAll_reachable .start run) .zygote blocker _ out
  rw [session] at same
  cases same
  have truth : alone Member.zero blocker [accessAnswer missing] = some (.accessFile (-1) 2) := rfl
  rw [truth] at ends
  cases ends

end Xposed.Membased
