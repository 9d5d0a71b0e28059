import Mathlib.Data.List.Basic
import Mathlib.Logic.Function.Basic
import Xposed.Lib.Run
import Xposed.Libc

/-!
# The log files of many starts

Each start of Zygote forks a daemon, which moves the log to the place of the old
one, creates a new one and writes to it until it ends. The daemons of earlier
starts may still write to theirs, and any of them may end anywhere.
-/

namespace Xposed.Logcat

/-- A daemon has `sent` so much to its file. -/
inductive Phase where
  | started
  | renamed
  | writing (file : Nat) (sent : Bytes)
  | ended (log : Option (Nat × Bytes))
  deriving DecidableEq

def Phase.log : Phase → Option (Nat × Bytes)
  | .started | .renamed => none
  | .writing file sent => some (file, sent)
  | .ended log => log

/-- The files there are or were, and which of them are found at `XPOSEDLOG` and
`XPOSEDLOG_OLD`. -/
structure LogFiles where
  files : List Bytes
  log : Option Nat
  old : Option Nat
  daemons : Nat → Option Phase
  /-- The logs created so far, the latest first. No code reads it. -/
  created : List Nat

inductive Event where
  | start (p : Nat)
  | rename (p : Nat)
  | create (p : Nat)
  | write (p : Nat) (buf : Bytes)
  /-- by itself, for an error or by a signal -/
  | ends (p : Nat)
  deriving DecidableEq

/-- What `write` at `offset` makes of a file. -/
def overwrite (content : Bytes) (offset : Nat) (buf : Bytes) : Bytes :=
  content.take offset ++ List.replicate (offset - content.length) 0 ++ buf ++
    content.drop (offset + buf.length)

theorem overwrite_end (content buf : Bytes) :
    overwrite content content.length buf = content ++ buf := by
  simp [overwrite]

namespace LogFiles

def put (w : LogFiles) (p : Nat) (phase : Phase) : LogFiles :=
  { w with daemons := Function.update w.daemons p (some phase) }

/-- `rename`. It does nothing where both are names of one file. -/
def moveLog (w : LogFiles) : LogFiles :=
  if w.log = none ∨ w.log = w.old then w else { w with log := none, old := w.log }

/-- `open` with `O_CREAT` and `O_TRUNC` -/
def openLog (w : LogFiles) : Nat × LogFiles :=
  match w.log with
  | some file => (file, { w with files := w.files.set file [], created := file :: w.created })
  | none =>
    let file := w.files.length
    (file, { w with files := w.files ++ [[]], log := some file, created := file :: w.created })

def exec (w : LogFiles) : Event → Option LogFiles
  | .start p =>
    match w.daemons p with
    | none => some (w.put p .started)
    | some _ => none
  | .rename p =>
    match w.daemons p with
    | some .started => some (w.moveLog.put p .renamed)
    | _ => none
  | .create p =>
    match w.daemons p with
    | some .renamed => some (w.openLog.2.put p (.writing w.openLog.1 []))
    | _ => none
  | .write p buf =>
    match w.daemons p with
    | some (.writing file sent) =>
      let files := w.files.modify file fun content => overwrite content sent.length buf
      some ({ w with files }.put p (.writing file (sent ++ buf)))
    | _ => none
  | .ends p => (w.daemons p).map fun phase => w.put p (.ended phase.log)

def wrote (w : LogFiles) (p : Nat) : Option (Nat × Bytes) := (w.daemons p).bind Phase.log

theorem wrote_put (w : LogFiles) (p : Nat) (phase : Phase) (q : Nat) :
    (w.put p phase).wrote q = if q = p then phase.log else w.wrote q := by
  by_cases same : q = p
  · subst same
    simp [wrote, put]
  · simp [wrote, put, same]

theorem wrote_of_daemon {w : LogFiles} {p : Nat} {phase : Phase} (h : w.daemons p = some phase) :
    w.wrote p = phase.log := by
  rw [wrote, h, Option.bind_some]

/-- No daemon renames the log while another is about to create one. -/
def Alone (w : LogFiles) : Event → Prop
  | .rename _ => ∀ q, w.daemons q ≠ some .renamed
  | _ => True

/-- The names are those of the latest logs. -/
def Named (w : LogFiles) : Prop :=
  (w.log = w.created.head? ∧ w.old = w.created.tail.head?) ∨
    (w.log = none ∧ w.old = w.created.head?)

/-- Before the first start. -/
structure Fresh (w : LogFiles) : Prop where
  none : ∀ p, w.daemons p = none
  named : w.Named
  there : ∀ f ∈ w.created, f < w.files.length
  nodup : w.created.Nodup

structure Apart (w : LogFiles) : Prop where
  content : ∀ p f sent, w.wrote p = some (f, sent) → w.files[f]? = some sent
  own : ∀ p q f sent sent', w.wrote p = some (f, sent) → w.wrote q = some (f, sent') → p = q
  one : ∀ p q, w.daemons p = some .renamed → w.daemons q = some .renamed → p = q
  moved : ∀ p, w.daemons p = some .renamed → w.log = none
  named : w.Named
  there : ∀ f ∈ w.created, f < w.files.length
  nodup : w.created.Nodup

theorem Fresh.apart {w : LogFiles} (h : w.Fresh) : w.Apart where
  content p f sent hp := by
    rw [wrote, h.none p] at hp
    cases hp
  own p q f sent sent' hp := by
    rw [wrote, h.none p] at hp
    cases hp
  one p q hp := by
    rw [h.none p] at hp
    cases hp
  moved p hp := by
    rw [h.none p] at hp
    cases hp
  named := h.named
  there := h.there
  nodup := h.nodup

section
variable {w v : LogFiles} {p : Nat} {phase : Phase}

theorem daemons_put_ne {q : Nat} (other : phase ≠ .renamed)
    (h : (w.put p phase).daemons q = some .renamed) : q ≠ p ∧ w.daemons q = some .renamed := by
  by_cases same : q = p
  · subst same
    simp only [put, Function.update_self, Option.some.injEq] at h
    exact absurd h other
  · exact ⟨same, by simpa [put, same] using h⟩

/-- The file of another daemon is not that of daemon `p`. -/
theorem Apart.other {q f g : Nat} {sent sent' : Bytes} (h : w.Apart)
    (mine : w.wrote p = some (g, sent')) (ne : q ≠ p) (hq : w.wrote q = some (f, sent)) : g ≠ f := by
  rintro rfl
  exact ne (h.own q p _ sent sent' hq mine)

/-- A daemon that goes on without a change to the files. -/
theorem Apart.put (h : w.Apart) (same : phase.log = none ∨ phase.log = w.wrote p)
    (other : phase ≠ .renamed) : (w.put p phase).Apart := by
  have wrote : ∀ q f sent, (w.put p phase).wrote q = some (f, sent) → w.wrote q = some (f, sent) := by
    intro q f sent hq
    rw [wrote_put] at hq
    split at hq
    · rename_i here
      subst here
      rcases same with nothing | same
      · rw [nothing] at hq
        cases hq
      · exact same.symm.trans hq
    · exact hq
  refine ⟨?_, ?_, ?_, ?_, h.named, h.there, h.nodup⟩
  · intro q f sent hq
    exact h.content q f sent (wrote q f sent hq)
  · intro q r f sent sent' hq hr
    exact h.own q r f sent sent' (wrote q f sent hq) (wrote r f sent' hr)
  · intro q r hq hr
    exact h.one q r (daemons_put_ne other hq).2 (daemons_put_ne other hr).2
  · intro q hq
    exact h.moved q (daemons_put_ne other hq).2

/-- No file has both names. -/
theorem Apart.moveLog_eq (h : w.Apart) :
    w.moveLog = { w with log := none, old := w.created.head? } := by
  obtain ⟨files, log, old, daemons, created⟩ := w
  have nodup : created.Nodup := h.nodup
  unfold moveLog
  rcases h.named with ⟨first, second⟩ | ⟨first, second⟩
  · dsimp only at first second ⊢
    subst first second
    cases created with
    | nil => rfl
    | cons f rest =>
      cases rest with
      | nil => simp
      | cons g rest =>
        have other : f ≠ g := by
          rintro rfl
          exact (List.nodup_cons.mp nodup).1 List.mem_cons_self
        simp [other]
  · dsimp only at first second ⊢
    subst first second
    simp

theorem Apart.rename (h : w.Apart) (alone : ∀ q, w.daemons q ≠ some .renamed) (p : Nat)
    (started : w.daemons p = some .started) : (w.moveLog.put p .renamed).Apart := by
  have only : ∀ q, (w.moveLog.put p .renamed).daemons q = some .renamed → q = p := by
    intro q hq
    by_contra ne
    rw [h.moveLog_eq] at hq
    exact alone q (by simpa [LogFiles.put, ne] using hq)
  have wrote : ∀ q, (w.moveLog.put p .renamed).wrote q = w.wrote q := by
    intro q
    rw [wrote_put]
    split
    · rename_i here
      subst here
      exact (wrote_of_daemon started).symm
    · rw [h.moveLog_eq]
      rfl
  refine ⟨?_, ?_, ?_, ?_, ?_, ?_, ?_⟩
  · intro q f sent hq
    rw [wrote] at hq
    rw [h.moveLog_eq]
    exact h.content q f sent hq
  · intro q r f sent sent' hq hr
    rw [wrote] at hq hr
    exact h.own q r f sent sent' hq hr
  · intro q r hq hr
    exact (only q hq).trans (only r hr).symm
  · intro q _
    rw [h.moveLog_eq]
    rfl
  · rw [h.moveLog_eq]
    exact .inr ⟨rfl, rfl⟩
  · rw [h.moveLog_eq]
    exact h.there
  · rw [h.moveLog_eq]
    exact h.nodup

theorem Apart.create (h : w.Apart) (renamed : w.daemons p = some .renamed) :
    (w.openLog.2.put p (.writing w.openLog.1 [])).Apart := by
  have absent := h.moved p renamed
  obtain ⟨files, log, old, daemons, created⟩ := w
  dsimp only at absent renamed
  subst absent
  have older : ∀ q f sent, (LogFiles.mk files none old daemons created).wrote q = some (f, sent) →
      f < files.length := by
    intro q f sent hq
    exact (List.getElem?_eq_some_iff.mp (h.content q f sent hq)).1
  have gone : ∀ q, q ≠ p → daemons q ≠ some .renamed := fun q ne hq => ne (h.one q p hq renamed)
  refine ⟨?_, ?_, ?_, ?_, ?_, ?_, ?_⟩
  · intro q f sent hq
    rw [wrote_put] at hq
    split at hq
    · cases hq
      simp [LogFiles.put, openLog]
    · have before := h.content q f sent hq
      exact (List.getElem?_append_left (older q f sent hq)).trans before
  · intro q r f sent sent' hq hr
    rw [wrote_put] at hq hr
    split at hq <;> split at hr
    · rename_i first second
      exact first.trans second.symm
    · cases hq
      exact absurd (older r _ _ hr) (Nat.lt_irrefl _)
    · cases hr
      exact absurd (older q _ _ hq) (Nat.lt_irrefl _)
    · exact h.own q r f sent sent' hq hr
  · intro q r hq _
    obtain ⟨ne, renamed⟩ := daemons_put_ne Phase.noConfusion hq
    exact absurd renamed (gone q ne)
  · intro q hq
    obtain ⟨ne, renamed⟩ := daemons_put_ne Phase.noConfusion hq
    exact absurd renamed (gone q ne)
  · refine .inl ⟨rfl, ?_⟩
    rcases h.named with ⟨first, second⟩ | ⟨_, second⟩
    · have nothing : created = [] := List.head?_eq_none_iff.mp first.symm
      subst nothing
      exact second
    · exact second
  · intro f hf
    have there := h.there
    simp only [LogFiles.put, openLog, List.length_append, List.length_singleton] at hf ⊢
    rcases List.mem_cons.mp hf with rfl | hf
    · exact Nat.lt_succ_self _
    · exact Nat.lt_succ_of_lt (there f hf)
  · refine List.nodup_cons.mpr ⟨fun old => ?_, h.nodup⟩
    exact absurd (h.there _ old) (Nat.lt_irrefl _)

theorem Apart.write {file : Nat} {sent : Bytes} (h : w.Apart)
    (writes : w.daemons p = some (.writing file sent)) (buf : Bytes) :
    ({ w with files := w.files.modify file fun content => overwrite content sent.length buf }.put p
      (.writing file (sent ++ buf))).Apart := by
  have mine : w.wrote p = some (file, sent) := wrote_of_daemon writes
  refine ⟨?_, ?_, ?_, ?_, h.named, ?_, h.nodup⟩
  · intro q f sent' hq
    rw [wrote_put] at hq
    split at hq
    · cases hq
      have before := h.content p file sent mine
      simp [LogFiles.put, before, overwrite_end]
    · rename_i ne
      have other := h.other mine ne hq
      have before := h.content q f sent' hq
      simp [LogFiles.put, before, other]
  · intro q r f sent' sent'' hq hr
    rw [wrote_put] at hq hr
    split at hq <;> split at hr
    · rename_i first second
      exact first.trans second.symm
    · rename_i ne
      cases hq
      exact absurd rfl (h.other mine ne hr)
    · rename_i ne _
      cases hr
      exact absurd rfl (h.other mine ne hq)
    · exact h.own q r f sent' sent'' hq hr
  · intro q r hq hr
    exact h.one q r (daemons_put_ne Phase.noConfusion hq).2 (daemons_put_ne Phase.noConfusion hr).2
  · intro q hq
    exact h.moved q (daemons_put_ne Phase.noConfusion hq).2
  · intro f hf
    have there := h.there f hf
    simpa [LogFiles.put] using there

theorem Apart.step {e : Event} (h : w.Apart) (alone : w.Alone e) (does : w.exec e = some v) :
    v.Apart := by
  cases e with
  | start p =>
    simp only [exec] at does
    split at does
    · cases does
      exact h.put (.inl rfl) Phase.noConfusion
    · cases does
  | rename p =>
    simp only [exec] at does
    split at does
    · rename_i started
      cases does
      exact h.rename alone p started
    · cases does
  | create p =>
    simp only [exec] at does
    split at does
    · rename_i renamed
      cases does
      exact h.create renamed
    · cases does
  | write p buf =>
    simp only [exec] at does
    split at does
    · rename_i writes
      cases does
      exact h.write writes buf
    · cases does
  | ends p =>
    obtain ⟨phase, before, rfl⟩ := Option.map_eq_some_iff.mp does
    exact h.put (.inr (wrote_of_daemon before).symm) Phase.noConfusion

end

/-- **Each start has its own log**, which holds just what its daemon wrote,
however many others write to theirs, and the log and the old log are the two
latest, or the old one is the latest while the next is not yet there: as long as
no daemon moves the log right before another creates one. -/
theorem logs_rotate (first w : LogFiles) (fresh : first.Fresh)
    (run : Run.Reachable (fun w e v => exec w e = some v) first Alone w) :
    (∀ p f sent, w.wrote p = some (f, sent) → w.files[f]? = some sent) ∧
      (∀ p q f sent sent', w.wrote p = some (f, sent) → w.wrote q = some (f, sent') → p = q) ∧
      w.Named := by
  have apart : w.Apart := run.invariant Apart fresh.apart
    fun _ _ _ _ apart alone does => apart.step alone does
  exact ⟨apart.content, apart.own, apart.named⟩

/-- The log of the boot before is there. -/
def oneBootBefore : LogFiles := ⟨[[64]], some 0, none, fun _ => none, [0]⟩

theorem oneBootBefore_fresh : oneBootBefore.Fresh :=
  ⟨fun _ => rfl, .inl ⟨rfl, rfl⟩, by decide, by decide⟩

theorem alone_of_two {w : LogFiles} (rest : ∀ q, q ≠ 1 → q ≠ 2 → w.daemons q = none)
    (one : w.daemons 1 ≠ some .renamed) (two : w.daemons 2 ≠ some .renamed) (q : Nat) :
    w.daemons q ≠ some .renamed := by
  by_cases first : q = 1
  · rwa [first]
  · by_cases second : q = 2
    · rwa [second]
    · rw [rest q first second]
      exact nofun

/-- The daemon of a first start still writes while that of a second one does. -/
theorem two_starts : ∃ w : LogFiles, w.files = [[64], [65, 66, 68], [67]] ∧ w.log = some 2 ∧
    w.old = some 1 ∧ w.Named := by
  have run : Run.Reachable (fun w e v => exec w e = some v) oneBootBefore Alone oneBootBefore := .start
  have run := run.next (l := Event.start 1) trivial rfl
  have run := run.next (l := Event.rename 1)
    (alone_of_two (fun q first _ => by simp [put, oneBootBefore, first]) (by decide) (by decide)) rfl
  have run := run.next (l := Event.create 1) trivial rfl
  have run := run.next (l := Event.write 1 [65]) trivial rfl
  have run := run.next (l := Event.start 2) trivial rfl
  have run := run.next (l := Event.rename 2)
    (alone_of_two (fun q first second => by simp [put, openLog, moveLog, oneBootBefore, first, second])
      (by decide) (by decide)) rfl
  have run := run.next (l := Event.write 1 [66]) trivial rfl
  have run := run.next (l := Event.create 2) trivial rfl
  have run := run.next (l := Event.write 2 [67]) trivial rfl
  have run := run.next (l := Event.write 1 [68]) trivial rfl
  have run := run.next (l := Event.ends 1) trivial rfl
  exact ⟨_, rfl, rfl, rfl, (logs_rotate _ _ oneBootBefore_fresh run).2.2⟩

end LogFiles

end Xposed.Logcat
