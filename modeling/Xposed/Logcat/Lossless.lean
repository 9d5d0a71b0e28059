import Xposed.Logcat.Daemon

/-!
# What the daemon loses

The log that is meant, line by line, against the one that the loop over chunks
of 511 bytes writes. The two agree at every moment exactly if no line is cut at
a place where its chunks are taken for something else than the line is.
-/

namespace Xposed.Logcat

open Lines (chunks lines IsLine)
open Fork (ascii)

/-! ## The log that is meant -/

/-- The lines after the first one with both texts, without those that begin with `-`. -/
def wanted (marker : Bytes) (ls : List Bytes) : Bytes :=
  ((ls.dropWhile fun l => ¬ IsMarker marker l).tail.filter fun l => ¬ Dashed l).flatten

/-- The whole text, or its beginning with the notice, as soon as the limit is exceeded. -/
def Copied (text log : Bytes) : Prop :=
  log = text ∧ text.length ≤ XPOSEDLOG_MAX_SIZE ∨
    ∃ body, log = body ++ limitNotice ∧ body <+: text ∧ XPOSEDLOG_MAX_SIZE < body.length ∧
      body.length < XPOSEDLOG_MAX_SIZE + bufSize

def CopiesLog (marker stream : Bytes) : Prop :=
  Copied (wanted marker (lines newline stream)) (runDaemon marker stream).logfile

/-- Whatever of the stream has come yet, the log is what is meant. -/
def Lossless (marker stream : Bytes) : Prop := ∀ front, front <+: stream → CopiesLog marker front

/-- The loop sees both texts in one chunk of the line. -/
def Spotted (marker l : Bytes) : Prop :=
  ∃ chunk ∈ pieces l, ¬ Dashed chunk ∧ IsMarker marker chunk

/-- A chunk of the line begins with `-` exactly if the line does, unless the limit
has been exceeded before it. The log has `n` bytes when the line begins. -/
def ChunksOk (n : Nat) (dashed : Prop) [Decidable dashed] (ps : List Bytes) : Prop :=
  ∀ front chunk back, ps = front ++ chunk :: back →
    n + (if dashed then 0 else front.flatten.length) ≤ XPOSEDLOG_MAX_SIZE → (Dashed chunk ↔ dashed)

/-- How line `l` is cut makes no difference, after the lines `before`. -/
structure LineOk (marker : Bytes) (before : List Bytes) (l : Bytes) : Prop where
  /-- After the chunk in which the loop sees both texts it looks at no other one of the line. -/
  found : (∀ b ∈ before, ¬ Spotted marker b) → ∀ front chunk back,
    pieces l = front ++ chunk :: back → ¬ Dashed chunk → IsMarker marker chunk →
      ∀ buf ∈ back, Dashed buf
  /-- While the loop has missed the marker there is nothing to copy. -/
  missed : (∀ b ∈ before, ¬ Spotted marker b) → (∃ b ∈ before, IsMarker marker b) → Dashed l
  copied : (∃ b ∈ before, Spotted marker b) →
    ChunksOk (wanted marker before).length (Dashed l) (pieces l)

theorem wanted_snoc (marker : Bytes) (before : List Bytes) (l : Bytes) :
    wanted marker (before ++ [l]) = wanted marker before ++
      if (∃ b ∈ before, IsMarker marker b) ∧ ¬ Dashed l then l else [] := by
  unfold wanted
  induction before with
  | nil =>
    by_cases both : IsMarker marker l
    · simp [both]
    · simp [both]
  | cons b before ih =>
    by_cases both : IsMarker marker b
    · by_cases dashed : Dashed l
      · simp [both, dashed]
      · simp [both, dashed]
    · simpa [both] using ih

theorem flatten_pieces (l : Bytes) : (pieces l).flatten = l :=
  Lines.flatten_chunks newline (by decide) l

theorem spotted_marker {marker l : Bytes} (h : Spotted marker l) : IsMarker marker l := by
  obtain ⟨chunk, member, _, both⟩ := h
  have inside : chunk <:+: l := by
    rw [← flatten_pieces l]
    exact List.infix_of_mem_flatten member
  exact ⟨both.1.trans inside, both.2.trans inside⟩

/-! ## The chunks of one line -/

theorem shown_append (xs ys : List Bytes) : shown (xs ++ ys) = shown xs ++ shown ys :=
  List.filter_append ..

theorem mem_shown {xs : List Bytes} {x : Bytes} : x ∈ shown xs ↔ x ∈ xs ∧ ¬ Dashed x := by
  simp [shown]

theorem shown_eq_nil {xs : List Bytes} : shown xs = [] ↔ ∀ x ∈ xs, Dashed x := by
  simp [shown, List.filter_eq_nil_iff]

theorem shown_eq_nil_of_flatten {xs : List Bytes} (some : ∀ x ∈ xs, x ≠ [])
    (nothing : (shown xs).flatten = []) : shown xs = [] := by
  apply List.eq_nil_iff_forall_not_mem.mpr
  intro x member
  exact some x (mem_shown.mp member).1 (List.flatten_eq_nil_iff.mp nothing x member)

theorem shown_eq_self {xs : List Bytes} (h : ∀ x ∈ xs, ¬ Dashed x) : shown xs = xs :=
  List.filter_eq_self.mpr fun x hx => by simpa using h x hx

/-- The first chunk that begins with `-` is skipped. -/
theorem shown_skips {front : List Bytes} {p : Bytes} (back : List Bytes)
    (plain : ∀ q ∈ front, ¬ Dashed q) (first : Dashed p) :
    shown (front ++ p :: back) = front ++ shown back := by
  rw [shown_append, shown_eq_self plain]
  simp [shown, first]

theorem shown_length (xs : List Bytes) : (shown xs).flatten.length ≤ xs.flatten.length := by
  induction xs with
  | nil => exact Nat.le_refl 0
  | cons x xs ih =>
    by_cases dashed : Dashed x
    · simp [shown, dashed] at ih ⊢
      omega
    · simp [shown, dashed] at ih ⊢
      omega

/-- All chunks are as they should be, or there is a first one that begins with `-`. -/
theorem first_dashed (ps : List Bytes) :
    (∀ p ∈ ps, ¬ Dashed p) ∨
      ∃ front p back, ps = front ++ p :: back ∧ (∀ q ∈ front, ¬ Dashed q) ∧ Dashed p := by
  cases first : ps.find? fun p => Dashed p with
  | none => exact .inl (by simpa using List.find?_eq_none.mp first)
  | some p =>
    obtain ⟨dashed, front, back, same, before⟩ := List.find?_eq_some_iff_append.mp first
    exact .inr ⟨front, p, back, same, by simpa using before, by simpa using dashed⟩

section
variable {n : Nat} {ps : List Bytes}

theorem chunksOk_of_dashed (within : n ≤ XPOSEDLOG_MAX_SIZE) {dashed : Prop} [Decidable dashed]
    (h : dashed) : ChunksOk n dashed ps ↔ shown ps = [] := by
  rw [shown_eq_nil]
  constructor
  · intro ok p member
    obtain ⟨front, back, same⟩ := List.append_of_mem member
    exact (ok front p back same (by simpa [h] using within)).mpr h
  · intro all front chunk back same _
    exact iff_of_true (all chunk (by simp [same])) h

/-- Only the first chunk that begins with `-` matters, and only within the limit. -/
theorem chunksOk_of_plain {dashed : Prop} [Decidable dashed] (h : ¬ dashed)
    {front back : List Bytes} {p : Bytes} (plain : ∀ q ∈ front, ¬ Dashed q) (first : Dashed p) :
    ChunksOk n dashed (front ++ p :: back) ↔
      XPOSEDLOG_MAX_SIZE < n + front.flatten.length := by
  constructor
  · intro ok
    by_contra within
    have same := ok front p back rfl (by simp only [h, if_false]; omega)
    exact h (same.mp first)
  · intro far front' chunk back' same within
    simp only [h, if_false] at within
    refine iff_of_false (fun bad => ?_) h
    rcases Lines.split_cases same with ⟨more, rfl, _⟩ | ⟨rfl, _⟩ | ⟨more, rfl, _⟩
    · exact plain chunk (by simp) bad
    · omega
    · rw [List.flatten_append, List.length_append] at within
      omega

/-- The text that belongs into the log of a line with the chunks `ps`. -/
def share (dashed : Prop) [Decidable dashed] (ps : List Bytes) : Bytes :=
  if dashed then [] else ps.flatten

/-- The chunks that are written are the line, if the limit is kept. -/
theorem shown_share_iff {dashed : Prop} [Decidable dashed] (some : ∀ p ∈ ps, p ≠ [])
    (fits : n + (shown ps).flatten.length ≤ XPOSEDLOG_MAX_SIZE) :
    (shown ps).flatten = share dashed ps ↔ ChunksOk n dashed ps := by
  by_cases h : dashed
  · rw [chunksOk_of_dashed (by omega) h, share, if_pos h]
    constructor
    · exact shown_eq_nil_of_flatten some
    · intro nothing
      rw [nothing]
      rfl
  · rw [share, if_neg h]
    rcases first_dashed ps with plain | ⟨front, p, back, rfl, plain, first⟩
    · rw [shown_eq_self plain]
      refine iff_of_true rfl fun front chunk back same _ => ?_
      exact iff_of_false (plain chunk (by simp [same])) h
    · rw [chunksOk_of_plain h plain first]
      have skipped := shown_skips back plain first
      rw [skipped, List.flatten_append, List.length_append] at fits
      rw [skipped]
      refine iff_of_false (fun same => ?_) (by omega)
      have lost := List.length_pos_iff.mpr (some p (by simp))
      have rest := shown_length back
      have lengths := congrArg List.length same
      simp only [List.flatten_append, List.flatten_cons, List.length_append] at lengths
      omega

/-- What is written instead of a chunk that is skipped begins with something else. -/
theorem not_prefix_dashed {more : List Bytes} {last p rest : Bytes}
    (kept : ∀ x ∈ more ++ [last], x ≠ [] ∧ ¬ Dashed x) (first : Dashed p) :
    ¬ more.flatten ++ last <+: p ++ rest := by
  obtain ⟨p, rfl⟩ : ∃ p', p = 45 :: p' := by
    cases p with
    | nil => cases first
    | cons c p =>
      cases first
      exact ⟨p, rfl⟩
  have head : ∀ x rest', x ≠ [] ∧ ¬ Dashed x → ¬ x ++ rest' <+: 45 :: p ++ rest := by
    rintro x rest' ⟨some, plain⟩ copied
    cases x with
    | nil => exact some rfl
    | cons c x =>
      obtain ⟨rfl, _⟩ := List.cons_prefix_cons.mp copied
      exact plain rfl
  cases more with
  | nil =>
    have alone := head last [] (kept last (by simp))
    rwa [List.append_nil] at alone
  | cons x more =>
    have front := head x (more.flatten ++ last) (kept x (by simp))
    rwa [List.flatten_cons, List.append_assoc]

/-- The same up to the chunk that exceeds the limit. -/
theorem shown_share_limit_iff {dashed : Prop} [Decidable dashed] (some : ∀ p ∈ ps, p ≠ [])
    {f b : List Bytes} {last : Bytes} (same : shown ps = f ++ last :: b)
    (fits : n + f.flatten.length ≤ XPOSEDLOG_MAX_SIZE)
    (exceeds : XPOSEDLOG_MAX_SIZE < n + f.flatten.length + last.length) :
    f.flatten ++ last <+: share dashed ps ↔ ChunksOk n dashed ps := by
  have kept : ∀ p ∈ shown ps, p ≠ [] ∧ ¬ Dashed p := by
    intro p member
    obtain ⟨inside, plain⟩ := mem_shown.mp member
    exact ⟨some p inside, plain⟩
  have there := List.length_pos_iff.mpr (kept last (by simp [same])).1
  by_cases h : dashed
  · rw [chunksOk_of_dashed (by omega) h, share, if_pos h, same]
    refine iff_of_false (fun nothing => ?_) (by simp)
    have short := nothing.length_le
    rw [List.length_append, List.length_nil] at short
    omega
  · rw [share, if_neg h]
    rcases first_dashed ps with plain | ⟨front, p, back, rfl, plain, first⟩
    · rw [shown_eq_self plain] at same
      refine iff_of_true ?_ fun front chunk back whole _ => ?_
      · rw [same]
        exact ⟨b.flatten, by simp⟩
      · exact iff_of_false (plain chunk (by simp [whole])) h
    · rw [chunksOk_of_plain h plain first]
      have skipped := shown_skips back plain first
      rw [skipped] at same kept
      by_cases inside : ∃ more, front = f ++ last :: more
      · obtain ⟨more, rfl⟩ := inside
        refine iff_of_true ⟨more.flatten ++ p ++ back.flatten, by simp⟩ ?_
        simp only [List.flatten_append, List.flatten_cons, List.length_append]
        omega
      · -- the loop goes on past the chunk that it skips
        obtain ⟨more, rfl, rest⟩ : ∃ more, f = front ++ more ∧ shown back = more ++ last :: b := by
          rcases List.append_eq_append_iff.mp same with ⟨more, h⟩ | ⟨more, rfl, rest⟩
          · exact ⟨more, h⟩
          · cases more with
            | nil => exact ⟨[], by simp, rest.symm⟩
            | cons c more =>
              rw [List.cons_append, List.cons.injEq] at rest
              exact absurd ⟨more, by rw [rest.1]⟩ inside
        rw [List.flatten_append, List.length_append] at fits
        refine iff_of_false (fun copied => ?_) (by omega)
        rw [List.flatten_append, List.flatten_append, List.flatten_cons, List.append_assoc,
          List.prefix_append_right_inj] at copied
        refine not_prefix_dashed (fun x member => kept x ?_) first copied
        rw [rest]
        have part : x ∈ more ++ last :: b := by
          rcases List.mem_append.mp member with here | here
          · exact List.mem_append_left _ here
          · exact List.mem_append_right _ (List.mem_cons.mpr (.inl (List.mem_singleton.mp here)))
        exact List.mem_append_right _ part

end

/-! ## Line after line -/

/-- The daemon after the lines `before`, when nothing has been lost. -/
structure Matches (marker : Bytes) (before : List Bytes) (s : Daemon) : Prop where
  found : s.foundMarker = true ↔ ∃ b ∈ before, Spotted marker b
  quiet : s.foundMarker = false → s.exited = false ∧ s.logfile = []
  going : s.exited = false → s.logfile = wanted marker before ∧
    s.totalSize = s.logfile.length ∧ s.totalSize ≤ XPOSEDLOG_MAX_SIZE
  stopped : s.exited = true → ∃ body, s.logfile = body ++ limitNotice ∧
    body <+: wanted marker before ∧ XPOSEDLOG_MAX_SIZE < body.length ∧
      body.length < XPOSEDLOG_MAX_SIZE + bufSize

section
variable {marker : Bytes} {before : List Bytes} {s : Daemon} {l : Bytes}

theorem Matches.copied (matches_ : Matches marker before s) :
    Copied (wanted marker before) s.logfile := by
  cases exits : s.exited with
  | false =>
    obtain ⟨log, size, within⟩ := matches_.going exits
    exact .inl ⟨log, by rw [← log, ← size]; exact within⟩
  | true => exact .inr (matches_.stopped exits)

theorem Matches.not_spotted (matches_ : Matches marker before s) (looking : s.foundMarker = false) :
    ∀ b ∈ before, ¬ Spotted marker b := by
  intro b member spotted
  have found := matches_.found.mpr ⟨b, member, spotted⟩
  rw [looking] at found
  cases found

/-- The limit is exceeded only by what is copied. -/
theorem Matches.found_of_exited (matches_ : Matches marker before s) (exits : s.exited = true) :
    s.foundMarker = true := by
  by_contra looking
  have going := (matches_.quiet (by simpa using looking)).1
  rw [exits] at going
  cases going

theorem piece_spec {piece : Bytes} (h : piece ∈ pieces l) : piece ≠ [] ∧ piece.length < bufSize := by
  obtain ⟨some, short⟩ := Lines.chunk_length newline (n := bufSize - 1) (by decide) h
  exact ⟨some, Nat.lt_of_le_pred (by decide) short⟩

theorem piece_clean (clean : 0 ∉ l) : ∀ piece ∈ pieces l, 0 ∉ piece := by
  intro piece member zero
  exact clean (Lines.mem_of_chunk newline (by decide) member zero)

theorem wanted_share (spotted : ∃ b ∈ before, Spotted marker b) :
    wanted marker (before ++ [l]) = wanted marker before ++ share (Dashed l) (pieces l) := by
  obtain ⟨b, member, spotted⟩ := spotted
  have marked : ∃ b ∈ before, IsMarker marker b := ⟨b, member, spotted_marker spotted⟩
  rw [wanted_snoc, share, flatten_pieces]
  by_cases dashed : Dashed l
  · simp [dashed]
  · simp [dashed, marked]

theorem wanted_missed (missed : (∃ b ∈ before, IsMarker marker b) → Dashed l) :
    wanted marker (before ++ [l]) = wanted marker before := by
  rw [wanted_snoc, if_neg, List.append_nil]
  rintro ⟨marked, plain⟩
  exact plain (missed marked)

/-- What the loop makes of a line after the marker. -/
theorem Matches.copies (matches_ : Matches marker before s) (going : s.exited = false)
    (found : s.foundMarker = true) (clean : 0 ∉ l) :
    (Copied (wanted marker (before ++ [l])) (daemonLoop marker (pieces l) s).logfile →
        ChunksOk (wanted marker before).length (Dashed l) (pieces l)) ∧
      (ChunksOk (wanted marker before).length (Dashed l) (pieces l) →
        Matches marker (before ++ [l]) (daemonLoop marker (pieces l) s)) := by
  obtain ⟨log, size, within⟩ := matches_.going going
  have spotted := matches_.found.mp found
  have some : ∀ p ∈ pieces l, p ≠ [] := fun p h => (piece_spec h).1
  have still : ∃ b ∈ before ++ [l], Spotted marker b := by
    obtain ⟨b, member, spotted⟩ := spotted
    exact ⟨b, List.mem_append_left _ member, spotted⟩
  rw [wanted_share spotted, ← log, ← size, ← daemonLoop_shown going]
  rcases daemonLoop_copying marker going found within
      (fun p h => piece_clean clean p (mem_shown.mp h).1) (fun p h => (mem_shown.mp h).2) with
    ⟨fits, all⟩ | ⟨front, last, back, same, fits, exceeds, all⟩
  · rw [all, ← shown_share_iff some fits]
    refine ⟨?_, fun written => ⟨iff_of_true found still, ?_, ?_, ?_⟩⟩
    · rintro (⟨whole, _⟩ | ⟨body, whole, _, far, _⟩)
      · exact List.append_cancel_left whole
      · have lengths := congrArg List.length whole
        simp only [Daemon.wrote, List.length_append] at lengths
        omega
    · intro looking
      rw [Daemon.wrote, found] at looking
      cases looking
    · intro _
      rw [wanted_share spotted, ← written, ← log]
      refine ⟨rfl, ?_, fits⟩
      rw [Daemon.wrote, size, List.length_append]
    · intro exits
      rw [Daemon.wrote, going] at exits
      cases exits
  · rw [all, ← shown_share_limit_iff some same fits exceeds]
    have written : last ∈ shown (pieces l) := by simp [same]
    have short := (piece_spec (mem_shown.mp written).1).2
    refine ⟨?_, fun written => ⟨iff_of_true found still, ?_, ?_, fun _ => ?_⟩⟩
    · rintro (⟨whole, small⟩ | ⟨body, whole, onwards, _⟩)
      · rw [← whole] at small
        simp only [Daemon.stopped, List.length_append] at small
        omega
      · have written := List.append_cancel_right whole
        rw [← written, List.prefix_append_right_inj] at onwards
        exact onwards
    · intro looking
      simp only [Daemon.stopped, Daemon.wrote] at looking
      rw [found] at looking
      cases looking
    · intro goes
      cases goes
    · refine ⟨s.logfile ++ (front.flatten ++ last), rfl, ?_, ?_, ?_⟩
      · rwa [wanted_share spotted, ← log, List.prefix_append_right_inj]
      · rw [List.length_append, List.length_append]
        omega
      · rw [List.length_append, List.length_append]
        omega

/-- Where nothing is to be copied, every chunk must be skipped. -/
theorem nothing_shown (going : s.exited = false) (found : s.foundMarker = true)
    (within : s.totalSize ≤ XPOSEDLOG_MAX_SIZE) {chunks : List Bytes}
    (clean : ∀ buf ∈ chunks, 0 ∉ buf) (some : ∀ buf ∈ chunks, buf ≠ [])
    (copied : Copied [] (daemonLoop marker chunks s).logfile) : shown chunks = [] := by
  have empty : (daemonLoop marker chunks s).logfile = [] := by
    rcases copied with ⟨empty, _⟩ | ⟨body, _, nothing, far, _⟩
    · exact empty
    · rw [List.prefix_nil.mp nothing] at far
      cases far
  rw [← daemonLoop_shown going] at empty
  rcases daemonLoop_copying marker going found within
      (fun p h => clean p (mem_shown.mp h).1) (fun p h => (mem_shown.mp h).2) with
    ⟨_, all⟩ | ⟨front, last, back, _, _, _, all⟩
  · rw [all] at empty
    exact shown_eq_nil_of_flatten some (List.append_eq_nil_iff.mp empty).2
  · rw [all] at empty
    have notice := (List.append_eq_nil_iff.mp empty).2
    exact absurd notice (by decide)

/-- What the loop makes of a line before it has seen the marker. -/
theorem Matches.searches (matches_ : Matches marker before s) (looking : s.foundMarker = false)
    (clean : 0 ∉ l)
    (missed : (∃ b ∈ before, IsMarker marker b) → Dashed l) :
    (Copied (wanted marker (before ++ [l])) (daemonLoop marker (pieces l) s).logfile →
        ∀ front chunk back, pieces l = front ++ chunk :: back → ¬ Dashed chunk →
          IsMarker marker chunk → ∀ buf ∈ back, Dashed buf) ∧
      ((∀ front chunk back, pieces l = front ++ chunk :: back → ¬ Dashed chunk →
          IsMarker marker chunk → ∀ buf ∈ back, Dashed buf) →
        Matches marker (before ++ [l]) (daemonLoop marker (pieces l) s)) := by
  obtain ⟨going, empty⟩ := matches_.quiet looking
  obtain ⟨log, size, within⟩ := matches_.going going
  have none := matches_.not_spotted looking
  rw [wanted_missed missed, ← log, empty]
  rcases daemonLoop_searching marker going looking (piece_clean clean) with
    ⟨passed, same⟩ | ⟨first, buf, rest, whole, before_, plain, both, onwards⟩
  · rw [same]
    refine ⟨fun _ front chunk back whole plain both => ?_, fun _ => ⟨?_, matches_.quiet, ?_, ?_⟩⟩
    · have member : chunk ∈ pieces l := by simp [whole]
      rcases passed chunk member with dashed | never
      · exact absurd dashed plain
      · exact absurd both never
    · rw [looking]
      refine iff_of_false Bool.false_ne_true ?_
      rintro ⟨b, member, spotted⟩
      rcases List.mem_append.mp member with old | new
      · exact none b old spotted
      · obtain rfl := List.mem_singleton.mp new
        obtain ⟨chunk, inside, plain, both⟩ := spotted
        exact (passed chunk inside).elim plain fun never => never both
    · intro _
      rw [wanted_missed missed]
      exact ⟨log, size, within⟩
    · intro exits
      rw [going] at exits
      cases exits
  · rw [onwards]
    constructor
    · intro copied
      have inside : ∀ p ∈ rest, p ∈ pieces l := fun p h => by simp [whole, h]
      have skipped := nothing_shown (s := { s with foundMarker := true }) going rfl within
        (fun p h => piece_clean clean p (inside p h)) (fun p h => (piece_spec (inside p h)).1) copied
      have dashed := shown_eq_nil.mp skipped
      intro front chunk back split plain' both'
      rw [whole] at split
      rcases Lines.split_cases split with ⟨more, rfl, _⟩ | ⟨_, _, rfl⟩ | ⟨more, _, rfl⟩
      · exact ((before_ chunk (by simp)).elim plain' fun never => never both').elim
      · exact dashed
      · exact absurd (dashed chunk (by simp)) plain'
    · intro last
      have skipped : shown rest = [] := shown_eq_nil.mpr (last first buf rest whole plain both)
      have same : daemonLoop marker rest { s with foundMarker := true } =
          { s with foundMarker := true } := by
        rw [← daemonLoop_shown (s := { s with foundMarker := true }) going, skipped, daemonLoop]
      rw [same]
      refine ⟨iff_of_true rfl ⟨l, by simp, buf, by simp [whole], plain, both⟩, ?_, ?_, ?_⟩
      · intro looking
        cases looking
      · intro _
        rw [wanted_missed missed]
        exact ⟨log, size, within⟩
      · intro exits
        dsimp only at exits
        rw [going] at exits
        cases exits

/-- A line that is to be copied while the loop has missed the marker is lost
from its first byte on. -/
theorem Matches.misses (matches_ : Matches marker before s) (looking : s.foundMarker = false)
    {c : UInt8} (clean : c ≠ 0)
    (copied : Copied (wanted marker (before ++ [[c]])) (daemonLoop marker (pieces [c]) s).logfile)
    (marked : ∃ b ∈ before, IsMarker marker b) : Dashed [c] := by
  obtain ⟨going, empty⟩ := matches_.quiet looking
  have log := (matches_.going going).1
  by_contra plain
  rw [wanted_snoc, if_pos ⟨marked, plain⟩, ← log, empty] at copied
  have short : ¬ IsMarker marker [c] := by
    intro both
    have length := both.1.length_le
    exact absurd length (by decide : ¬ startupMarker.length ≤ 1)
  have same : daemonLoop marker (pieces [c]) s = s := by
    rcases daemonLoop_searching marker going looking
        (piece_clean (l := [c]) (by simpa using clean.symm)) with
      ⟨_, same⟩ | ⟨front, buf, back, whole, _, plain, both, _⟩
    · exact same
    · exact absurd (spotted_marker ⟨buf, by simp [whole], plain, both⟩) short
  rw [same, empty] at copied
  rcases copied with ⟨lost, _⟩ | ⟨body, lost, _, far, _⟩
  · cases lost
  · have notice := (List.append_eq_nil_iff.mp lost.symm).1
    rw [notice] at far
    cases far

/-! ## The whole stream -/

end

theorem dashed_cut {l front : Bytes} (h : front <+: l) (ne : front ≠ []) :
    Dashed front ↔ Dashed l := by
  obtain ⟨back, rfl⟩ := h
  cases front with
  | nil => exact absurd rfl ne
  | cons c front => rfl

/-- A line that breaks off is no worse than the whole line. -/
theorem LineOk.cut {marker : Bytes} {before : List Bytes} {l front : Bytes}
    (ok : LineOk marker before l) (h : front <+: l) (ne : front ≠ []) :
    LineOk marker before front := by
  obtain ⟨ps, last', last, rest, cut, whole, short, some⟩ :=
    Lines.chunks_cut newline (n := bufSize - 1) (by decide) h ne
  have same := dashed_cut h ne
  refine ⟨fun none xs chunk back split plain both => ?_, fun none marked => ?_,
    fun spotted xs chunk back split within => ?_⟩
  · rcases Lines.snoc_split (cut.symm.trans split) with ⟨back, rfl, rfl⟩ | ⟨_, _, rfl⟩
    · have later := ok.found none xs chunk (back ++ last :: rest)
        (whole.trans (by simp)) plain both
      intro buf member
      rcases List.mem_append.mp member with inside | ended
      · exact later buf (List.mem_append_left _ inside)
      · rw [List.mem_singleton.mp ended, dashed_cut short some]
        exact later last (by simp)
    · simp
  · rw [same]
    exact ok.missed none marked
  · simp only [same] at within ⊢
    rcases Lines.snoc_split (cut.symm.trans split) with ⟨back, rfl, rfl⟩ | ⟨rfl, rfl, _⟩
    · exact ok.copied spotted xs chunk (back ++ last :: rest) (whole.trans (by simp)) within
    · rw [dashed_cut short some]
      exact ok.copied spotted xs last rest whole within

/-- The daemon after whole lines. -/
def runLines (marker : Bytes) (ls : List Bytes) : Daemon :=
  daemonLoop marker (ls.flatMap pieces) .start

theorem runDaemon_lines (marker stream : Bytes) :
    runDaemon marker stream = runLines marker (lines newline stream) := by
  unfold runDaemon runLines pieces
  rw [Lines.chunks_lines (by decide)]

theorem runLines_snoc (marker : Bytes) (before : List Bytes) (l : Bytes) :
    runLines marker (before ++ [l]) =
      if (runLines marker before).exited then runLines marker before
      else daemonLoop marker (pieces l) (runLines marker before) := by
  unfold runLines
  rw [List.flatMap_append, List.flatMap_singleton, daemonLoop_append rfl]

/-- What one line preserves. -/
theorem Matches.line {marker : Bytes} {before : List Bytes} {l : Bytes}
    (matches_ : Matches marker before (runLines marker before)) (ok : LineOk marker before l)
    (clean : 0 ∉ l) :
    Matches marker (before ++ [l]) (runLines marker (before ++ [l])) := by
  rw [runLines_snoc]
  by_cases exits : (runLines marker before).exited = true
  · rw [if_pos exits]
    have found := matches_.found_of_exited exits
    obtain ⟨b, member, spotted⟩ := matches_.found.mp found
    refine ⟨iff_of_true found ⟨b, List.mem_append_left _ member, spotted⟩, matches_.quiet, ?_,
      fun _ => ?_⟩
    · intro going
      rw [exits] at going
      cases going
    · obtain ⟨body, log, onwards, far, near⟩ := matches_.stopped exits
      refine ⟨body, log, ?_, far, near⟩
      rw [wanted_snoc]
      exact onwards.trans (List.prefix_append _ _)
  · rw [if_neg exits]
    cases found : (runLines marker before).foundMarker with
    | true =>
      exact (matches_.copies (by simpa using exits) found clean).2
        (ok.copied (matches_.found.mp found))
    | false =>
      have none := matches_.not_spotted found
      exact (matches_.searches found clean (ok.missed none)).2 (ok.found none)

/-- What a run over lines preserves. -/
theorem runLines_matches {marker : Bytes} {ls : List Bytes} (clean : ∀ l ∈ ls, 0 ∉ l)
    (ok : ∀ before l after, ls = before ++ l :: after → LineOk marker before l) :
    Matches marker ls (runLines marker ls) := by
  induction ls using List.reverseRecOn with
  | nil =>
    refine ⟨iff_of_false Bool.false_ne_true (by simp), fun _ => ⟨rfl, rfl⟩,
      fun _ => ⟨rfl, rfl, Nat.zero_le _⟩, fun exits => ?_⟩
    cases exits
  | append_singleton before l ih =>
    have matches_ := ih (fun b member => clean b (List.mem_append_left _ member))
      fun front b back split => ok front b (back ++ [l]) (by simp [split])
    exact matches_.line (ok before l [] rfl) (clean l (by simp))

/-- What the log says of the next line, however much of it has come. -/
theorem Matches.lineOk {marker : Bytes} {before : List Bytes} {l : Bytes}
    (matches_ : Matches marker before (runLines marker before)) (clean : 0 ∉ l) (ne : l ≠ [])
    (copied : ∀ front, front <+: l → front ≠ [] →
      Copied (wanted marker (before ++ [front])) (runLines marker (before ++ [front])).logfile) :
    LineOk marker before l := by
  cases exits : (runLines marker before).exited with
  | true =>
    have found := matches_.found_of_exited exits
    have spotted := matches_.found.mp found
    obtain ⟨body, _, onwards, far, _⟩ := matches_.stopped exits
    have full := onwards.length_le
    refine ⟨fun none => ?_, fun none => ?_, fun _ front chunk back _ within => ?_⟩
    · obtain ⟨b, member, here⟩ := spotted
      exact absurd here (none b member)
    · obtain ⟨b, member, here⟩ := spotted
      exact absurd here (none b member)
    · exact absurd within (by omega)
  | false =>
    have next (front : Bytes) : runLines marker (before ++ [front]) =
        daemonLoop marker (pieces front) (runLines marker before) := by
      rw [runLines_snoc, if_neg (by simp [exits])]
    have whole := copied l (List.prefix_refl l) ne
    rw [next] at whole
    cases found : (runLines marker before).foundMarker with
    | true =>
      have spotted := matches_.found.mp found
      refine ⟨fun none => ?_, fun none => ?_, fun _ => ?_⟩
      · obtain ⟨b, member, here⟩ := spotted
        exact absurd here (none b member)
      · obtain ⟨b, member, here⟩ := spotted
        exact absurd here (none b member)
      · exact (matches_.copies exits found clean).1 whole
    | false =>
      have missed : (∃ b ∈ before, IsMarker marker b) → Dashed l := by
        intro marked
        cases l with
        | nil => exact absurd rfl ne
        | cons c l =>
          have first : [c] <+: c :: l := ⟨l, rfl⟩
          have begins := copied [c] first (List.cons_ne_nil c [])
          rw [next] at begins
          have zero : c ≠ 0 := by
            rintro rfl
            exact clean List.mem_cons_self
          exact matches_.misses found zero begins marked
      have found_ := (matches_.searches found clean missed).1 whole
      refine ⟨fun _ => found_, fun _ => missed, fun spotted => ?_⟩
      rw [matches_.found.mpr spotted] at found
      cases found

theorem line_clean {stream : Bytes} (clean : 0 ∉ stream) : ∀ l ∈ lines newline stream, 0 ∉ l := by
  intro l member zero
  exact clean (Lines.mem_of_line newline member zero)

/-- **The log is copied without loss** at every moment exactly if every line is cut
so that it makes no difference. -/
theorem lossless_iff {stream : Bytes} (clean : 0 ∉ stream) (marker : Bytes) :
    Lossless marker stream ↔ ∀ before l after,
      lines newline stream = before ++ l :: after → LineOk marker before l := by
  have cleanLine := line_clean clean
  constructor
  · intro lossless before
    induction length : before.length using Nat.strong_induction_on generalizing before with
    | _ n ih =>
      intro l after split
      have member : ∀ b ∈ before ++ [l], b ∈ lines newline stream := by
        intro b h
        rw [split, List.append_cons]
        exact List.mem_append_left _ h
      have line := Lines.isLine_of_mem (member l (by simp))
      have matches_ : Matches marker before (runLines marker before) := by
        apply runLines_matches fun b h => cleanLine b (member b (List.mem_append_left _ h))
        rintro earlier b later rfl
        exact ih earlier.length (by rw [← length, List.length_append]; simp) earlier rfl b
          (later ++ l :: after) (by simp [split])
      apply matches_.lineOk (cleanLine l (member l (by simp))) line.1
      intro front cut some
      have early : before.flatten ++ front <+: stream := by
        obtain ⟨back, rfl⟩ := cut
        rw [← Lines.flatten_lines newline stream, split]
        exact ⟨back ++ after.flatten, by simp⟩
      have copied := lossless _ early
      rwa [CopiesLog, runDaemon_lines, Lines.lines_append split, (line.take cut some).lines]
        at copied
  · intro ok front early
    rw [CopiesLog, runDaemon_lines]
    apply Matches.copied
    by_cases nothing : front = []
    · subst nothing
      exact runLines_matches (by simp [lines]) fun before l after split => by simp [lines] at split
    · obtain ⟨before, last', last, after, cut, whole, short, some⟩ :=
        Lines.lines_cut newline early nothing
      have clean' : 0 ∉ front := fun zero => clean (early.subset zero)
      rw [cut]
      apply runLines_matches
      · rw [← cut]
        exact line_clean clean'
      · intro xs l ys split
        rcases Lines.snoc_split split with ⟨more, rfl, rfl⟩ | ⟨rfl, rfl, _⟩
        · exact ok xs l (more ++ last :: after) (by simp [whole])
        · exact (ok xs last after whole).cut short some

/-- Lines that fit into the buffer are not cut. -/
theorem lineOk_of_short {marker stream : Bytes}
    (short : ∀ l ∈ lines newline stream, l.length < bufSize)
    (plain : ∀ l ∈ lines newline stream, IsMarker marker l → ¬ Dashed l) (before : List Bytes)
    (l : Bytes) (after : List Bytes) (split : lines newline stream = before ++ l :: after) :
    LineOk marker before l := by
  have alone : ∀ b ∈ before ++ [l], b ∈ lines newline stream ∧ pieces b = [b] := by
    intro b h
    have member : b ∈ lines newline stream := by
      rw [split, List.append_cons]
      exact List.mem_append_left _ h
    exact ⟨member, (Lines.isLine_of_mem member).chunks (by decide)
      (Nat.le_pred_of_lt (short b member))⟩
  have cut : ∀ front chunk back, pieces l = front ++ chunk :: back → chunk = l ∧ back = [] := by
    intro front chunk back whole
    rw [(alone l (by simp)).2, ← List.nil_append [l]] at whole
    rcases Lines.snoc_split whole with ⟨_, none, _⟩ | ⟨_, same, rest⟩
    · simp at none
    · exact ⟨same, rest⟩
  refine ⟨fun _ front chunk back whole _ _ => ?_, fun none marked => ?_,
    fun _ front chunk back whole _ => ?_⟩
  · rw [(cut front chunk back whole).2]
    simp
  · obtain ⟨b, member, both⟩ := marked
    obtain ⟨inside, whole⟩ := alone b (List.mem_append_left _ member)
    exact absurd ⟨b, by simp [whole], plain b inside both, both⟩ (none b member)
  · rw [(cut front chunk back whole).1]

def currentMarker : Bytes := ascii "Current time: 0, PID: 123"

def startupLine : Bytes := ascii "D/XposedStartupMarker( 123): Current time: 0, PID: 123\n"

/-- The line after the startup marker is copied. -/
theorem nextLine_lossless :
    Lossless currentMarker (startupLine ++ ascii "--- beginning of main\nI/Xposed: a\n") ∧
      (runDaemon currentMarker
        (startupLine ++ ascii "--- beginning of main\nI/Xposed: a\n")).logfile =
          ascii "I/Xposed: a\n" :=
  ⟨(lossless_iff (by decide) currentMarker).mpr (lineOk_of_short (by decide) (by decide)),
    by decide +kernel⟩

/-- A line that is cut in front of a `-`. -/
def cutLine : Bytes := List.replicate 511 97 ++ ascii "-b\n"

/-- The rest of the line is not copied. -/
theorem cutLine_lost : ¬ ∀ marker stream : Bytes, 0 ∉ stream → CopiesLog marker stream := by
  intro copies
  have copied := copies currentMarker (startupLine ++ cutLine) (by decide +kernel)
  have log : (runDaemon currentMarker (startupLine ++ cutLine)).logfile = List.replicate 511 97 := by
    decide +kernel
  have text : wanted currentMarker (lines newline (startupLine ++ cutLine)) = cutLine := by
    decide +kernel
  rw [CopiesLog, log, text] at copied
  rcases copied with ⟨whole, _⟩ | ⟨body, whole, _, far, _⟩
  · exact absurd (congrArg List.length whole) (by decide +kernel)
  · have length := congrArg List.length whole
    rw [List.length_append, List.length_replicate] at length
    have small : 511 < XPOSEDLOG_MAX_SIZE := by decide
    omega

end Xposed.Logcat
