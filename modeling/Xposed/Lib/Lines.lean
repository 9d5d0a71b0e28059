import Mathlib.Data.List.Infix
import Mathlib.Tactic.ByContra

/-!
# Lines, and reading them in chunks

A stream of any element type `α`, where `newline` says which elements end a line:

* `lines`: its lines, each with the element that ends it, if there is one;
* `fgets`: a chunk of at most `n` elements, no further than to the end of the line;
* `chunks`: what repeated `fgets` reads;
* `chunks_lines`: the chunks of a stream are those of its lines;
* `lines_cut`, `chunks_cut`: the lines and chunks of a stream that breaks off.
-/

namespace Lines

variable {α : Type} (newline : α → Bool)

/-- A chunk, and what comes after it. -/
def fgets : Nat → List α → List α × List α
  | 0, s => ([], s)
  | _ + 1, [] => ([], [])
  | n + 1, a :: s =>
    if newline a then ([a], s)
    else
      let (chunk, rest) := fgets n s
      (a :: chunk, rest)

/-- The loop: it ends when nothing is left. `fuel` bounds the number of its turns. -/
def readAll (n : Nat) : Nat → List α → List (List α)
  | 0, _ => []
  | _ + 1, [] => []
  | fuel + 1, a :: s =>
    (fgets newline n (a :: s)).1 :: readAll n fuel (fgets newline n (a :: s)).2

/-- Every turn takes an element at least. -/
def chunks (n : Nat) (s : List α) : List (List α) := readAll newline n s.length s

def lines : List α → List (List α)
  | [] => []
  | a :: s =>
    if newline a then [a] :: lines s
    else
      match lines s with
      | [] => [[a]]
      | l :: ls => (a :: l) :: ls

variable {newline}

/-! ## Chunks -/

theorem fgets_append (newline : α → Bool) (n : Nat) (s : List α) :
    (fgets newline n s).1 ++ (fgets newline n s).2 = s := by
  induction n generalizing s with
  | zero => rfl
  | succ n ih =>
    cases s with
    | nil => rfl
    | cons a s =>
      rw [fgets]
      split
      · rfl
      · rw [List.cons_append, ih]

theorem fgets_length (n : Nat) (s : List α) : (fgets newline n s).1.length ≤ n := by
  induction n generalizing s with
  | zero => exact Nat.le_refl 0
  | succ n ih =>
    cases s with
    | nil => exact Nat.zero_le _
    | cons a s =>
      rw [fgets]
      split
      · exact Nat.succ_le_succ (Nat.zero_le n)
      · exact Nat.succ_le_succ (ih s)

theorem fgets_ne_nil (newline : α → Bool) {n : Nat} (positive : 0 < n) {s : List α}
    (h : s ≠ []) :
    (fgets newline n s).1 ≠ [] := by
  cases n with
  | zero => cases positive
  | succ n =>
    cases s with
    | nil => exact absurd rfl h
    | cons a s =>
      rw [fgets]
      split <;> exact List.cons_ne_nil _ _

theorem fgets_rest_length (newline : α → Bool) {n : Nat} (positive : 0 < n) {s : List α}
    (h : s ≠ []) :
    (fgets newline n s).2.length < s.length := by
  have taken := List.length_pos_iff.mpr (fgets_ne_nil newline positive h)
  have whole := congrArg List.length (fgets_append newline n s)
  rw [List.length_append] at whole
  omega

/-- The chunk of a stream that breaks off is the same, or all that there is. -/
theorem fgets_cut (newline : α → Bool) (n : Nat) {front s : List α} (h : front <+: s) :
    (∃ rest, fgets newline n front = ((fgets newline n s).1, rest) ∧
        rest <+: (fgets newline n s).2) ∨
      fgets newline n front = (front, []) ∧ front <+: (fgets newline n s).1 := by
  induction n generalizing front s with
  | zero => exact .inl ⟨front, rfl, h⟩
  | succ n ih =>
    cases front with
    | nil => exact .inr ⟨rfl, List.nil_prefix⟩
    | cons a front =>
      cases s with
      | nil => exact absurd h (by simp)
      | cons b s =>
        obtain ⟨rfl, onwards⟩ := List.cons_prefix_cons.mp h
        cases ends : newline a with
        | true =>
          left
          simp only [fgets, ends, if_true]
          exact ⟨front, rfl, onwards⟩
        | false =>
          simp only [fgets, ends, Bool.false_eq_true, if_false]
          rcases ih onwards with ⟨rest, same, onwards⟩ | ⟨all, inside⟩
          · rw [same]
            exact .inl ⟨rest, rfl, onwards⟩
          · rw [all]
            exact .inr ⟨rfl, List.cons_prefix_cons.mpr ⟨rfl, inside⟩⟩

theorem readAll_fuel {n : Nat} (positive : 0 < n) {fuel fuel' : Nat} {s : List α}
    (h : s.length ≤ fuel) (h' : s.length ≤ fuel') :
    readAll newline n fuel s = readAll newline n fuel' s := by
  induction fuel generalizing fuel' s with
  | zero =>
    rw [List.eq_nil_of_length_eq_zero (Nat.le_zero.mp h)]
    cases fuel' <;> rfl
  | succ fuel ih =>
    cases s with
    | nil => cases fuel' <;> rfl
    | cons a s =>
      cases fuel' with
      | zero => simp at h'
      | succ fuel' =>
        have shorter := fgets_rest_length newline positive (List.cons_ne_nil a s)
        rw [readAll, readAll, @ih fuel' _ (by omega) (by omega)]

@[simp]
theorem chunks_nil (n : Nat) : chunks newline n [] = [] := rfl

theorem chunks_cons {n : Nat} (positive : 0 < n) {s : List α} (h : s ≠ []) :
    chunks newline n s =
      (fgets newline n s).1 :: chunks newline n (fgets newline n s).2 := by
  have shorter := fgets_rest_length newline positive h
  cases s with
  | nil => exact absurd rfl h
  | cons a s =>
    unfold chunks
    rw [List.length_cons] at shorter
    rw [List.length_cons, readAll, readAll_fuel positive (by omega) (Nat.le_refl _)]

/-- What holds of nothing, and of a stream if it holds of what `fgets` leaves,
holds of every stream. -/
theorem chunks_induction (newline : α → Bool) {n : Nat} (positive : 0 < n)
    {motive : List α → Prop} (nil : motive [])
    (step : ∀ s, s ≠ [] → motive (fgets newline n s).2 → motive s) (s : List α) : motive s := by
  induction h : s.length using Nat.strong_induction_on generalizing s with
  | _ length ih =>
    cases s with
    | nil => exact nil
    | cons a s =>
      have shorter := fgets_rest_length newline positive (List.cons_ne_nil a s)
      exact step (a :: s) (List.cons_ne_nil a s) (ih _ (by omega) _ rfl)

theorem flatten_chunks (newline : α → Bool) {n : Nat} (positive : 0 < n) (s : List α) :
    (chunks newline n s).flatten = s := by
  induction s using chunks_induction newline positive with
  | nil => rfl
  | step s h ih => rw [chunks_cons positive h, List.flatten_cons, ih, fgets_append]

theorem mem_of_chunk (newline : α → Bool) {n : Nat} (positive : 0 < n) {s chunk : List α} {a : α}
    (h : chunk ∈ chunks newline n s) (inside : a ∈ chunk) : a ∈ s := by
  rw [← flatten_chunks newline positive s]
  exact List.mem_flatten.mpr ⟨chunk, h, inside⟩

theorem chunk_length (newline : α → Bool) {n : Nat} (positive : 0 < n) {s chunk : List α}
    (h : chunk ∈ chunks newline n s) : chunk ≠ [] ∧ chunk.length ≤ n := by
  induction s using chunks_induction newline positive with
  | nil => cases h
  | step s ne ih =>
    rw [chunks_cons positive ne] at h
    rcases List.mem_cons.mp h with rfl | h
    · exact ⟨fgets_ne_nil _ positive ne, fgets_length n s⟩
    · exact ih h

/-- The chunks of a stream that breaks off: its last one may be cut short. -/
theorem chunks_cut (newline : α → Bool) {n : Nat} (positive : 0 < n) {front s : List α}
    (h : front <+: s) (ne : front ≠ []) :
    ∃ before last' last after, chunks newline n front = before ++ [last'] ∧
      chunks newline n s = before ++ last :: after ∧ last' <+: last ∧ last' ≠ [] := by
  induction s using chunks_induction newline positive generalizing front with
  | nil => exact absurd (List.prefix_nil.mp h) ne
  | step s more ih =>
    rw [chunks_cons positive more, chunks_cons positive ne]
    rcases fgets_cut newline n h with ⟨rest, same, onwards⟩ | ⟨all, inside⟩
    · rw [same]
      by_cases done : rest = []
      · subst done
        exact ⟨[], _, _, _, rfl, rfl, List.prefix_refl _, fgets_ne_nil _ positive more⟩
      · obtain ⟨before, last', last, after, front', s', cut, some⟩ := ih onwards done
        dsimp only
        rw [front', s']
        exact ⟨_ :: before, last', last, after, rfl, rfl, cut, some⟩
    · rw [all]
      exact ⟨[], front, _, _, rfl, rfl, inside, ne⟩

/-! ## Lines -/

theorem lines_ended {body : List α} {a : α} (plain : ∀ x ∈ body, newline x = false)
    (ends : newline a = true) (rest : List α) :
    lines newline (body ++ a :: rest) = (body ++ [a]) :: lines newline rest := by
  induction body with
  | nil => simp [lines, ends]
  | cons b body ih =>
    obtain ⟨first, plain⟩ := List.forall_mem_cons.mp plain
    rw [List.cons_append, lines, ih plain]
    simp [first]

theorem lines_unended {l : List α} (ne : l ≠ []) (plain : ∀ x ∈ l, newline x = false) :
    lines newline l = [l] := by
  induction l with
  | nil => exact absurd rfl ne
  | cons a l ih =>
    obtain ⟨first, plain⟩ := List.forall_mem_cons.mp plain
    rw [lines]
    by_cases last : l = []
    · subst last
      simp [first, lines]
    · rw [ih last plain]
      simp [first]

/-- A stream is empty, a line that nothing ends, or a line and what comes after it. -/
theorem lines_induction (newline : α → Bool) {motive : List α → Prop} (nil : motive [])
    (unended : ∀ l, l ≠ [] → (∀ x ∈ l, newline x = false) → motive l)
    (ended : ∀ body a rest, (∀ x ∈ body, newline x = false) → newline a = true → motive rest →
      motive (body ++ a :: rest)) (s : List α) : motive s := by
  induction h : s.length using Nat.strong_induction_on generalizing s with
  | _ length ih =>
    cases first : s.find? newline with
    | none =>
      have plain := List.find?_eq_none.mp first
      by_cases empty : s = []
      · subst empty
        exact nil
      · exact unended s empty (by simpa using plain)
    | some a =>
      obtain ⟨ends, body, rest, rfl, plain⟩ := List.find?_eq_some_iff_append.mp first
      rw [List.length_append, List.length_cons] at h
      exact ended body a rest (by simpa using plain) ends (ih _ (by omega) _ rfl)

theorem flatten_lines (newline : α → Bool) (s : List α) : (lines newline s).flatten = s := by
  induction s using lines_induction newline with
  | nil => rfl
  | unended l ne plain => simp [lines_unended ne plain]
  | ended body a rest plain ends ih => simp [lines_ended plain ends, ih]

theorem mem_of_line (newline : α → Bool) {s l : List α} {a : α} (h : l ∈ lines newline s)
    (inside : a ∈ l) : a ∈ s := by
  rw [← flatten_lines newline s]
  exact List.mem_flatten.mpr ⟨l, h, inside⟩

/-- A line has no ends before its last element. -/
def IsLine (newline : α → Bool) (l : List α) : Prop :=
  l ≠ [] ∧ ∀ x ∈ l.dropLast, newline x = false

theorem isLine_of_mem {s l : List α} (h : l ∈ lines newline s) : IsLine newline l := by
  induction s using lines_induction newline with
  | nil => cases h
  | unended l' ne plain =>
    rw [lines_unended ne plain, List.mem_singleton] at h
    subst h
    exact ⟨ne, fun x hx => plain x (List.mem_of_mem_dropLast hx)⟩
  | ended body a rest plain ends ih =>
    rw [lines_ended plain ends] at h
    rcases List.mem_cons.mp h with rfl | h
    · exact ⟨by simp, by simpa using plain⟩
    · exact ih h

theorem IsLine.lines {l : List α} (line : IsLine newline l) : lines newline l = [l] := by
  obtain ⟨ne, plain⟩ := line
  have whole := List.dropLast_concat_getLast ne
  cases ends : newline (l.getLast ne) with
  | true =>
    have ended := lines_ended plain ends []
    rwa [whole] at ended
  | false =>
    apply lines_unended ne
    intro x hx
    rw [← whole, List.mem_append, List.mem_singleton] at hx
    rcases hx with inside | rfl
    · exact plain x inside
    · exact ends

theorem IsLine.take {l front : List α} (line : IsLine newline l) (h : front <+: l)
    (ne : front ≠ []) : IsLine newline front := by
  refine ⟨ne, fun x hx => line.2 x ?_⟩
  obtain ⟨back, rfl⟩ := h
  cases back with
  | nil => simpa using hx
  | cons b back =>
    rw [List.dropLast_append_of_ne_nil (List.cons_ne_nil b back)]
    exact List.mem_append_left _ (List.mem_of_mem_dropLast hx)

/-- The lines before another one are ended, so that what follows them starts a line. -/
theorem lines_append {before : List (List α)} {l s : List α} {after : List (List α)}
    (h : lines newline s = before ++ l :: after) (rest : List α) :
    lines newline (before.flatten ++ rest) = before ++ lines newline rest := by
  induction s using lines_induction newline generalizing before with
  | nil => simp [lines] at h
  | unended l' ne plain =>
    rw [lines_unended ne plain] at h
    have alone : before = [] := by
      cases before with
      | nil => rfl
      | cons b before => simp at h
    simp [alone]
  | ended body a rest' plain ends ih =>
    rw [lines_ended plain ends] at h
    cases before with
    | nil => rfl
    | cons b before =>
      rw [List.cons_append, List.cons.injEq] at h
      obtain ⟨rfl, h⟩ := h
      have ended := lines_ended plain ends (before.flatten ++ rest)
      simp only [List.flatten_cons, List.append_assoc, List.cons_append, List.nil_append]
      rw [ended, ih h]

/-- The lines of a stream that breaks off: its last one may be cut short. -/
theorem lines_cut (newline : α → Bool) {front s : List α} (h : front <+: s) (ne : front ≠ []) :
    ∃ before last' last after, lines newline front = before ++ [last'] ∧
      lines newline s = before ++ last :: after ∧ last' <+: last ∧ last' ≠ [] := by
  induction s using lines_induction newline generalizing front with
  | nil => exact absurd (List.prefix_nil.mp h) ne
  | unended l some plain =>
    have line : IsLine newline l := ⟨some, fun x hx => plain x (List.mem_of_mem_dropLast hx)⟩
    rw [line.lines, (line.take h ne).lines]
    exact ⟨[], front, l, [], rfl, rfl, h, ne⟩
  | ended body a rest plain ends ih =>
    have line : IsLine newline (body ++ [a]) := ⟨by simp, by simpa using plain⟩
    rw [lines_ended plain ends]
    rw [List.append_cons] at h
    have front' : body ++ [a] <+: body ++ [a] ++ rest := List.prefix_append _ _
    rcases List.prefix_or_prefix_of_prefix h front' with inside | ⟨front, rfl⟩
    · rw [(line.take inside ne).lines]
      exact ⟨[], front, body ++ [a], _, rfl, rfl, inside, ne⟩
    · rw [← List.append_cons, lines_ended plain ends]
      by_cases done : front = []
      · subst done
        exact ⟨[], _, _, _, rfl, rfl, List.prefix_refl _, line.1⟩
      · obtain ⟨before, last', last, after, cut, whole, inside, some⟩ :=
          ih ((List.prefix_append_right_inj _).mp h) done
        rw [cut, whole]
        exact ⟨_ :: before, last', last, after, rfl, rfl, inside, some⟩

/-! ## Where two elements lie -/

/-- Two elements of a list: the second one lies before the first, at the same
place, or after it. -/
theorem split_cases {front back front' back' : List α} {x y : α}
    (h : front ++ x :: back = front' ++ y :: back') :
    (∃ more, front = front' ++ y :: more ∧ back' = more ++ x :: back) ∨
      (front' = front ∧ y = x ∧ back' = back) ∨
        ∃ more, front' = front ++ x :: more ∧ back = more ++ y :: back' := by
  rcases List.append_eq_append_iff.mp h with ⟨more, rfl, tail⟩ | ⟨more, rfl, tail⟩
  · cases more with
    | nil =>
      obtain ⟨rfl, rfl⟩ := List.cons.inj tail
      exact .inr (.inl ⟨List.append_nil _, rfl, rfl⟩)
    | cons c more =>
      obtain ⟨rfl, rfl⟩ := List.cons.inj tail
      exact .inr (.inr ⟨more, rfl, rfl⟩)
  · cases more with
    | nil =>
      obtain ⟨rfl, rfl⟩ := List.cons.inj tail
      exact .inr (.inl ⟨(List.append_nil _).symm, rfl, rfl⟩)
    | cons c more =>
      obtain ⟨rfl, rfl⟩ := List.cons.inj tail
      exact .inl ⟨more, rfl, rfl⟩

/-- A list that ends with `z`, split at one of its elements. -/
theorem snoc_split {xs front back : List α} {z x : α} (h : xs ++ [z] = front ++ x :: back) :
    (∃ back', xs = front ++ x :: back' ∧ back = back' ++ [z]) ∨
      front = xs ∧ x = z ∧ back = [] := by
  rcases split_cases h with before | same | ⟨more, _, after⟩
  · exact .inl before
  · exact .inr same
  · simp at after

/-! ## The chunks of the lines -/

theorem fgets_isLine (newline : α → Bool) {n : Nat} (positive : 0 < n) {s : List α} (h : s ≠ []) :
    IsLine newline (fgets newline n s).1 := by
  refine ⟨fgets_ne_nil _ positive h, ?_⟩
  induction n generalizing s with
  | zero => cases positive
  | succ n ih =>
    cases s with
    | nil => exact absurd rfl h
    | cons a s =>
      rw [fgets]
      split
      · simp
      · rename_i plain
        have first : newline a = false := by simpa using plain
        intro x hx
        dsimp only at hx
        by_cases more : 0 < n ∧ s ≠ []
        · rw [List.dropLast_cons_of_ne_nil (fgets_ne_nil _ more.1 more.2)] at hx
          rcases List.mem_cons.mp hx with rfl | hx
          · exact first
          · exact ih more.1 more.2 x hx
        · have alone : (fgets newline n s).1 = [] := by
            rcases Nat.eq_zero_or_pos n with rfl | positive
            · rfl
            · have empty : s = [] := by
                by_contra some
                exact more ⟨positive, some⟩
              subst empty
              cases n <;> rfl
          rw [alone] at hx
          cases hx

theorem fgets_short {n : Nat} {l : List α} (plain : ∀ x ∈ l.dropLast, newline x = false)
    (h : l.length ≤ n) : fgets newline n l = (l, []) := by
  induction n generalizing l with
  | zero => rw [List.eq_nil_of_length_eq_zero (Nat.le_zero.mp h), fgets]
  | succ n ih =>
    cases l with
    | nil => rfl
    | cons a l =>
      by_cases last : l = []
      · subst last
        rw [fgets]
        split
        · rfl
        · cases n <;> rfl
      · rw [List.dropLast_cons_of_ne_nil last] at plain
        obtain ⟨first, plain⟩ := List.forall_mem_cons.mp plain
        rw [fgets, ih plain (Nat.le_of_succ_le_succ h)]
        simp [first]

/-- A line that is not too long is read at once. -/
theorem IsLine.chunks {l : List α} (line : IsLine newline l) {n : Nat} (positive : 0 < n)
    (h : l.length ≤ n) : chunks newline n l = [l] := by
  rw [chunks_cons positive line.1, fgets_short line.2 h, chunks_nil]

theorem fgets_plain {front : List α} (plain : ∀ x ∈ front, newline x = false) (s : List α) :
    fgets newline front.length (front ++ s) = (front, s) := by
  induction front with
  | nil => rfl
  | cons a front ih =>
    obtain ⟨first, plain⟩ := List.forall_mem_cons.mp plain
    rw [List.length_cons, List.cons_append, fgets, ih plain]
    simp [first]

/-- The last chunk of a line has the element that ends it, behind what is left
when the rest of the line is cut into chunks of `n`. -/
theorem chunks_ended {n : Nat} (positive : 0 < n) {body : List α} (a : α)
    (plain : ∀ x ∈ body, newline x = false) :
    ∃ front, chunks newline n (body ++ [a]) =
        front ++ [body.drop (body.length / n * n) ++ [a]] ∧
      ∀ chunk ∈ front, ∀ x ∈ chunk, newline x = false := by
  induction h : body.length using Nat.strong_induction_on generalizing body with
  | _ length ih =>
    by_cases fits : length < n
    · have line : IsLine newline (body ++ [a]) := ⟨by simp, by simpa using plain⟩
      refine ⟨[], ?_, by simp⟩
      rw [line.chunks positive (by simp; omega), Nat.div_eq_of_lt fits, Nat.zero_mul, List.drop_zero]
      rfl
    · have cut : body = body.take n ++ body.drop n := (List.take_append_drop n body).symm
      have taken : (body.take n).length = n := by
        rw [List.length_take]
        omega
      have left : (body.drop n).length = length - n := by rw [List.length_drop, h]
      obtain ⟨front, rest, none⟩ := ih (length - n) (by omega)
        (fun x hx => plain x (List.mem_of_mem_drop hx)) left
      have quotient : length / n = (length - n) / n + 1 := by
        rw [← Nat.add_div_right _ positive]
        congr 1
        omega
      have read : fgets newline n (body ++ [a]) = (body.take n, body.drop n ++ [a]) := by
        have inside : ∀ x ∈ body.take n, newline x = false := fun x hx =>
          plain x (List.mem_of_mem_take hx)
        have first := fgets_plain inside (body.drop n ++ [a])
        rwa [taken, ← List.append_assoc, ← cut] at first
      refine ⟨body.take n :: front, ?_, ?_⟩
      · rw [chunks_cons positive (by simp), read]
        dsimp only
        rw [rest, List.drop_drop, quotient, Nat.add_mul, Nat.one_mul, Nat.add_comm n]
        rfl
      · intro chunk member
        rcases List.mem_cons.mp member with rfl | later
        · exact fun x hx => plain x (List.mem_of_mem_take hx)
        · exact none chunk later

/-- Elements that end no line belong to the line that follows them. -/
theorem lines_plain {front : List α} (plain : ∀ x ∈ front, newline x = false) {l s : List α}
    {ls : List (List α)} (h : lines newline s = l :: ls) :
    lines newline (front ++ s) = (front ++ l) :: ls := by
  induction front with
  | nil => exact h
  | cons a front ih =>
    obtain ⟨first, plain⟩ := List.forall_mem_cons.mp plain
    rw [List.cons_append, lines, ih plain]
    simp [first]

/-- What is read again of a chunk and something of what comes after it. -/
theorem chunks_again (newline : α → Bool) {n : Nat} (positive : 0 < n) {s l : List α}
    (h : s ≠ []) (onwards : l <+: (fgets newline n s).2) :
    chunks newline n ((fgets newline n s).1 ++ l) = (fgets newline n s).1 :: chunks newline n l := by
  have some := fgets_ne_nil newline positive h
  have cut : (fgets newline n s).1 ++ l <+: s := by
    rw [← List.prefix_append_right_inj (fgets newline n s).1, fgets_append] at onwards
    exact onwards
  have whole := fgets_append newline n ((fgets newline n s).1 ++ l)
  rw [chunks_cons positive (by simp [some])]
  rcases fgets_cut newline n cut with ⟨rest, same, _⟩ | ⟨all, inside⟩
  · rw [same] at whole ⊢
    rw [List.append_cancel_left whole]
  · have nothing : l = [] := by
      have short := inside.length_le
      rw [List.length_append] at short
      exact List.eq_nil_of_length_eq_zero (by omega)
    rw [all, nothing, List.append_nil]

/-- **The chunks of a stream** are those of its lines, one after the other. -/
theorem chunks_lines {n : Nat} (positive : 0 < n) (s : List α) :
    chunks newline n s = (lines newline s).flatMap (chunks newline n) := by
  induction s using chunks_induction newline positive with
  | nil => rfl
  | step s h ih =>
    have line := fgets_isLine newline positive h
    have whole := fgets_append newline n s
    have alone := chunks_again newline positive h List.nil_prefix
    have next : ∀ l, l <+: (fgets newline n s).2 → _ := fun l => chunks_again _ positive h
    rw [chunks_cons positive h, ih]
    generalize (fgets newline n s).1 = chunk at line whole alone next ⊢
    generalize (fgets newline n s).2 = rest at whole next ⊢
    subst whole
    rw [List.append_nil, chunks_nil] at alone
    have body := List.dropLast_concat_getLast line.1
    cases ends : newline (chunk.getLast line.1) with
    | true =>
      have ended := lines_ended line.2 ends rest
      rw [List.append_cons, body] at ended
      rw [ended, List.flatMap_cons, alone]
      rfl
    | false =>
      have plain : ∀ x ∈ chunk, newline x = false := by
        intro x hx
        rw [← body, List.mem_append, List.mem_singleton] at hx
        rcases hx with inside | rfl
        · exact line.2 x inside
        · exact ends
      cases following : lines newline rest with
      | nil =>
        have done : rest = [] := by
          rw [← flatten_lines newline rest, following]
          rfl
        subst done
        rw [List.append_nil, line.lines, List.flatMap_singleton, alone]
        rfl
      | cons l ls =>
        have first : l <+: rest := by
          rw [← flatten_lines newline rest, following]
          exact List.prefix_append l _
        rw [lines_plain plain following, List.flatMap_cons, List.flatMap_cons, next l first]
        rfl

end Lines
