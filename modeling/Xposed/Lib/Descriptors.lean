import Mathlib.Logic.Function.Basic

/-!
# Descriptor tables

The descriptors of a process over the open file descriptions they refer to, of
any type `D`:

* `openFile`, `update`, `setCloexec`, `dup2`, `close`: what the POSIX calls of
  these names do when they succeed;
* `get`: the description behind a descriptor, with the close-on-exec flag;
* `substitute`: a new description moved onto an open descriptor, through a
  temporary one;
* `Kept`: a descriptor refers to the same description as before, which has not
  changed;
* `Refers`, `Holds`: which descriptors refer to a description; `pipe`: two of them,
  which nothing else refers to.
-/

namespace Descriptors

structure Entry where
  description : Nat
  cloexec : Bool
  deriving DecidableEq

/-- Descriptions are never given up, and no descriptor is open from `bound` on. -/
@[ext]
structure Table (D : Type) where
  descriptions : List D
  entry : Nat → Option Entry
  bound : Nat
  beyond : ∀ fd, bound ≤ fd → entry fd = none
  valid : ∀ fd e, entry fd = some e → e.description < descriptions.length

namespace Table

variable {D : Type}

/-- No descriptor is open. -/
def empty : Table D where
  descriptions := []
  entry := fun _ => none
  bound := 0
  beyond := fun _ _ => rfl
  valid := by
    intro fd e h
    cases h

def get (t : Table D) (fd : Nat) : Option (D × Bool) :=
  (t.entry fd).bind fun e => (t.descriptions[e.description]?).map (·, e.cloexec)

/-- The lowest descriptor that is not open, which `open` takes. -/
def lowest (t : Table D) : Nat :=
  ((List.range t.bound).find? fun fd => (t.entry fd).isNone).getD t.bound

theorem entry_lowest (t : Table D) : t.entry t.lowest = none := by
  unfold lowest
  cases h : (List.range t.bound).find? fun fd => (t.entry fd).isNone with
  | none => exact t.beyond t.bound (Nat.le_refl _)
  | some fd => simpa using List.find?_some h

theorem get_eq_none_iff (t : Table D) (fd : Nat) : t.get fd = none ↔ t.entry fd = none := by
  unfold get
  cases h : t.entry fd with
  | none => simp
  | some e => simp [List.getElem?_eq_getElem (t.valid fd e h)]

theorem lt_bound {t : Table D} {fd : Nat} (h : t.get fd ≠ none) : fd < t.bound := by
  apply Nat.lt_of_not_le
  intro beyond
  exact h ((t.get_eq_none_iff fd).mpr (t.beyond fd beyond))

theorem lowest_ne {t : Table D} {fd : Nat} (h : t.get fd ≠ none) : fd ≠ t.lowest := by
  rintro rfl
  exact h ((t.get_eq_none_iff _).mpr t.entry_lowest)

theorem get_lowest (t : Table D) : t.get t.lowest = none :=
  (t.get_eq_none_iff _).mpr t.entry_lowest

/-- `open`: a new description behind the lowest descriptor. -/
def openFile (t : Table D) (d : D) (cloexec : Bool) : Table D where
  descriptions := t.descriptions ++ [d]
  entry := Function.update t.entry t.lowest (some ⟨t.descriptions.length, cloexec⟩)
  bound := max t.bound (t.lowest + 1)
  beyond := by
    intro fd h
    rw [Function.update_of_ne (by omega)]
    exact t.beyond fd (by omega)
  valid := by
    intro fd e h
    rw [List.length_append, List.length_singleton]
    by_cases same : fd = t.lowest
    · subst same
      rw [Function.update_self, Option.some.injEq] at h
      subst h
      exact Nat.lt_succ_self _
    · rw [Function.update_of_ne same] at h
      have := t.valid fd e h
      omega

/-- A change of the description behind `fd`, as `lseek` and `F_SETFL` make it. -/
def update (t : Table D) (fd : Nat) (f : D → D) : Table D where
  descriptions := match t.entry fd with
    | none => t.descriptions
    | some e => t.descriptions.modify e.description f
  entry := t.entry
  bound := t.bound
  beyond := t.beyond
  valid := by
    intro fd' e h
    split
    · exact t.valid fd' e h
    · rw [List.length_modify]
      exact t.valid fd' e h

/-- `F_SETFD` -/
def setCloexec (t : Table D) (fd : Nat) (cloexec : Bool) : Table D where
  descriptions := t.descriptions
  entry := Function.update t.entry fd ((t.entry fd).map fun e => ⟨e.description, cloexec⟩)
  bound := t.bound
  beyond := by
    intro fd' h
    by_cases same : fd' = fd
    · subst same
      rw [Function.update_self, t.beyond fd' h, Option.map_none]
    · rw [Function.update_of_ne same]
      exact t.beyond fd' h
  valid := by
    intro fd' e h
    by_cases same : fd' = fd
    · subst same
      rw [Function.update_self, Option.map_eq_some_iff] at h
      obtain ⟨old, hold, rfl⟩ := h
      exact t.valid fd' old hold
    · rw [Function.update_of_ne same] at h
      exact t.valid fd' e h

/-- `dup2`: the new descriptor's close-on-exec flag is cleared, unless both are
the same. -/
def dup2 (t : Table D) (old new : Nat) : Table D :=
  if old = new then t
  else
    match h : t.entry old with
    | none => t
    | some e =>
      { descriptions := t.descriptions
        entry := Function.update t.entry new (some ⟨e.description, false⟩)
        bound := max t.bound (new + 1)
        beyond := by
          intro fd hfd
          rw [Function.update_of_ne (by omega)]
          exact t.beyond fd (by omega)
        valid := by
          intro fd e' h'
          by_cases same : fd = new
          · subst same
            rw [Function.update_self, Option.some.injEq] at h'
            subst h'
            exact t.valid old e h
          · rw [Function.update_of_ne same] at h'
            exact t.valid fd e' h' }

def close (t : Table D) (fd : Nat) : Table D where
  descriptions := t.descriptions
  entry := Function.update t.entry fd none
  bound := t.bound
  beyond := by
    intro fd' h
    by_cases same : fd' = fd
    · subst same
      exact Function.update_self ..
    · rw [Function.update_of_ne same]
      exact t.beyond fd' h
  valid := by
    intro fd' e h
    by_cases same : fd' = fd
    · subst same
      rw [Function.update_self] at h
      cases h
    · rw [Function.update_of_ne same] at h
      exact t.valid fd' e h

/-! ## What a call leaves behind each descriptor -/

@[simp]
theorem get_openFile_self (t : Table D) (d : D) (c : Bool) :
    (t.openFile d c).get t.lowest = some (d, c) := by
  simp [get, openFile]

theorem get_openFile_of_ne (t : Table D) (d : D) (c : Bool) {fd : Nat} (h : fd ≠ t.lowest) :
    (t.openFile d c).get fd = t.get fd := by
  simp only [get, openFile, Function.update_of_ne h]
  cases hfd : t.entry fd with
  | none => rfl
  | some e =>
    simp only [Option.bind_some]
    rw [List.getElem?_append_left (t.valid fd e hfd)]

@[simp]
theorem get_close_self (t : Table D) (fd : Nat) : (t.close fd).get fd = none := by
  simp [get, close]

theorem get_close_of_ne (t : Table D) {fd fd' : Nat} (h : fd' ≠ fd) :
    (t.close fd).get fd' = t.get fd' := by
  simp only [get, close, Function.update_of_ne h]

theorem get_dup2_self {t : Table D} {old new : Nat} {d : D} {c : Bool} (ne : old ≠ new)
    (h : t.get old = some (d, c)) : (t.dup2 old new).get new = some (d, false) := by
  unfold get at h
  obtain ⟨e, he, hd⟩ := Option.bind_eq_some_iff.mp h
  obtain ⟨d', hd', pair⟩ := Option.map_eq_some_iff.mp hd
  cases pair
  unfold dup2
  rw [if_neg ne]
  split
  · rename_i closed
    rw [he] at closed
    cases closed
  · rename_i e' he'
    rw [he, Option.some.injEq] at he'
    subst he'
    simp [get, hd']

theorem get_dup2_of_ne (t : Table D) {old new fd : Nat} (h : fd ≠ new) :
    (t.dup2 old new).get fd = t.get fd := by
  unfold dup2
  split
  · rfl
  · split
    · rfl
    · simp only [get, Function.update_of_ne h]

/-- A change right behind `open` could have been made before it. -/
theorem update_openFile (t : Table D) (d : D) (c : Bool) (f : D → D) :
    (t.openFile d c).update t.lowest f = t.openFile (f d) c := by
  apply Table.ext
  · simp only [update, openFile, Function.update_self]
    apply List.ext_getElem?
    intro n
    rw [List.getElem?_modify]
    by_cases last : t.descriptions.length = n
    · subst last
      simp
    · by_cases old : n < t.descriptions.length
      · simp [last, List.getElem?_append_left old]
      · have beyond : t.descriptions.length + 1 ≤ n := by omega
        simp [last, List.getElem?_append_right (Nat.le_of_succ_le beyond),
          List.getElem?_eq_none_iff.mpr, Nat.le_sub_of_add_le' beyond]
  · rfl
  · rfl

theorem setCloexec_openFile (t : Table D) (d : D) (c c' : Bool) :
    (t.openFile d c).setCloexec t.lowest c' = t.openFile d c' := by
  apply Table.ext
  · rfl
  · funext fd
    by_cases same : fd = t.lowest
    · subst same
      simp [setCloexec, openFile]
    · simp only [setCloexec, openFile, Function.update_of_ne same]
  · rfl

/-- A new description moved onto descriptor `fd`. -/
def substitute (t : Table D) (fd : Nat) (d : D) (c : Bool) : Table D :=
  ((t.openFile d c).dup2 t.lowest fd).close t.lowest

@[simp]
theorem get_substitute_self {t : Table D} {fd : Nat} (h : t.get fd ≠ none) (d : D) (c : Bool) :
    (t.substitute fd d c).get fd = some (d, false) := by
  have ne := lowest_ne h
  unfold substitute
  rw [get_close_of_ne _ ne]
  exact get_dup2_self ne.symm (t.get_openFile_self d c)

theorem get_substitute_of_ne (t : Table D) {fd fd' : Nat} (d : D) (c : Bool) (ne : fd' ≠ fd) :
    (t.substitute fd d c).get fd' = t.get fd' := by
  unfold substitute
  by_cases temporary : fd' = t.lowest
  · subst temporary
    rw [get_close_self, get_lowest]
  · rw [get_close_of_ne _ temporary, get_dup2_of_ne _ ne, get_openFile_of_ne _ _ _ temporary]

/-! ## Descriptors that are left alone -/

/-- Descriptor `fd` refers to the same description in both tables, or is closed
in both, and the description is the same. -/
structure Kept (t t' : Table D) (fd : Nat) : Prop where
  entry : t'.entry fd = t.entry fd
  description : ∀ e, t.entry fd = some e →
    t'.descriptions[e.description]? = t.descriptions[e.description]?

theorem Kept.refl (t : Table D) (fd : Nat) : Kept t t fd := ⟨rfl, fun _ _ => rfl⟩

theorem Kept.trans {t t' t'' : Table D} {fd : Nat} (first : Kept t t' fd) (second : Kept t' t'' fd) :
    Kept t t'' fd := by
  refine ⟨second.entry.trans first.entry, fun e he => ?_⟩
  rw [second.description e (first.entry.trans he), first.description e he]

theorem Kept.get {t t' : Table D} {fd : Nat} (kept : Kept t t' fd) : t'.get fd = t.get fd := by
  unfold Table.get
  rw [kept.entry]
  cases h : t.entry fd with
  | none => rfl
  | some e => rw [Option.bind_some, Option.bind_some, kept.description e h]

theorem kept_openFile (t : Table D) (d : D) (c : Bool) {fd : Nat} (h : fd ≠ t.lowest) :
    Kept t (t.openFile d c) fd := by
  refine ⟨Function.update_of_ne h .., fun e he => ?_⟩
  exact List.getElem?_append_left (t.valid fd e he)

theorem kept_close (t : Table D) {fd fd' : Nat} (h : fd' ≠ fd) : Kept t (t.close fd) fd' :=
  ⟨Function.update_of_ne h .., fun _ _ => rfl⟩

theorem kept_dup2 (t : Table D) {old new fd : Nat} (h : fd ≠ new) :
    Kept t (t.dup2 old new) fd := by
  unfold dup2
  split
  · exact .refl t fd
  · split
    · exact .refl t fd
    · exact ⟨Function.update_of_ne h .., fun _ _ => rfl⟩

theorem kept_lowest {t t' : Table D} (closed : t'.entry t.lowest = none) :
    Kept t t' t.lowest := by
  refine ⟨?_, fun e he => ?_⟩
  · rw [t.entry_lowest, closed]
  · rw [t.entry_lowest] at he
    cases he

/-- A temporary descriptor is closed again. -/
theorem kept_openFile_close (t : Table D) (d : D) (c : Bool) (fd : Nat) :
    Kept t ((t.openFile d c).close t.lowest) fd := by
  by_cases temporary : fd = t.lowest
  · subst temporary
    exact kept_lowest (Function.update_self ..)
  · exact (t.kept_openFile d c temporary).trans (kept_close _ temporary)

theorem kept_substitute (t : Table D) (d : D) (c : Bool) {fd fd' : Nat} (ne : fd' ≠ fd) :
    Kept t (t.substitute fd d c) fd' := by
  unfold substitute
  by_cases temporary : fd' = t.lowest
  · subst temporary
    exact kept_lowest (Function.update_self ..)
  · have opened := t.kept_openFile d c temporary
    exact (opened.trans (kept_dup2 _ ne)).trans (kept_close _ temporary)

/-! ## Who holds a description -/

def Refers (t : Table D) (n fd : Nat) : Prop := ∃ c, t.entry fd = some ⟨n, c⟩

/-- Some descriptor refers to description `n`. -/
def Holds (t : Table D) (n : Nat) : Prop := ∃ fd, t.Refers n fd

theorem Holds.lt {t : Table D} {n : Nat} (h : t.Holds n) : n < t.descriptions.length := by
  obtain ⟨fd, c, found⟩ := h
  exact t.valid fd _ found

theorem refers_close {t : Table D} {n fd fd' : Nat} :
    (t.close fd).Refers n fd' ↔ fd' ≠ fd ∧ t.Refers n fd' := by
  by_cases same : fd' = fd
  · subst same
    simp [Refers, close]
  · simp [Refers, close, same]

theorem refers_openFile {t : Table D} {d : D} {c : Bool} {n fd : Nat} :
    (t.openFile d c).Refers n fd ↔
      (fd = t.lowest ∧ n = t.descriptions.length) ∨ (fd ≠ t.lowest ∧ t.Refers n fd) := by
  by_cases same : fd = t.lowest
  · subst same
    simp [Refers, openFile, eq_comm]
  · simp [Refers, openFile, same]

theorem refers_setCloexec {t : Table D} {c : Bool} {n fd fd' : Nat} :
    (t.setCloexec fd c).Refers n fd' ↔ t.Refers n fd' := by
  by_cases same : fd' = fd
  · subst same
    cases h : t.entry fd' with
    | none => simp [Refers, setCloexec, h]
    | some e =>
      obtain ⟨m, b⟩ := e
      simp [Refers, setCloexec, h]
  · simp [Refers, setCloexec, same]

theorem Refers.dup2 {t : Table D} {n old : Nat} (h : t.Refers n old) (new fd : Nat) :
    (t.dup2 old new).Refers n fd ↔ fd = new ∨ t.Refers n fd := by
  obtain ⟨c, found⟩ := h
  unfold Table.dup2
  split
  · rename_i same
    subst same
    constructor
    · exact .inr
    · rintro (rfl | refers)
      · exact ⟨c, found⟩
      · exact refers
  · split
    · rename_i closed
      rw [found] at closed
      cases closed
    · rename_i e open_
      rw [found, Option.some.injEq] at open_
      subst open_
      by_cases same : fd = new
      · subst same
        simp [Refers]
      · simp [Refers, same]

theorem descriptions_dup2 (t : Table D) (old new : Nat) :
    (t.dup2 old new).descriptions = t.descriptions := by
  unfold Table.dup2
  split
  · rfl
  · split <;> rfl

theorem not_refers_dup2 {t : Table D} {n old fd : Nat} (other : ¬ t.Refers n old) (new : Nat)
    (h : (t.dup2 old new).Refers n fd) : t.Refers n fd := by
  unfold Table.dup2 at h
  split at h
  · exact h
  · split at h
    · exact h
    · rename_i e open_
      by_cases same : fd = new
      · subst same
        obtain ⟨c, found⟩ := h
        simp only [Function.update_self, Option.some.injEq] at found
        obtain ⟨m, b⟩ := e
        cases found
        exact absurd ⟨b, open_⟩ other
      · simpa [Refers, same] using h

/-! ## Pipes -/

/-- `pipe`: descriptor `t.lowest` reads, and the lowest one left writes. -/
def pipe (t : Table D) (reads writes : D) : Table D :=
  (t.openFile reads false).openFile writes false

def writeEnd (t : Table D) (reads : D) : Nat := (t.openFile reads false).lowest

theorem writeEnd_ne (t : Table D) (reads : D) : t.writeEnd reads ≠ t.lowest := by
  intro same
  have opened := t.get_openFile_self reads false
  rw [← same, writeEnd, get_lowest] at opened
  cases opened

/-- No descriptor that was there before refers to an end. -/
theorem refers_pipe {t : Table D} {reads writes : D} {n fd : Nat} :
    (t.pipe reads writes).Refers n fd ↔
      (fd = t.writeEnd reads ∧ n = t.descriptions.length + 1) ∨
      (fd = t.lowest ∧ n = t.descriptions.length) ∨
      (fd ≠ t.writeEnd reads ∧ fd ≠ t.lowest ∧ t.Refers n fd) := by
  have other := t.writeEnd_ne reads
  have length : (t.openFile reads false).descriptions.length = t.descriptions.length + 1 := by
    simp [openFile]
  rw [pipe, refers_openFile, refers_openFile, length, ← writeEnd]
  by_cases last : fd = t.writeEnd reads
  · subst last
    simp [other]
  · simp [last]

end Table

end Descriptors
