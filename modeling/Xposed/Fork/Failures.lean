import Xposed.Fork.Restore

/-!
# Failing calls while files are closed and reopened

Any of the system calls of `Create` and `Reopen` may fail, at any descriptor.
What every descriptor refers to afterwards, compared with what it did before.
-/

namespace Xposed.Fork

open Descriptors (Table)
open Descriptors.Table (Kept kept_openFile kept_openFile_close kept_substitute kept_close)

/-! ## One descriptor -/

/-- `Detach` gets as far as replacing the descriptor. -/
def DetachCalls.replaces (c : DetachCalls) : Bool := c.opens && c.dup2

theorem detach_cases (info : FileDescriptorInfo) (c : DetachCalls) (t : Table OpenFile) :
    c.replaces = false ∧ (info.Detach c t).2 = t ∨
      c.replaces = false ∧ (info.Detach c t).2 = t.openFile nullFile false ∨
        c.replaces = true ∧ (info.Detach c t).2 = t.substitute info.fd nullFile false := by
  unfold FileDescriptorInfo.Detach DetachCalls.replaces
  cases c.opens with
  | false => exact .inl ⟨rfl, rfl⟩
  | true =>
    cases c.dup2 with
    | false => exact .inr (.inl ⟨rfl, rfl⟩)
    | true => exact .inr (.inr ⟨rfl, rfl⟩)

/-- `Detach` leaves the other open descriptors alone. -/
theorem detach_others (info : FileDescriptorInfo) (c : DetachCalls) {t : Table OpenFile} {fd : Nat}
    (there : t.get fd ≠ none) (ne : fd ≠ info.fd) : Kept t (info.Detach c t).2 fd := by
  rcases detach_cases info c t with ⟨_, same⟩ | ⟨_, same⟩ | ⟨_, same⟩
  · rw [same]
    exact .refl t fd
  · rw [same]
    exact kept_openFile t _ _ (Table.lowest_ne there)
  · rw [same]
    exact kept_substitute t _ _ ne

/-- Descriptor `info.fd` has been replaced by `/dev/null`, or refers to the file
it referred to in `t`. -/
def Settled (c : DetachCalls) (t t' : Table OpenFile) (info : FileDescriptorInfo) : Prop :=
  if c.replaces then t'.get info.fd = some (nullFile, false) else Kept t t' info.fd

theorem Settled.keep {c : DetachCalls} {t s s' : Table OpenFile} {info : FileDescriptorInfo}
    (settled : Settled c t s info) (kept : Kept s s' info.fd) : Settled c t s' info := by
  unfold Settled at settled ⊢
  cases replaces : c.replaces with
  | true =>
    rw [replaces, if_pos rfl] at settled
    rw [if_pos rfl, kept.get, settled]
  | false =>
    rw [replaces, if_neg Bool.false_ne_true] at settled
    rw [if_neg Bool.false_ne_true]
    exact settled.trans kept

theorem detach_self {info : FileDescriptorInfo} (c : DetachCalls) {t s : Table OpenFile}
    (there : t.get info.fd ≠ none) (kept : Kept t s info.fd) :
    Settled c t (info.Detach c s).2 info := by
  have there : s.get info.fd ≠ none := by rwa [kept.get]
  unfold Settled
  rcases detach_cases info c s with ⟨stops, same⟩ | ⟨stops, same⟩ | ⟨replaces, same⟩
  · rwa [stops, if_neg Bool.false_ne_true, same]
  · rw [stops, if_neg Bool.false_ne_true, same]
    exact kept.trans (kept_openFile s _ _ (Table.lowest_ne there))
  · rw [replaces, if_pos rfl, same]
    exact Table.get_substitute_self there _ _

/-- The files of the process's own that `Create` opens are never captured. -/
theorem createFromFd_own {p : Platform} {q : Queries} {t : Table OpenFile} {fd : Nat}
    (own : ∀ f cloexec, t.get fd = some (f, cloexec) → f = nullFile ∨ f = kFd) :
    createFromFd p q t fd = none := by
  unfold createFromFd
  split
  · rfl
  · rename_i f cloexec found
    have plain : S_ISSOCK f.file.st_mode = false ∧ IsWhitelisted (f.path.take 4096) = false := by
      rcases own f cloexec found with rfl | rfl
      · decide
      · decide
    rw [plain.1, plain.2]
    simp

/-- What has been replaced is not captured. -/
theorem createFromFd_null {p : Platform} {q : Queries} {t : Table OpenFile} {fd : Nat} {c : Bool}
    (null : t.get fd = some (nullFile, c)) : createFromFd p q t fd = none := by
  apply createFromFd_own
  intro f cloexec found
  rw [null, Option.some.injEq, Prod.mk.injEq] at found
  exact .inl found.1.symm

/-! ## Closing -/

/-- The descriptors of `map` were captured in `t`, and no others have changed. -/
structure Detached (p : Platform) (c : CreateCalls) (t t' : Table OpenFile)
    (map : List FileDescriptorInfo) : Prop where
  once : (map.map (·.fd)).Nodup
  recorded : ∀ info ∈ map, 2 < info.fd ∧ createFromFd p (c.queries info.fd) t info.fd = some info
  settled : ∀ info ∈ map, Settled (c.detach info.fd) t t' info
  others : ∀ fd, t.get fd ≠ none → (∀ info ∈ map, info.fd ≠ fd) → Kept t t' fd

/-- What the descriptors that `t` does not have refer to while `Create` runs. -/
def Own (t t' : Table OpenFile) : Prop :=
  ∀ fd f cloexec, t.get fd = none → t'.get fd = some (f, cloexec) → f = nullFile ∨ f = kFd

section
variable {p : Platform} {c : CreateCalls} {t s : Table OpenFile} {map : List FileDescriptorInfo}

/-- The original, or `/dev/null`. -/
theorem Detached.cases (detached : Detached p c t s map) {fd : Nat} (h : t.get fd ≠ none) :
    Kept t s fd ∨ s.get fd = some (nullFile, false) := by
  by_cases inside : ∃ info ∈ map, info.fd = fd
  · obtain ⟨info, member, rfl⟩ := inside
    have settled := detached.settled info member
    unfold Settled at settled
    split at settled
    · exact .inr settled
    · exact .inl settled
  · exact .inl (detached.others fd h fun info member same => inside ⟨info, member, same⟩)

theorem Detached.open_ (detached : Detached p c t s map) {fd : Nat} (h : t.get fd ≠ none) :
    s.get fd ≠ none := by
  rcases detached.cases h with kept | null
  · rwa [kept.get]
  · simp [null]

theorem Detached.was_open (detached : Detached p c t s map) {info : FileDescriptorInfo}
    (h : info ∈ map) : t.get info.fd ≠ none := by
  intro closed
  have created := (detached.recorded info h).2
  rw [createFromFd_own (by simp [closed])] at created
  cases created

/-- What a call that leaves the process's descriptors alone keeps. -/
theorem Detached.step {s' : Table OpenFile} (detached : Detached p c t s map)
    (kept : ∀ fd, t.get fd ≠ none → Kept s s' fd) : Detached p c t s' map := by
  refine ⟨detached.once, detached.recorded, fun info h => ?_, fun fd h outside => ?_⟩
  · exact (detached.settled info h).keep (kept info.fd (detached.was_open h))
  · exact (detached.others fd h outside).trans (kept fd h)

/-- The descriptor that is captured is one of `t`, and refers to the same file there. -/
theorem Detached.captures (detached : Detached p c t s map) (own : Own t s) {fd : Nat}
    {info : FileDescriptorInfo} (created : createFromFd p (c.queries fd) s fd = some info) :
    t.get fd ≠ none ∧ Kept t s fd ∧ createFromFd p (c.queries fd) t fd = some info := by
  have there : t.get fd ≠ none := by
    intro closed
    rw [createFromFd_own fun f cloexec found => own fd f cloexec closed found] at created
    cases created
  rcases detached.cases there with kept | null
  · refine ⟨there, kept, ?_⟩
    rwa [← createFromFd_congr p (c.queries fd) kept.get]
  · rw [createFromFd_null null] at created
    cases created

/-- A captured descriptor is detached, and recorded in place of what its number had before. -/
theorem Detached.take (detached : Detached p c t s map) {fd : Nat} {info : FileDescriptorInfo}
    (above : 2 < fd) (there : t.get fd ≠ none) (kept : Kept t s fd)
    (created : createFromFd p (c.queries fd) t fd = some info) :
    Detached p c t (info.Detach (c.detach fd) s).2
      ((map.filter fun i => i.fd != fd) ++ [info]) := by
  obtain rfl : info.fd = fd := createFromFd_fd created
  have mem : ∀ i, i ∈ (map.filter fun i => i.fd != info.fd) ++ [info] ↔
      (i ∈ map ∧ i.fd ≠ info.fd) ∨ i = info := by
    intro i
    simp
  have apart : ∀ fd', t.get fd' ≠ none → fd' ≠ info.fd →
      Kept s (info.Detach (c.detach info.fd) s).2 fd' := fun fd' h ne =>
    detach_others info _ (detached.open_ h) ne
  refine ⟨?_, fun i h => ?_, fun i h => ?_, fun fd' h outside => ?_⟩
  · rw [List.map_append, List.map_singleton]
    refine List.nodup_append.mpr ⟨detached.once.sublist (List.filter_sublist.map _), by simp, ?_⟩
    intro a old b new
    obtain ⟨i, inside, rfl⟩ := List.mem_map.mp old
    rw [List.mem_singleton.mp new]
    simpa using (List.mem_filter.mp inside).2
  · rcases (mem i).mp h with ⟨old, _⟩ | rfl
    · exact detached.recorded i old
    · exact ⟨above, created⟩
  · rcases (mem i).mp h with ⟨old, ne⟩ | rfl
    · exact (detached.settled i old).keep (apart i.fd (detached.was_open old) ne)
    · exact detach_self _ there kept
  · have ne : fd' ≠ info.fd := (outside info ((mem info).mpr (.inr rfl))).symm
    refine (detached.others fd' h fun i old same => ?_).trans (apart fd' h ne)
    exact outside i ((mem i).mpr (.inl ⟨old, by rwa [same]⟩)) same

theorem Own.detach (own : Own t s) {info : FileDescriptorInfo} (there : t.get info.fd ≠ none)
    (d : DetachCalls) : Own t (info.Detach d s).2 := by
  intro fd f cloexec closed found
  have ne : fd ≠ info.fd := by
    rintro rfl
    exact there closed
  rcases detach_cases info d s with ⟨_, same⟩ | ⟨_, same⟩ | ⟨_, same⟩
  · rw [same] at found
    exact own fd f cloexec closed found
  · rw [same] at found
    by_cases new : fd = s.lowest
    · subst new
      rw [Table.get_openFile_self, Option.some.injEq, Prod.mk.injEq] at found
      exact .inl found.1.symm
    · rw [Table.get_openFile_of_ne _ _ _ new] at found
      exact own fd f cloexec closed found
  · rw [same, Table.get_substitute_of_ne _ _ _ ne] at found
    exact own fd f cloexec closed found

end

theorem captureAll_detached {p : Platform} (c : CreateCalls) (dir_fd : Nat)
    (listing : List Dirent) {t s : Table OpenFile} {map : List FileDescriptorInfo}
    (detached : Detached p c t s map) (own : Own t s) :
    Detached p c t (captureAll p c dir_fd listing map s).2
      (captureAll p c dir_fd listing map s).1 := by
  induction listing generalizing map s with
  | nil => exact detached
  | cons e rest ih =>
    rw [captureAll]
    split
    · exact ih detached own
    · rename_i fd parsed
      split
      · exact ih detached own
      · rename_i info created
        obtain ⟨there, kept, created⟩ := detached.captures own created
        have above : 2 < fd := by
          cases e with
          | dots => cases parsed
          | fd n =>
            rw [ParseFd_eq] at parsed
            split at parsed
            · cases parsed
            · cases parsed
              omega
        apply ih
        · exact detached.take above there kept created
        · rw [← createFromFd_fd created] at there
          exact own.detach there _

/-- `open_fd_map` at the end of the loop, whatever becomes of it. -/
def openFdMap (p : Platform) (c : CreateCalls) (listing : List Dirent) (t : Table OpenFile) :
    List FileDescriptorInfo :=
  if !c.opendir then []
  else (captureAll p c t.lowest listing [] (t.openFile kFd true)).1

theorem create_fst (p : Platform) (c : CreateCalls) (listing : List Dirent) (t : Table OpenFile) :
    (Create p c listing t).1 =
      if c.opendir && c.closedir then some (openFdMap p c listing t) else none := by
  unfold Create openFdMap
  cases c.opendir with
  | false => rfl
  | true =>
    cases c.closedir with
    | false => rfl
    | true => rfl

theorem create_detached (p : Platform) (c : CreateCalls) (listing : List Dirent)
    (t : Table OpenFile) :
    Detached p c t (Create p c listing t).2 (openFdMap p c listing t) := by
  have nothing : Detached p c t t [] :=
    ⟨List.nodup_nil, by simp, by simp, fun fd _ _ => .refl t fd⟩
  cases opendir : c.opendir with
  | false =>
    have same : (Create p c listing t).2 = t := by simp [Create, opendir]
    have empty : openFdMap p c listing t = [] := by simp [openFdMap, opendir]
    rwa [same, empty]
  | true =>
    have started : Detached p c t (t.openFile kFd true) [] :=
      nothing.step fun fd there => kept_openFile t _ _ (Table.lowest_ne there)
    have own : Own t (t.openFile kFd true) := by
      intro fd f cloexec closed found
      by_cases new : fd = t.lowest
      · subst new
        rw [Table.get_openFile_self, Option.some.injEq, Prod.mk.injEq] at found
        exact .inr found.1.symm
      · rw [Table.get_openFile_of_ne _ _ _ new, closed] at found
        cases found
    have loop := captureAll_detached c t.lowest listing started own
    have closed : (Create p c listing t).2 =
        (captureAll p c t.lowest listing [] (t.openFile kFd true)).2.close t.lowest := by
      unfold Create
      rw [opendir]
      cases c.closedir with
      | false => rfl
      | true => rfl
    have map : openFdMap p c listing t =
        (captureAll p c t.lowest listing [] (t.openFile kFd true)).1 := by
      simp [openFdMap, opendir]
    rw [closed, map]
    exact loop.step fun fd there => kept_close _ (Table.lowest_ne there)

/-! ## Reopening -/

end Xposed.Fork
