import Mathlib.Algebra.Group.Nat.Defs
import Mathlib.Tactic.ByContra
import Xposed.Fork.FdUtils

/-!
# What a descriptor is after closing and reopening

With every system call succeeding, `Create` puts `/dev/null` behind the
descriptors it captures, and `Reopen` a new description. Which of them are then
as before is decided attribute by attribute.
-/

namespace Xposed.Fork

open Descriptors (Table)

/-- What a process sees of a descriptor. -/
structure View where
  file : File
  flags : Flags
  /-- `none`: the file has no offset. -/
  offset : Option Nat
  cloexec : Bool
  deriving DecidableEq

def view (d : OpenFile × Bool) : View :=
  ⟨d.1.file, d.1.flags, if d.1.file.seekable then some d.1.pos else none, d.2⟩

def look (t : Table OpenFile) (fd : Nat) : Option View := (t.get fd).map view

def Queries.ok : Queries := ⟨true, true, true, true, true⟩

def DetachCalls.ok : DetachCalls := ⟨true, true, true⟩

def CreateCalls.ok : CreateCalls := ⟨true, fun _ => .ok, fun _ => .ok, true⟩

/-- The info that is recorded for descriptor `fd`, if it is captured. -/
def captured (p : Platform) (t : Table OpenFile) (fd : Nat) : Option FileDescriptorInfo :=
  if fd ≤ 2 then none else createFromFd p .ok t fd

/-- `/dev/null` as `Detach` opens it. -/
def nullFile : OpenFile := opened devNull devNullPath O_RDWR

/-- What the temporary descriptor of `Reopen` refers to in the end. -/
def FileDescriptorInfo.reopened (info : FileDescriptorInfo) (file : File) : OpenFile :=
  let f := (opened file info.file_path info.open_flags).setfl info.fs_flags
  if info.offset ≠ -1 then f.seek info.offset else f

/-! ## One descriptor -/

theorem detach_ok (info : FileDescriptorInfo) (t : Table OpenFile) :
    info.Detach .ok t = (true, t.substitute info.fd nullFile false) := rfl

/-- A `Reopen` that returns true. -/
theorem reopen_ok {info : FileDescriptorInfo} {named : Bytes → Option File} {c : ReopenCalls}
    {t : Table OpenFile} (h : (info.Reopen named c t).1 = true) :
    info.is_sock = true ∧ (info.Reopen named c t).2 = t ∨
      info.is_sock = false ∧ ∃ file, named info.file_path = some file ∧
        (info.offset ≠ -1 → file.seekable = true ∧ 0 ≤ info.offset) ∧
        (info.Reopen named c t).2 = t.substitute info.fd (info.reopened file) info.fd_flags := by
  cases sock : info.is_sock with
  | true => exact .inl ⟨rfl, by simp [FileDescriptorInfo.Reopen, sock]⟩
  | false =>
    refine .inr ⟨rfl, ?_⟩
    unfold FileDescriptorInfo.Reopen at h ⊢
    rw [if_neg (by simp [sock])] at h ⊢
    split at h
    · cases h
    · rename_i file names
      have opens : c.opens = true := by
        by_contra fails
        rw [Bool.not_eq_true] at fails
        simp [fails] at h
      have setfd : c.setfd = true := by
        by_contra fails
        rw [Bool.not_eq_true] at fails
        simp [opens, fails] at h
      have setfl : c.setfl = true := by
        by_contra fails
        rw [Bool.not_eq_true] at fails
        simp [opens, setfd, fails] at h
      simp only [opens, setfd, setfl, Bool.not_true, Bool.false_eq_true, if_false,
        Table.setCloexec_openFile, Table.update_openFile] at h ⊢
      have seeks : info.offset ≠ -1 → c.lseek = true ∧ file.seekable = true ∧ 0 ≤ info.offset := by
        intro moves
        by_contra fails
        have refused : (decide (info.offset ≠ -1) &&
            !(c.lseek && file.seekable && decide (0 ≤ info.offset))) = true := by
          rw [Bool.and_eq_true, Bool.not_eq_true', ← Bool.not_eq_true]
          refine ⟨by simpa using moves, fun all => fails ?_⟩
          simpa [and_assoc] using all
        rw [if_pos refused] at h
        cases h
      have goesOn : (decide (info.offset ≠ -1) &&
          !(c.lseek && file.seekable && decide (0 ≤ info.offset))) = false := by
        by_cases moves : info.offset = -1
        · simp [moves]
        · simp [seeks moves]
      rw [goesOn] at h ⊢
      simp only [Bool.false_eq_true, if_false] at h ⊢
      have dup2 : c.dup2 = true := by
        by_contra fails
        rw [Bool.not_eq_true] at fails
        simp [fails] at h
      refine ⟨file, names, fun moves => (seeks moves).2, ?_⟩
      rw [dup2]
      by_cases moves : info.offset = -1
      · simp [moves, Table.substitute, FileDescriptorInfo.reopened]
      · simp [moves, Table.substitute, FileDescriptorInfo.reopened]

theorem createFromFd_fd {p : Platform} {q : Queries} {t : Table OpenFile} {fd : Nat}
    {info : FileDescriptorInfo} (h : createFromFd p q t fd = some info) : info.fd = fd := by
  unfold createFromFd at h
  split at h
  · cases h
  · split at h
    · cases h
    · split at h
      · split at h
        · cases h
        · split at h
          · cases h
          · cases h
            rfl
      · split at h
        · cases h
        · split at h
          · cases h
          · split at h
            · cases h
            · split at h
              · cases h
              · split at h
                · cases h
                · cases h
                  rfl

theorem createFromFd_congr (p : Platform) (q : Queries) {t t' : Table OpenFile} {fd : Nat}
    (same : t'.get fd = t.get fd) : createFromFd p q t' fd = createFromFd p q t fd := by
  unfold createFromFd
  rw [same]

/-- What is recorded of a descriptor that is captured. -/
theorem captured_info {p : Platform} {t : Table OpenFile} {fd : Nat} {info : FileDescriptorInfo}
    (h : captured p t fd = some info) :
    2 < fd ∧ ∃ f cloexec, t.get fd = some (f, cloexec) ∧
      (S_ISSOCK f.file.st_mode = true ∧ info = ⟨fd, [], 0, false, 0, 0, true⟩ ∨
        S_ISSOCK f.file.st_mode = false ∧
          info = ⟨fd, f.path.take 4096, f.flags &&& kOpenFlags, cloexec, f.flags &&& ~~~kOpenFlags,
            p.off_t (if f.file.seekable then f.pos else -1), false⟩) := by
  unfold captured at h
  split at h
  · cases h
  · rename_i above
    refine ⟨by omega, ?_⟩
    unfold createFromFd at h
    split at h
    · cases h
    · rename_i f cloexec found
      refine ⟨f, cloexec, found, ?_⟩
      split at h
      · cases h
      · split at h
        · rename_i sock
          split at h
          · cases h
          · split at h
            · cases h
            · cases h
              exact .inl ⟨sock, rfl⟩
        · rename_i sock
          simp only [Queries.ok, Bool.not_true, Bool.false_eq_true, if_false] at h
          split at h
          · cases h
          · split at h
            · cases h
            · cases h
              exact .inr ⟨by simpa using sock, rfl⟩

/-! ## All descriptors -/

/-- The numbers in a listing. -/
def numbers (listing : List Dirent) : List Nat :=
  listing.filterMap fun e => match e with
    | .dots => none
    | .fd n => some n

theorem ParseFd_eq (n dir_fd : Nat) :
    ParseFd (.fd n) dir_fd = if n ≤ 2 ∨ n = dir_fd then none else some n := by
  simp [ParseFd]

theorem captureAll_skip {p : Platform} {dir_fd n : Nat} (rest : List Dirent)
    (map : List FileDescriptorInfo) {t : Table OpenFile}
    (h : n = dir_fd ∨ captured p t n = none) :
    captureAll p .ok dir_fd (.fd n :: rest) map t = captureAll p .ok dir_fd rest map t := by
  rw [captureAll, ParseFd_eq]
  by_cases skipped : n ≤ 2 ∨ n = dir_fd
  · rw [if_pos skipped]
  · rw [if_neg skipped]
    have absent : createFromFd p .ok t n = none := by
      rcases h with own | absent
      · exact absurd (.inr own) skipped
      · rwa [captured, if_neg fun low => skipped (.inl low)] at absent
    simp [CreateCalls.ok, absent]

theorem captureAll_take {p : Platform} {dir_fd n : Nat} (rest : List Dirent)
    {map : List FileDescriptorInfo} {t : Table OpenFile} {info : FileDescriptorInfo}
    (ne : n ≠ dir_fd) (h : captured p t n = some info) (apart : ∀ i ∈ map, i.fd ≠ n) :
    captureAll p .ok dir_fd (.fd n :: rest) map t =
      captureAll p .ok dir_fd rest (map ++ [info]) (t.substitute n nullFile false) := by
  obtain ⟨above, _⟩ := captured_info h
  have created : createFromFd p .ok t n = some info := by
    rwa [captured, if_neg (by omega)] at h
  have kept : map.filter (fun i : FileDescriptorInfo => i.fd != n) = map :=
    List.filter_eq_self.mpr fun i hi => by simpa using apart i hi
  rw [captureAll, ParseFd_eq, if_neg (by omega)]
  have detached := detach_ok info t
  simp only [CreateCalls.ok] at detached ⊢
  simp only [created, kept, detached, createFromFd_fd created]

theorem captured_substitute {p : Platform} {t : Table OpenFile} {n fd : Nat} (d : OpenFile)
    (ne : fd ≠ n) : captured p (t.substitute n d false) fd = captured p t fd := by
  unfold captured
  rw [createFromFd_congr p .ok (t.get_substitute_of_ne d false ne)]

theorem captured_fd {p : Platform} {t : Table OpenFile} {fd : Nat} {info : FileDescriptorInfo}
    (h : captured p t fd = some info) : info.fd = fd := by
  unfold captured at h
  split at h
  · cases h
  · exact createFromFd_fd h

/-- The loop over `listing` replaces the descriptors that are captured, and no others. -/
structure Captures (p : Platform) (dir_fd : Nat) (listing : List Dirent)
    (map : List FileDescriptorInfo) (t : Table OpenFile)
    (r : List FileDescriptorInfo × Table OpenFile) : Prop where
  once : (r.1.map (·.fd)).Nodup
  mem : ∀ info, info ∈ r.1 ↔
    info ∈ map ∨ info.fd ∈ numbers listing ∧ info.fd ≠ dir_fd ∧ captured p t info.fd = some info
  get : ∀ fd, r.2.get fd =
    if fd ∈ numbers listing ∧ fd ≠ dir_fd ∧ captured p t fd ≠ none then some (nullFile, false)
    else t.get fd

section
variable {p : Platform} {dir_fd n : Nat} {rest : List Dirent} {map : List FileDescriptorInfo}
  {t : Table OpenFile} {r : List FileDescriptorInfo × Table OpenFile}

theorem mem_numbers {fd : Nat} : fd ∈ numbers (.fd n :: rest) ↔ fd = n ∨ fd ∈ numbers rest :=
  List.mem_cons

theorem Captures.skip (captures : Captures p dir_fd rest map t r)
    (skipped : n = dir_fd ∨ captured p t n = none) :
    Captures p dir_fd (.fd n :: rest) map t r := by
  have never : ¬ (n ≠ dir_fd ∧ captured p t n ≠ none) := by
    rintro ⟨other, taken⟩
    exact skipped.elim other taken
  refine ⟨captures.once, fun info => ?_, fun fd => ?_⟩
  · rw [captures.mem info, mem_numbers]
    constructor
    · rintro (old | ⟨hn, new⟩)
      · exact .inl old
      · exact .inr ⟨.inr hn, new⟩
    · rintro (old | ⟨same | hn, other, taken⟩)
      · exact .inl old
      · rw [same] at other taken
        exact absurd ⟨other, by simp [taken]⟩ never
      · exact .inr ⟨hn, other, taken⟩
  · rw [captures.get fd]
    by_cases same : fd = n
    · subst same
      rw [if_neg fun h => never h.2, if_neg fun h => never h.2]
    · simp only [mem_numbers, same, false_or]

theorem Captures.take {info : FileDescriptorInfo}
    (captures : Captures p dir_fd rest (map ++ [info]) (t.substitute n nullFile false) r)
    (fresh : n ∉ numbers rest) (ne : n ≠ dir_fd) (taken : captured p t n = some info) :
    Captures p dir_fd (.fd n :: rest) map t r := by
  have named := captured_fd taken
  obtain ⟨_, f, cloexec, found, _⟩ := captured_info taken
  have other : ∀ fd ∈ numbers rest, fd ≠ n := by
    rintro fd hn rfl
    exact fresh hn
  refine ⟨captures.once, fun i => ?_, fun fd => ?_⟩
  · rw [captures.mem i, mem_numbers, List.mem_append, List.mem_singleton]
    constructor
    · rintro ((old | rfl) | ⟨hn, ne', now⟩)
      · exact .inl old
      · rw [named]
        exact .inr ⟨.inl rfl, ne, taken⟩
      · rw [captured_substitute _ (other _ hn)] at now
        exact .inr ⟨.inr hn, ne', now⟩
    · rintro (old | ⟨same | hn, ne', now⟩)
      · exact .inl (.inl old)
      · rw [same, taken, Option.some.injEq] at now
        exact .inl (.inr now.symm)
      · rw [← captured_substitute nullFile (other _ hn)] at now
        exact .inr ⟨hn, ne', now⟩
  · rw [captures.get fd]
    by_cases same : fd = n
    · subst same
      have open_ : t.get fd ≠ none := by simp [found]
      rw [if_neg fun h => fresh h.1, Table.get_substitute_self open_,
        if_pos ⟨mem_numbers.mpr (.inl rfl), ne, by simp [taken]⟩]
    · rw [captured_substitute _ same, Table.get_substitute_of_ne _ _ _ same]
      simp only [mem_numbers, same, false_or]

end

theorem captureAll_spec (p : Platform) (dir_fd : Nat) {listing : List Dirent}
    {map : List FileDescriptorInfo} {t : Table OpenFile} (distinct : (numbers listing).Nodup)
    (apart : ∀ info ∈ map, info.fd ∉ numbers listing) (once : (map.map (·.fd)).Nodup) :
    Captures p dir_fd listing map t (captureAll p .ok dir_fd listing map t) := by
  induction listing generalizing map t with
  | nil => exact ⟨once, by simp [captureAll, numbers], by simp [captureAll, numbers]⟩
  | cons e rest ih =>
    cases e with
    | dots =>
      obtain ⟨once', mem, get⟩ := ih distinct apart once
      exact ⟨once', mem, get⟩
    | fd n =>
      obtain ⟨fresh, distinct⟩ := List.nodup_cons.mp distinct
      have apart' : ∀ info ∈ map, info.fd ≠ n ∧ info.fd ∉ numbers rest := by
        intro info h
        exact not_or.mp (mt mem_numbers.mpr (apart info h))
      by_cases skipped : n = dir_fd ∨ captured p t n = none
      · rw [captureAll_skip rest map skipped]
        exact (ih distinct (fun info h => (apart' info h).2) once).skip skipped
      · obtain ⟨ne, taken⟩ := not_or.mp skipped
        obtain ⟨info, taken⟩ := Option.ne_none_iff_exists'.mp taken
        have named := captured_fd taken
        rw [captureAll_take rest ne taken fun i hi => (apart' i hi).1]
        refine Captures.take (ih distinct ?_ ?_) fresh ne taken
        · rw [List.forall_mem_append, List.forall_mem_singleton, named]
          exact ⟨fun i hi => (apart' i hi).2, fresh⟩
        · rw [List.map_append, List.map_singleton, named, List.perm_append_comm.nodup_iff]
          apply List.nodup_cons.mpr ⟨?_, once⟩
          intro again
          obtain ⟨i, hi, same⟩ := List.mem_map.mp again
          exact (apart' i hi).1 same

/-- What the table looks like in between. -/
theorem create_spec {p : Platform} {t between : Table OpenFile} {listing : List Dirent}
    {map : List FileDescriptorInfo} (distinct : (numbers listing).Nodup)
    (lists : ∀ fd, fd ∈ numbers listing ↔ (t.openFile kFd true).get fd ≠ none)
    (created : Create p .ok listing t = (some map, between)) :
    (map.map (·.fd)).Nodup ∧ (∀ info, info ∈ map ↔ captured p t info.fd = some info) ∧
      ∀ fd, between.get fd =
        if captured p t fd ≠ none then some (nullFile, false) else t.get fd := by
  have whole := @captureAll_spec p t.lowest listing [] (t.openFile kFd true) distinct
    (by simp) (by simp)
  simp only [Create, CreateCalls.ok, Bool.not_true, Bool.false_eq_true, if_false, Prod.mk.injEq,
    Option.some.injEq] at created
  obtain ⟨rfl, rfl⟩ := created
  obtain ⟨nodup, mem, get⟩ := whole
  have before : ∀ fd, fd ≠ t.lowest →
      captured p (t.openFile kFd true) fd = captured p t fd := by
    intro fd ne
    unfold captured
    rw [createFromFd_congr p .ok (t.get_openFile_of_ne kFd true ne)]
  have own : captured p t t.lowest = none := by
    by_contra taken
    obtain ⟨info, taken⟩ := Option.ne_none_iff_exists'.mp taken
    obtain ⟨_, f, cloexec, found, _⟩ := captured_info taken
    rw [t.get_lowest] at found
    cases found
  have other : ∀ fd, captured p t fd ≠ none → fd ≠ t.lowest := by
    rintro fd taken rfl
    exact taken own
  have listed : ∀ fd, captured p t fd ≠ none → fd ∈ numbers listing := by
    intro fd taken
    obtain ⟨info, htaken⟩ := Option.ne_none_iff_exists'.mp taken
    obtain ⟨_, f, cloexec, found, _⟩ := captured_info htaken
    rw [lists, t.get_openFile_of_ne kFd true (other fd taken), found]
    simp
  refine ⟨nodup, fun info => ?_, fun fd => ?_⟩
  · rw [CreateCalls.ok] at mem
    rw [mem info]
    constructor
    · rintro (old | ⟨_, ne, taken⟩)
      · simp at old
      · rwa [before _ ne] at taken
    · intro taken
      have some : captured p t info.fd ≠ none := by simp [taken]
      exact .inr ⟨listed _ some, other _ some, by rwa [before _ (other _ some)]⟩
  · by_cases dir : fd = t.lowest
    · subst dir
      rw [Table.get_close_self, own, if_neg (by simp), t.get_lowest]
    · rw [Table.get_close_of_ne _ dir]
      rw [CreateCalls.ok] at get
      rw [get fd, before fd dir, t.get_openFile_of_ne kFd true dir]
      by_cases taken : captured p t fd = none
      · rw [if_neg (by simp [taken]), if_neg (by simp [taken])]
      · rw [if_pos ⟨listed fd taken, dir, taken⟩, if_pos taken]

/-- What `Reopen` leaves of the whole table when it never fails. -/
theorem reopenAll_spec {named : Bytes → Option File} {c : Nat → ReopenCalls}
    {order : List FileDescriptorInfo} {t : Table OpenFile} (distinct : (order.map (·.fd)).Nodup)
    (opens : ∀ info ∈ order, t.get info.fd ≠ none)
    (all : (reopenAll named c order t).1 = true) :
    (∀ fd, (∀ info ∈ order, info.fd = fd → info.is_sock = true) →
      (reopenAll named c order t).2.get fd = t.get fd) ∧
    ∀ info ∈ order, info.is_sock = false → ∃ file, named info.file_path = some file ∧
      (info.offset ≠ -1 → file.seekable = true ∧ 0 ≤ info.offset) ∧
      (reopenAll named c order t).2.get info.fd = some (info.reopened file, false) := by
  induction order generalizing t with
  | nil => simp [reopenAll]
  | cons i rest ih =>
    obtain ⟨fresh, distinct⟩ := List.nodup_cons.mp distinct
    have apart : ∀ info ∈ rest, info.fd ≠ i.fd := fun info h same =>
      fresh (List.mem_map.mpr ⟨info, h, same⟩)
    simp only [reopenAll, Bool.and_eq_true] at all ⊢
    rcases reopen_ok all.1 with ⟨sock, kept⟩ | ⟨file, name, named', sought, moved⟩
    · rw [kept] at all ⊢
      obtain ⟨others, again⟩ := ih distinct (fun info h => opens info (List.mem_cons_of_mem i h)) all.2
      refine ⟨fun fd socks => others fd fun info h => socks info (List.mem_cons_of_mem i h), ?_⟩
      intro info h file
      rcases List.mem_cons.mp h with rfl | h
      · rw [sock] at file
        cases file
      · exact again info h file
    · rw [moved] at all ⊢
      have here := opens i List.mem_cons_self
      have opens' : ∀ info ∈ rest,
          (t.substitute i.fd (i.reopened name) i.fd_flags).get info.fd ≠ none := by
        intro info h
        rw [Table.get_substitute_of_ne _ _ _ (apart info h)]
        exact opens info (List.mem_cons_of_mem i h)
      obtain ⟨others, again⟩ := ih distinct opens' all.2
      refine ⟨fun fd socks => ?_, fun info h isFile => ?_⟩
      · have ne : fd ≠ i.fd := by
          rintro rfl
          rw [socks i List.mem_cons_self rfl] at file
          cases file
        rw [others fd fun info h => socks info (List.mem_cons_of_mem i h),
          Table.get_substitute_of_ne _ _ _ ne]
      · rcases List.mem_cons.mp h with rfl | h
        · refine ⟨name, named', sought, ?_⟩
          rw [others info.fd fun j hj same => absurd same (apart j hj),
            Table.get_substitute_self here]
        · exact again info h isFile

/-! ## The attributes of one descriptor -/

/-- What `open` and `F_SETFL` make of the flags is what they were, if there were
no others than those, and those that `open` sets itself. -/
theorem flags_restored {w : Nat} (f opens sets own : BitVec w) (h₁ : opens &&& sets = 0)
    (h₂ : own &&& opens = 0) (h₃ : own &&& sets = 0) :
    (f &&& opens ||| own) &&& ~~~sets ||| f &&& ~~~opens &&& sets = f ↔
      f &&& ~~~(opens ||| sets) = own := by
  have bits : ∀ i, opens.getLsbD i = true → sets.getLsbD i = false ∧ own.getLsbD i = false := by
    intro i hi
    have s := congrArg (·.getLsbD i) h₁
    have o := congrArg (·.getLsbD i) h₂
    simp [hi] at s o
    exact ⟨s, o⟩
  have bits' : ∀ i, sets.getLsbD i = true → own.getLsbD i = false := by
    intro i hi
    have o := congrArg (·.getLsbD i) h₃
    simpa [hi] using o
  rw [BitVec.eq_of_getLsbD_eq_iff, BitVec.eq_of_getLsbD_eq_iff]
  refine forall₂_congr fun i hi => ?_
  simp only [BitVec.getLsbD_or, BitVec.getLsbD_and, BitVec.getLsbD_not, hi, decide_true,
    Bool.true_and]
  cases o : opens.getLsbD i with
  | true => simp [bits i o]
  | false =>
    cases s : sets.getLsbD i with
    | true => simp [bits' i s]
    | false => simpa using eq_comm

theorem off_t_eq_iff (p : Platform) (pos : Nat) :
    p.off_t pos = pos ↔ p.lp64 = true ∨ pos < 2 ^ 31 := by
  unfold Platform.off_t int32
  cases p.lp64 with
  | true => simp
  | false =>
    rw [if_neg Bool.false_ne_true]
    constructor
    · intro same
      right
      omega
    · rintro (wide | small)
      · cases wide
      · omega

/-- The offset that `lseek` sets, or leaves at the start. -/
theorem off_t_restored {p : Platform} {pos : Nat} (seeks : p.off_t pos ≠ -1 → 0 ≤ p.off_t pos) :
    (if p.off_t pos ≠ -1 then (p.off_t pos).toNat else 0) = pos ↔ p.lp64 = true ∨ pos < 2 ^ 31 := by
  have kept := off_t_eq_iff p pos
  have start : pos = 0 → p.off_t pos = pos := by
    rintro rfl
    exact (off_t_eq_iff p 0).mpr (.inr (by decide))
  rw [← kept]
  by_cases moves : p.off_t pos = -1
  · rw [if_neg (not_not_intro moves)]
    constructor
    · intro zero
      exact start zero.symm
    · intro same
      omega
  · rw [if_pos moves]
    have := seeks moves
    omega

/-- Everything that is recorded of a descriptor comes back with it. -/
structure Restorable (p : Platform) (f : OpenFile) (cloexec : Bool) : Prop where
  file : S_ISSOCK f.file.st_mode = false
  /-- no flags but those that `open` and `F_SETFL` take, and the one `open` sets -/
  flags : f.flags &&& ~~~(kOpenFlags ||| setfl) = O_LARGEFILE
  offset : f.file.seekable = true → p.lp64 = true ∨ f.pos < 2 ^ 31
  cloexec : cloexec = false

theorem reopened_file (info : FileDescriptorInfo) (file : File) :
    (info.reopened file).file = file := by
  unfold FileDescriptorInfo.reopened
  dsimp only
  split <;> rfl

theorem reopened_flags (info : FileDescriptorInfo) (file : File) :
    (info.reopened file).flags =
      ((info.open_flags ||| O_LARGEFILE) &&& ~~~setfl) ||| (info.fs_flags &&& setfl) := by
  unfold FileDescriptorInfo.reopened
  dsimp only
  split <;> rfl

theorem reopened_pos (info : FileDescriptorInfo) (file : File) :
    (info.reopened file).pos = if info.offset ≠ -1 then info.offset.toNat else 0 := by
  unfold FileDescriptorInfo.reopened
  dsimp only
  split <;> rfl

/-- A captured descriptor looks the same exactly if it is restorable. -/
theorem same_view_iff {p : Platform} {f : OpenFile} {cloexec : Bool} {info : FileDescriptorInfo}
    (file : S_ISSOCK f.file.st_mode = false) (flags : info.open_flags = f.flags &&& kOpenFlags)
    (status : info.fs_flags = f.flags &&& ~~~kOpenFlags)
    (offset : info.offset = p.off_t (if f.file.seekable then f.pos else -1))
    (seeks : info.offset ≠ -1 → f.file.seekable = true ∧ 0 ≤ info.offset) :
    view (info.reopened f.file, false) = view (f, cloexec) ↔ Restorable p f cloexec := by
  have flagsBack := flags_restored f.flags kOpenFlags setfl O_LARGEFILE (by decide) (by decide)
    (by decide)
  have offsetBack : f.file.seekable = true →
      ((info.reopened f.file).pos = f.pos ↔ p.lp64 = true ∨ f.pos < 2 ^ 31) := by
    intro seekable
    rw [if_pos seekable] at offset
    rw [reopened_pos, offset]
    exact off_t_restored fun moves => by
      rw [← offset] at moves ⊢
      exact (seeks moves).2
  unfold view
  simp only [reopened_file, reopened_flags, flags, status, View.mk.injEq, true_and, flagsBack]
  constructor
  · rintro ⟨others, same, shut⟩
    refine ⟨file, others, fun seekable => ?_, shut.symm⟩
    rw [if_pos seekable, if_pos seekable, Option.some.injEq] at same
    exact (offsetBack seekable).mp same
  · rintro ⟨_, others, far, shut⟩
    refine ⟨others, ?_, shut.symm⟩
    by_cases seekable : f.file.seekable = true
    · rw [if_pos seekable, if_pos seekable, (offsetBack seekable).mpr (far seekable)]
    · rw [if_neg seekable, if_neg seekable]

/-! ## The whole table -/

/-- What `/proc/self/fd` lists: every open descriptor once. -/
structure Lists (t : Table OpenFile) (listing : List Dirent) : Prop where
  distinct : (numbers listing).Nodup
  all : ∀ fd, fd ∈ numbers listing ↔ t.get fd ≠ none

/-- A captured descriptor, once its file is reopened; a socket stays `/dev/null`. -/
theorem look_captured_iff {p : Platform} {t after : Table OpenFile} {fd : Nat} {f : OpenFile}
    {cloexec : Bool} {info : FileDescriptorInfo} (taken : captured p t fd = some info)
    (found : t.get fd = some (f, cloexec))
    (socket : info.is_sock = true → after.get fd = some (nullFile, false))
    (file : info.is_sock = false → (info.offset ≠ -1 → f.file.seekable = true ∧ 0 ≤ info.offset) ∧
      after.get fd = some (info.reopened f.file, false)) :
    look after fd = look t fd ↔ Restorable p f cloexec := by
  obtain ⟨_, f', cloexec', found', recorded⟩ := captured_info taken
  rw [found, Option.some.injEq, Prod.mk.injEq] at found'
  obtain ⟨rfl, rfl⟩ := found'
  rw [look, look, found]
  rcases recorded with ⟨sock, rfl⟩ | ⟨isFile, recorded⟩
  · rw [socket rfl]
    constructor
    · intro same
      simp only [Option.map_some, Option.some.injEq, view, View.mk.injEq] at same
      rw [← same.1] at sock
      cases sock
    · intro restorable
      rw [restorable.file] at sock
      cases sock
  · obtain ⟨sought, now⟩ := file (by rw [recorded])
    rw [now, Option.map_some, Option.map_some, Option.some.injEq]
    exact same_view_iff isFile (by rw [recorded]) (by rw [recorded]) (by rw [recorded]) sought

/-- **Closing and reopening restores the table** exactly if every descriptor that
is captured is restorable: whatever the order of the map, every descriptor then
looks as before, and the captured ones were `/dev/null` in between. -/
theorem restores_iff {p : Platform} {t between : Table OpenFile} {listing : List Dirent}
    {map order : List FileDescriptorInfo} {named : Bytes → Option File} {c : Nat → ReopenCalls}
    (lists : Lists (t.openFile kFd true) listing)
    (created : Create p .ok listing t = (some map, between)) (perm : order.Perm map)
    (names : ∀ fd info f cloexec, captured p t fd = some info → t.get fd = some (f, cloexec) →
      info.is_sock = false → named info.file_path = some f.file)
    (all : (reopenAll named c order between).1 = true) :
    ((∀ fd, look (reopenAll named c order between).2 fd = look t fd) ∧
      ∀ info ∈ map, (look between info.fd).map View.file = some devNull) ↔
    ∀ fd f cloexec, captured p t fd ≠ none → t.get fd = some (f, cloexec) →
      Restorable p f cloexec := by
  obtain ⟨nodup, mem, get⟩ := create_spec lists.distinct lists.all created
  have detached : ∀ info ∈ map, between.get info.fd = some (nullFile, false) := by
    intro info h
    rw [get info.fd, if_pos (by simp [(mem info).mp h])]
  have inOrder : ∀ info, info ∈ order ↔ captured p t info.fd = some info := fun info =>
    perm.mem_iff.trans (mem info)
  obtain ⟨others, reopened⟩ := reopenAll_spec ((perm.map _).nodup_iff.mpr nodup)
    (fun info h => by simp [detached info (perm.mem_iff.mp h)]) all
  have null : ∀ info ∈ map, (look between info.fd).map View.file = some devNull := by
    intro info h
    rw [look, detached info h]
    rfl
  have untouched : ∀ fd, captured p t fd = none →
      (reopenAll named c order between).2.get fd = t.get fd := by
    intro fd missed
    rw [others fd, get fd, if_neg (by simp [missed])]
    rintro info h rfl
    rw [(inOrder info).mp h] at missed
    cases missed
  have taken : ∀ fd f cloexec, captured p t fd ≠ none → t.get fd = some (f, cloexec) →
      (look (reopenAll named c order between).2 fd = look t fd ↔ Restorable p f cloexec) := by
    intro fd f cloexec some found
    obtain ⟨info, some⟩ := Option.ne_none_iff_exists'.mp some
    have number := captured_fd some
    have member : info ∈ order := (inOrder info).mpr (by rw [number]; exact some)
    apply look_captured_iff some found
    · intro sock
      rw [others fd, get fd, if_pos (by simp [some])]
      rintro i hi rfl
      rw [(inOrder i).mp hi, Option.some.injEq] at some
      rwa [some]
    · intro isFile
      obtain ⟨name, named', sought, now⟩ := reopened info member isFile
      rw [names fd info f cloexec some found isFile, Option.some.injEq] at named'
      subst named'
      rw [number] at now
      exact ⟨sought, now⟩
  constructor
  · rintro ⟨same, _⟩ fd f cloexec some found
    exact (taken fd f cloexec some found).mp (same fd)
  · intro restorable
    refine ⟨fun fd => ?_, null⟩
    by_cases missed : captured p t fd = none
    · rw [look, look, untouched fd missed]
    · obtain ⟨info, some⟩ := Option.ne_none_iff_exists'.mp missed
      obtain ⟨_, f, cloexec, found, _⟩ := captured_info some
      exact (taken fd f cloexec missed found).mpr (restorable fd f cloexec missed found)

def apk : File := ⟨7, 0o100644, true, .other⟩

def apkPath : Bytes := ascii "/data/app/a.apk"

/-- A process with its three standard descriptors and an app's file at 3. -/
def withApk (cloexec : Bool) : Table OpenFile :=
  (((Table.empty.openFile nullFile false).openFile nullFile false).openFile nullFile false).openFile
    ⟨apk, apkPath, O_LARGEFILE, 12⟩ cloexec

def apkListing : List Dirent := [.dots, .dots, .fd 0, .fd 1, .fd 2, .fd 3, .fd 4]

def lp64 : Platform := ⟨true, 24⟩

/-- What is recorded of it. -/
def apkInfo (cloexec : Bool) : FileDescriptorInfo :=
  ⟨3, apkPath, 0, cloexec, O_LARGEFILE, 12, false⟩

def apkBetween (cloexec : Bool) : Table OpenFile := (Create lp64 .ok apkListing (withApk cloexec)).2

def apkNamed (path : Bytes) : Option File := if path = apkPath then some apk else none

def allSucceed (_ : Nat) : ReopenCalls := ⟨true, true, true, true, true⟩

theorem withApk_lists (cloexec : Bool) :
    Lists ((withApk cloexec).openFile kFd true) apkListing := by
  refine ⟨by decide, fun fd => ?_⟩
  constructor
  · intro listed
    have few : ∀ fd ∈ numbers apkListing, ((withApk cloexec).openFile kFd true).get fd ≠ none := by
      cases cloexec <;> decide
    exact few fd listed
  · intro open_
    have inside : fd < 5 := Table.lt_bound open_
    have all : ∀ fd < 5, fd ∈ numbers apkListing := by decide
    exact all fd inside

theorem withApk_names (cloexec : Bool) :
    ∀ fd info f c, captured lp64 (withApk cloexec) fd = some info →
      (withApk cloexec).get fd = some (f, c) → info.is_sock = false →
        apkNamed info.file_path = some f.file := by
  intro fd info f c taken found _
  obtain ⟨above, _⟩ := captured_info taken
  have inside : fd < 4 := Table.lt_bound (t := withApk cloexec) (by simp [found])
  have at3 : fd = 3 := by omega
  subst at3
  have recorded : captured lp64 (withApk cloexec) 3 = some (apkInfo cloexec) := by
    cases cloexec <;> decide
  have there : (withApk cloexec).get 3 = some (⟨apk, apkPath, O_LARGEFILE, 12⟩, cloexec) := by
    cases cloexec <;> decide
  rw [recorded, Option.some.injEq] at taken
  rw [there, Option.some.injEq, Prod.mk.injEq] at found
  rw [← taken, ← found.1]
  simp [apkNamed, apkInfo]

theorem withApk_created (cloexec : Bool) :
    Create lp64 .ok apkListing (withApk cloexec) =
      (some [apkInfo cloexec], apkBetween cloexec) := by
  have map : (Create lp64 .ok apkListing (withApk cloexec)).1 = some [apkInfo cloexec] := by
    cases cloexec <;> decide
  exact Prod.ext map rfl

/-- Without the close-on-exec flag the file comes back as it was. -/
theorem apk_restored :
    look (reopenAll apkNamed allSucceed [apkInfo false] (apkBetween false)).2 3 =
      look (withApk false) 3 := by
  have restorable : ∀ fd f cloexec, captured lp64 (withApk false) fd ≠ none →
      (withApk false).get fd = some (f, cloexec) → Restorable lp64 f cloexec := by
    intro fd f cloexec taken found
    obtain ⟨info, taken⟩ := Option.ne_none_iff_exists'.mp taken
    obtain ⟨above, _⟩ := captured_info taken
    have inside : fd < 4 := Table.lt_bound (t := withApk false) (by simp [found])
    have at3 : fd = 3 := by omega
    subst at3
    have there : (withApk false).get 3 = some (⟨apk, apkPath, O_LARGEFILE, 12⟩, false) := by decide
    rw [there, Option.some.injEq, Prod.mk.injEq] at found
    obtain ⟨rfl, rfl⟩ := found
    exact ⟨by decide, by decide, fun _ => .inl rfl, rfl⟩
  exact ((restores_iff (withApk_lists false) (withApk_created false) (List.Perm.refl _)
    (withApk_names false) (by decide)).mpr restorable).1 3

/-- With it, the flag is gone: `dup2` clears it on the captured descriptor,
after `F_SETFD` has set it on the temporary one. -/
theorem apk_loses_cloexec :
    Lists ((withApk true).openFile kFd true) apkListing ∧
      Create lp64 .ok apkListing (withApk true) = (some [apkInfo true], apkBetween true) ∧
      apkNamed (apkInfo true).file_path = some apk ∧
      (reopenAll apkNamed allSucceed [apkInfo true] (apkBetween true)).1 = true ∧
      look (withApk true) 3 = some ⟨apk, O_LARGEFILE, some 12, true⟩ ∧
      look (reopenAll apkNamed allSucceed [apkInfo true] (apkBetween true)).2 3 =
        some ⟨apk, O_LARGEFILE, some 12, false⟩ :=
  ⟨withApk_lists true, withApk_created true, by decide, by decide, by decide, by decide⟩

end Xposed.Fork
