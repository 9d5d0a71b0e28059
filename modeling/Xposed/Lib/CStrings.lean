/-!
# C strings in memory

* `strAt`: the string at an address;
* `memset`, `strlcpy`: `none` where they run out of the memory;
* `layout`, `pointers`: strings that lie one behind the other;
* `Block`: what is left of them when the first one is overwritten.
-/

namespace CStrings

abbrev Memory := List UInt8

/-- The string at `p`. `none`: it has no end in the memory. -/
def strAt (mem : Memory) (p : Nat) : Option (List UInt8) :=
  if 0 ∈ mem.drop p then some ((mem.drop p).takeWhile (· != 0)) else none

def write (mem : Memory) (p : Nat) (bytes : List UInt8) : Option Memory :=
  if p + bytes.length ≤ mem.length then
    some (mem.take p ++ bytes ++ mem.drop (p + bytes.length))
  else none

def memset (mem : Memory) (p : Nat) (c : UInt8) (n : Nat) : Option Memory :=
  write mem p (List.replicate n c)

/-- `src` is given without its NUL. -/
def strlcpy (mem : Memory) (p : Nat) (src : List UInt8) (size : Nat) : Option Memory :=
  if size = 0 then some mem else write mem p (src.take (size - 1) ++ [0])

def layout (strs : List (List UInt8)) : Memory := strs.flatMap (· ++ [0])

/-- Where the strings lie, from `p` on. -/
def pointers (p : Nat) : List (List UInt8) → List Nat
  | [] => []
  | s :: strs => p :: pointers (p + s.length + 1) strs

/-! ## Reading and writing -/

theorem takeWhile_clean {s : List UInt8} (clean : 0 ∉ s) (back : Memory) :
    (s ++ 0 :: back).takeWhile (· != 0) = s := by
  rw [List.takeWhile_append_of_pos]
  · simp
  · intro c mem
    have other : c ≠ 0 := fun zero => clean (zero ▸ mem)
    simpa using other

theorem strAt_append (front : Memory) {s : List UInt8} (clean : 0 ∉ s) (back : Memory) :
    strAt (front ++ (s ++ 0 :: back)) front.length = some s := by
  rw [strAt, List.drop_left, if_pos (by simp), takeWhile_clean clean]

/-- Before a NUL, every address is that of a string, which ends there at the latest. -/
theorem strAt_some {mem : Memory} {p n : Nat} (ends : mem[n]? = some 0) (before : p ≤ n) :
    ∃ s, strAt mem p = some s ∧ p + s.length ≤ n := by
  have there : (mem.drop p)[n - p]? = some 0 := by
    rw [List.getElem?_drop, Nat.add_sub_cancel' before]
    exact ends
  refine ⟨_, if_pos (List.mem_of_getElem? there), Nat.le_of_not_lt fun longer => ?_⟩
  have inside : n - p < ((mem.drop p).takeWhile (· != 0)).length := by omega
  have same := (List.takeWhile_prefix (· != 0)).getElem inside
  have zero : ((mem.drop p).takeWhile (· != 0))[n - p] = 0 := by
    rw [same]
    exact (List.getElem?_eq_some_iff.mp there).2
  have other := List.all_eq_true.mp List.all_takeWhile _ (List.getElem_mem inside)
  rw [zero] at other
  cases other

/-- In front of NULs, and in them. -/
theorem strAt_padded (front : Memory) {s : List UInt8} (clean : 0 ∉ s) {n k : Nat} (ends : 0 < n)
    (inside : k < s.length + n) (back : Memory) :
    strAt (front ++ ((s ++ List.replicate n 0) ++ back)) (front.length + k) = some (s.drop k) := by
  have some_ : k - s.length ≤ (List.replicate n (0 : UInt8)).length := by
    rw [List.length_replicate]
    omega
  have rest : (front ++ ((s ++ List.replicate n 0) ++ back)).drop (front.length + k) =
      s.drop k ++ (List.replicate (n - (k - s.length)) 0 ++ back) := by
    rw [List.drop_length_add_append, List.append_assoc, List.drop_append,
      List.drop_append_of_le_length some_, List.drop_replicate]
  have zeros : List.replicate (n - (k - s.length)) (0 : UInt8) =
      0 :: List.replicate (n - (k - s.length) - 1) 0 := by
    rw [← List.replicate_succ, Nat.sub_add_cancel (by omega)]
  rw [strAt, rest, zeros, if_pos (by simp), List.cons_append,
    takeWhile_clean fun zero => clean (List.mem_of_mem_drop zero)]

theorem write_append (front : Memory) {old bytes : List UInt8} (fits : bytes.length ≤ old.length)
    (back : Memory) : write (front ++ (old ++ back)) front.length bytes =
      some (front ++ (bytes ++ old.drop bytes.length ++ back)) := by
  have room : front.length + bytes.length ≤ (front ++ (old ++ back)).length := by
    simp only [List.length_append]
    omega
  rw [write, if_pos room, List.take_left, List.drop_append, List.drop_eq_nil_of_le (by omega),
    Nat.add_sub_cancel_left, List.drop_append_of_le_length fits]
  simp only [List.nil_append, List.append_assoc]

theorem layout_length (s : List UInt8) (strs : List (List UInt8)) :
    (layout (s :: strs)).length = s.length + 1 + (layout strs).length := by
  rw [layout, List.flatMap_cons, List.length_append, List.length_append]
  rfl

theorem mem_pointers {p a : Nat} {strs : List (List UInt8)} (mem : a ∈ pointers p strs) :
    p ≤ a ∧ a < p + (layout strs).length := by
  induction strs generalizing p with
  | nil => cases mem
  | cons s strs ih =>
    rw [layout_length]
    cases mem with
    | head => omega
    | tail _ later =>
      have inside := ih later
      omega

theorem pointers_append (p : Nat) (strs more : List (List UInt8)) :
    pointers p (strs ++ more) = pointers p strs ++ pointers (p + (layout strs).length) more := by
  induction strs generalizing p with
  | nil => rfl
  | cons s strs ih =>
    rw [List.cons_append, pointers, pointers, ih, layout_length, List.cons_append]
    congr 3
    omega

theorem mapM_strAt {mem : Memory} {ps : List Nat} {strs : List (List UInt8)}
    (reads : ps.map (strAt mem) = strs.map some) : ps.mapM (strAt mem) = some strs := by
  induction ps generalizing strs with
  | nil =>
    rw [List.map_nil, eq_comm, List.map_eq_nil_iff] at reads
    rw [reads]
    rfl
  | cons p ps ih =>
    cases strs with
    | nil => cases reads
    | cons s strs =>
      obtain ⟨here, later⟩ := List.cons.inj reads
      rw [List.mapM_cons, here, ih later]
      rfl

/-- `total` bytes behind `front`: a string, whatever is left behind it, and at
the end a NUL. -/
structure Block (front back : Memory) (total : Nat) (mem : Memory) (s : List UInt8) : Prop where
  clean : 0 ∉ s
  split : ∃ rest, mem = front ++ ((s ++ 0 :: rest) ++ back) ∧ s.length + 1 + rest.length = total ∧
    (0 :: rest).getLast? = some 0

variable {front back mem : Memory} {total : Nat} {s : List UInt8}

theorem layout_last (strs : List (List UInt8)) : (0 :: layout strs).getLast? = some 0 := by
  induction strs with
  | nil => rfl
  | cons s strs ih =>
    have split : (0 :: layout (s :: strs) : Memory) = (0 :: s) ++ (0 :: layout strs) := by
      simp [layout]
    rw [split, List.getLast?_append, ih]
    rfl

theorem Block.start (front back : Memory) {s : List UInt8} (strs : List (List UInt8))
    (clean : 0 ∉ s) : Block front back (layout (s :: strs)).length
      (front ++ (layout (s :: strs) ++ back)) s := by
  refine ⟨clean, layout strs, ?_, (layout_length s strs).symm, layout_last strs⟩
  simp [layout]

theorem Block.first (block : Block front back total mem s) : strAt mem front.length = some s := by
  obtain ⟨clean, rest, rfl, _⟩ := block
  rw [List.append_assoc, List.cons_append]
  exact strAt_append front clean _

theorem Block.room (block : Block front back total mem s) : s.length < total := by
  obtain ⟨_, rest, _, length, _⟩ := block
  omega

/-- Nothing outside has changed. -/
theorem Block.outside (block : Block front back total mem s) :
    mem.take front.length = front ∧ mem.drop (front.length + total) = back := by
  obtain ⟨_, rest, rfl, length, _⟩ := block
  have whole : (s ++ 0 :: rest).length = total := by
    rw [List.length_append, List.length_cons]
    omega
  refine ⟨List.take_left, ?_⟩
  rw [List.drop_length_add_append, ← whole, List.drop_left]

/-- Whatever string is read in the block, it ends there. -/
theorem Block.ends (block : Block front back total mem s) :
    mem[front.length + (total - 1)]? = some 0 := by
  obtain ⟨_, rest, rfl, length, last⟩ := block
  have whole : (s ++ 0 :: rest).length = total := by
    rw [List.length_append, List.length_cons]
    omega
  have inside : total - 1 < (s ++ 0 :: rest).length := by omega
  rw [List.getElem?_append_right (Nat.le_add_right _ _), Nat.add_sub_cancel_left,
    List.getElem?_append_left inside, ← whole, ← List.getLast?_eq_getElem?, List.getLast?_append,
    last]
  rfl

/-- A shorter text is written, and nothing behind it. -/
theorem Block.write (block : Block front back total mem s) {t : List UInt8} (clean : 0 ∉ t)
    (fits : t.length < total) : ∃ mem', write mem front.length (t ++ [0]) = some mem' ∧
      Block front back total mem' t ∧
      ∀ n, t.length < n → mem'.drop (front.length + n) = mem.drop (front.length + n) := by
  obtain ⟨_, rest, rfl, length, last⟩ := block
  have whole : (s ++ 0 :: rest).length = total := by
    rw [List.length_append, List.length_cons]
    omega
  have small : (t ++ [0]).length ≤ (s ++ 0 :: rest).length := by
    rw [List.length_append, List.length_singleton]
    omega
  have old : (s ++ 0 :: rest).getLast? = some 0 := by
    rw [List.getLast?_append, last]
    rfl
  refine ⟨_, write_append front small back,
    ⟨clean, (s ++ 0 :: rest).drop (t ++ [0]).length, ?_, ?_, ?_⟩, ?_⟩
  · simp
  · rw [List.length_drop, whole, List.length_append, List.length_singleton]
    omega
  · rw [List.getLast?_cons, List.getLast?_drop]
    split
    · rfl
    · rw [old]
      rfl
  · intro n behind
    have from_ : n = (t ++ [0]).length + (n - (t ++ [0]).length) := by
      rw [List.length_append, List.length_singleton]
      omega
    rw [List.drop_length_add_append, List.drop_length_add_append, from_, List.append_assoc,
      List.drop_length_add_append, ← List.drop_drop, List.drop_append_of_le_length small]

/-- `strlcpy` over the first string: as much of `src` as `size` leaves room for. -/
theorem Block.strlcpy (block : Block front back total mem s) {src : List UInt8} (clean : 0 ∉ src)
    {size : Nat} (some_ : 0 < size) (fits : size ≤ total) :
    ∃ mem', strlcpy mem front.length src size = some mem' ∧
      Block front back total mem' (src.take (size - 1)) ∧
      mem'.drop (front.length + size) = mem.drop (front.length + size) := by
  have short : (src.take (size - 1)).length ≤ size - 1 := List.length_take_le _ _
  have clean : 0 ∉ src.take (size - 1) := fun zero => clean (List.mem_of_mem_take zero)
  obtain ⟨mem', written, after, same⟩ := block.write clean (by omega)
  refine ⟨mem', ?_, after, same size (by omega)⟩
  rw [CStrings.strlcpy, if_neg (by omega), written]

/-- With NULs behind it, up to the end of the block. -/
theorem Block.padded {t : List UInt8} (clean : 0 ∉ t) (fits : t.length < total) :
    Block front back total (front ++ ((t ++ List.replicate (total - t.length) 0) ++ back)) t := by
  have zeros : List.replicate (total - t.length) (0 : UInt8) =
      0 :: List.replicate (total - t.length - 1) 0 := by
    rw [← List.replicate_succ, Nat.sub_add_cancel (by omega)]
  refine ⟨clean, List.replicate (total - t.length - 1) 0, ?_, ?_, ?_⟩
  · rw [zeros]
  · rw [List.length_replicate]
    omega
  · rw [← zeros, List.getLast?_replicate, if_neg (by omega)]

/-- `memset` and then `strlcpy`. -/
theorem Block.refilled (block : Block front back total mem s) (src : List UInt8) :
    (memset mem front.length 0 total).bind (fun mem =>
      CStrings.strlcpy mem front.length src total) = some (front ++ ((src.take (total - 1) ++
        List.replicate (total - (src.take (total - 1)).length) 0) ++ back)) := by
  have room := block.room
  have short : (src.take (total - 1)).length ≤ total - 1 := List.length_take_le _ _
  obtain ⟨_, rest, rfl, length, _⟩ := block
  have whole : (s ++ 0 :: rest).length = total := by
    rw [List.length_append, List.length_cons]
    omega
  have copied : (src.take (total - 1) ++ [0]).length ≤ (List.replicate total (0 : UInt8)).length := by
    rw [List.length_append, List.length_singleton, List.length_replicate]
    omega
  have zeros : List.replicate (total - (src.take (total - 1)).length) (0 : UInt8) =
      0 :: List.replicate (total - ((src.take (total - 1)).length + 1)) 0 := by
    rw [← List.replicate_succ]
    congr 1
    omega
  rw [memset, write_append front (Nat.le_of_eq (List.length_replicate.trans whole.symm)),
    List.length_replicate, List.drop_of_length_le (Nat.le_of_eq whole), List.append_nil,
    Option.bind_some, CStrings.strlcpy, if_neg (by omega), write_append front copied,
    List.drop_replicate, List.length_append, List.length_singleton, zeros]
  simp only [List.append_assoc, List.singleton_append]

end CStrings
