import Mathlib.Data.List.DropRight
import Xposed.Lib.Lines
import Xposed.Fork.FdUtils

/-!
# The property file

`xposed.cpp`: `parseXposedProp` reads the file in chunks of a buffer, and moves
pointers over each chunk, which it edits in place. A pointer that leaves the
chunk and its terminator gives `none`.
-/

namespace Xposed.PropFile

open Lines (chunks)
open Fork (ascii)

/-- `sizeof(buf)`, of which `fgets` leaves one byte for the NUL. -/
def bufSize : Nat := 512

def newline (c : UInt8) : Bool := c == 10

def isspace (c : UInt8) : Bool := c == 32 || (9 ≤ c && c ≤ 13)

def isdigit (c : UInt8) : Bool := 48 ≤ c && c ≤ 57

def hash : UInt8 := 35
def equals : UInt8 := 61

/-- `"\n\r"` -/
def lineEnd (c : UInt8) : Bool := c == 10 || c == 13

/-- `while (isspace(*p)) p++`, with the characters from index `i` on. -/
def skipSpaces : Bytes → Nat → Option Nat
  | [], _ => none
  | c :: rest, i => if isspace c then skipSpaces rest (i + 1) else some i

/-- `strchr` and `strpbrk`: the first of the characters that are looked for, up
to the NUL. -/
def search (stop : UInt8 → Bool) : Bytes → Nat → Option (Option Nat)
  | [], _ => none
  | c :: rest, i =>
    if c == 0 then some none
    else if stop c then some (some i)
    else search stop rest (i + 1)

/-- `do { *tmp = 0; tmp--; } while (isspace(*tmp))`, from index `tmp` on. -/
def trimKey : Nat → Bytes → Option Bytes
  -- the character in front of the buffer is read
  | 0, _ => none
  | tmp + 1, buf =>
    if tmp + 1 < buf.length then
      let buf := buf.set (tmp + 1) 0
      (buf[tmp]?).bind fun c => if isspace c then trimKey tmp buf else some buf
    else none

/-- The C string at index `i`. -/
def string (buf : Bytes) (i : Nat) : Option Bytes :=
  if 0 ∈ buf.drop i then some (cstr (buf.drop i)) else none

/-- What an entry with its key and value at these indices gives. -/
def handleEntry (buf : Bytes) (key value : Nat) : Option (Option Bytes) := do
  let name ← string buf key
  if name = ascii "version" then
    let text ← string buf value
    pure (if text.length = 0 then none else some text)
  else pure none

/-- The second half of a turn: the value behind the separator at index `value`,
for the key at index `key`. -/
def parseValue (buf : Bytes) (key value : Nat) : Option (Option Bytes) := do
  let value ← skipSpaces (buf.drop (value + 1)) (value + 1)
  match ← search lineEnd (buf.drop value) value with
  | none => handleEntry buf key value
  | some tmp => handleEntry (buf.set tmp 0) key value

/-- One turn of the loop: the value of a `version` entry, if there is one. -/
def parseBuf (buf : Bytes) : Option (Option Bytes) := do
  let key ← skipSpaces buf 0
  let first ← buf[key]?
  if first = hash then pure none
  else
    match ← search (· == equals) buf 0 with
    | none => pure none
    | some value =>
      let buf ← trimKey value buf
      parseValue buf key value

/-- `fgets` has put a NUL behind the chunk. -/
def parseChunk (chunk : Bytes) : Option (Option Bytes) := parseBuf (chunk ++ [0])

def digits (s : Bytes) : Nat :=
  (s.takeWhile isdigit).foldl (fun n c => 10 * n + (c.toNat - 48)) 0

/-- The number at the beginning of a string. -/
def decimalPrefix (s : Bytes) : Int :=
  match s with
  | 45 :: s => -digits s
  | 43 :: s => digits s
  | s => digits s

/-- `strtol`, with a `long` of 32 or 64 bits. -/
def strtol (lp64 : Bool) (s : Bytes) : Int :=
  let bound : Int := if lp64 then 2 ^ 63 else 2 ^ 31
  max (-bound) (min (decimalPrefix (s.dropWhile isspace)) (bound - 1))

def atoi (lp64 : Bool) (s : Bytes) : Int := int32 (strtol lp64 s)

/-- The two globals; `none` is the text that `xposedVersion` starts with. -/
structure Version where
  xposedVersion : Option Bytes
  xposedVersionInt : UInt32
  deriving DecidableEq

def Version.unknown : Version := ⟨none, 0⟩

def Version.set (lp64 : Bool) (version : Version) (entry : Option Bytes) : Version :=
  match entry with
  | none => version
  | some value => ⟨some value, UInt32.ofInt (atoi lp64 value)⟩

def parseAll (lp64 : Bool) : List Bytes → Version → Option Version
  | [], version => some version
  | chunk :: rest, version => do
    let entry ← parseChunk chunk
    parseAll lp64 rest (version.set lp64 entry)

/-- What `fgets` reads into the buffer, one turn after the other. -/
def pieces (file : Bytes) : List Bytes := chunks newline (bufSize - 1) file

/-- `parseXposedProp`; `none` for a file that cannot be opened. -/
def parseXposedProp (lp64 : Bool) (file : Option Bytes) (version : Version) : Option Version :=
  match file with
  | none => some version
  | some contents => parseAll lp64 (pieces contents) version

/-! ## One chunk -/

def Comment (line : Bytes) : Prop := (line.dropWhile isspace).head? = some hash

instance : DecidablePred Comment := fun line =>
  inferInstanceAs (Decidable ((line.dropWhile isspace).head? = some hash))

/-- What a line is an entry for: its value, if it is not empty, and the key is `version`. -/
def entry (line : Bytes) : Option Bytes :=
  if Comment line then none
  else
    match line.dropWhile (· != equals) with
    | [] => none
    | _ :: rest =>
      let key := ((line.takeWhile (· != equals)).dropWhile isspace).rdropWhile isspace
      let value := (rest.dropWhile isspace).takeWhile fun c => !lineEnd c
      if key = ascii "version" ∧ value ≠ [] then some value else none

theorem skipSpaces_eq {c : UInt8} (h : isspace c = false) (text rest : Bytes) (i : Nat) :
    skipSpaces (text ++ c :: rest) i = some (i + (text.takeWhile isspace).length) := by
  induction text generalizing i with
  | nil => simp [skipSpaces, h]
  | cons a text ih =>
    cases space : isspace a with
    | true =>
      simp only [List.cons_append, skipSpaces, space, if_true, ih, List.takeWhile_cons]
      simp only [List.length_cons, Option.some.injEq]
      omega
    | false => simp [skipSpaces, space]

theorem search_eq (stop : UInt8 → Bool) {text : Bytes} (clean : 0 ∉ text) (rest : Bytes) (i : Nat) :
    search stop (text ++ 0 :: rest) i =
      some (if (text.dropWhile fun c => !stop c) = [] then none
        else some (i + (text.takeWhile fun c => !stop c).length)) := by
  induction text generalizing i with
  | nil => simp [search]
  | cons a text ih =>
    obtain ⟨first, clean⟩ := not_or.mp (mt List.mem_cons.mpr clean)
    have nonzero : (a == 0) = false := by simpa using Ne.symm first
    cases found : stop a with
    | true => simp [search, nonzero, found]
    | false =>
      simp only [List.cons_append, search, nonzero, found, Bool.false_eq_true, if_false, ih clean,
        List.dropWhile_cons, List.takeWhile_cons, Bool.not_false, if_true, List.length_cons]
      congr 2
      simp only [Option.some.injEq]
      omega

/-- One turn of the loop, which has come to `c`, behind `front` and `a`. -/
theorem trimKey_concat (front : Bytes) (a c : UInt8) (rest : Bytes) :
    trimKey (front ++ [a]).length (front ++ [a] ++ c :: rest) =
      if isspace a then trimKey front.length (front ++ a :: 0 :: rest)
      else some (front ++ a :: 0 :: rest) := by
  have length : (front ++ [a]).length = front.length + 1 := by simp
  have written : (front ++ [a] ++ c :: rest).set (front.length + 1) 0 = front ++ a :: 0 :: rest := by
    rw [← length, List.set_append_right _ _ (Nat.le_refl _), Nat.sub_self]
    simp
  have there : (front ++ a :: 0 :: rest)[front.length]? = some a := by simp
  rw [length, trimKey, if_pos (by simp), written]
  dsimp only
  rw [there]
  rfl

/-- Only spaces in front of the separator: the pointer leaves the buffer. -/
theorem trimKey_spaces {spaces : Bytes} (h : ∀ c ∈ spaces, isspace c = true) (c : UInt8)
    (rest : Bytes) : trimKey spaces.length (spaces ++ c :: rest) = none := by
  induction spaces using List.reverseRecOn generalizing c rest with
  | nil => rfl
  | append_singleton spaces a ih =>
    rw [trimKey_concat, if_pos (h a (by simp))]
    exact ih (fun b member => h b (List.mem_append_left _ member)) a (0 :: rest)

/-- The separator and the spaces in front of it become NULs. -/
theorem trimKey_eq {spaces : Bytes} (h : ∀ c ∈ spaces, isspace c = true) {last : UInt8}
    (ends : isspace last = false) (key : Bytes) (c : UInt8) (rest : Bytes) :
    trimKey (key ++ last :: spaces).length (key ++ last :: spaces ++ c :: rest) =
      some (key ++ last :: List.replicate (spaces.length + 1) 0 ++ rest) := by
  induction spaces using List.reverseRecOn generalizing c rest with
  | nil =>
    rw [trimKey_concat, ends]
    simp
  | append_singleton spaces a ih =>
    have inside := ih (fun b member => h b (List.mem_append_left _ member)) a (0 :: rest)
    have whole : key ++ last :: (spaces ++ [a]) = key ++ last :: spaces ++ [a] := by simp
    rw [whole, trimKey_concat, if_pos (h a (by simp)), inside]
    simp [List.replicate_succ']

theorem string_eq {text : Bytes} (clean : 0 ∉ text) (front rest : Bytes) :
    string (front ++ (text ++ 0 :: rest)) front.length = some text := by
  have ends : cstr (text ++ 0 :: rest) = text := by
    have none : text.takeWhile (· != 0) = text := cstr_clean clean
    rw [cstr, List.takeWhile_append, none]
    simp
  rw [string, List.drop_left, if_pos (by simp), ends]

theorem handleEntry_eq {buf name text : Bytes} {key value : Nat}
    (named : string buf key = some name) (there : string buf value = some text) :
    handleEntry buf key value =
      some (if name = ascii "version" ∧ text ≠ [] then some text else none) := by
  unfold handleEntry
  rw [named, there]
  by_cases version : name = ascii "version"
  · by_cases empty : text = []
    · simp [version, empty]
    · simp [version, empty]
  · simp [version]

/-- The value, behind `front` and the separator `c`. -/
theorem parseValue_eq {post : Bytes} (clean : 0 ∉ post) (front : Bytes) (c : UInt8) (rest : Bytes)
    {key : Nat} {name : Bytes}
    (named : ∀ back, string (front ++ c :: back) key = some name) :
    parseValue (front ++ c :: (post ++ 0 :: rest)) key front.length =
      some (if name = ascii "version" ∧
          ((post.dropWhile isspace).takeWhile fun c => !lineEnd c) ≠ [] then
        some ((post.dropWhile isspace).takeWhile fun c => !lineEnd c)
      else none) := by
  have skips := skipSpaces_eq (c := 0) (by decide) post rest (front.length + 1)
  have split : post = post.takeWhile isspace ++ post.dropWhile isspace :=
    List.takeWhile_append_dropWhile.symm
  have cleanValue : 0 ∉ post.dropWhile isspace := fun zero =>
    clean (List.dropWhile_subset _ zero)
  have behind : (front ++ c :: (post ++ 0 :: rest)).drop (front.length + 1) = post ++ 0 :: rest := by
    rw [List.append_cons, ← List.length_singleton (a := c), ← List.length_append, List.drop_left]
  unfold parseValue
  rw [behind, skips]
  generalize post.takeWhile isspace = spaces at split
  generalize post.dropWhile isspace = value at split cleanValue
  subst split
  have index : front.length + 1 + spaces.length = (front ++ c :: spaces).length := by
    simp only [List.length_append, List.length_cons]
    omega
  have buf : front ++ c :: (spaces ++ value ++ 0 :: rest) =
      (front ++ c :: spaces) ++ (value ++ 0 :: rest) := by simp
  have found := search_eq lineEnd cleanValue rest (front ++ c :: spaces).length
  have cut : value = (value.takeWhile fun c => !lineEnd c) ++ value.dropWhile fun c => !lineEnd c :=
    List.takeWhile_append_dropWhile.symm
  have cleanText : 0 ∉ value.takeWhile fun c => !lineEnd c := fun zero =>
    cleanValue (List.takeWhile_subset _ zero)
  simp only [Option.bind_eq_bind, Option.bind_some, index, buf, List.drop_left, found]
  generalize value.takeWhile (fun c => !lineEnd c) = text at cut cleanText
  generalize value.dropWhile (fun c => !lineEnd c) = tail at cut
  subst cut
  cases tail with
  | nil =>
    apply handleEntry_eq
    · simpa using named (spaces ++ (text ++ 0 :: rest))
    · simpa using string_eq cleanText (front ++ c :: spaces) rest
  | cons stop tail =>
    have written : ((front ++ c :: spaces) ++ (text ++ stop :: tail ++ 0 :: rest)).set
        ((front ++ c :: spaces).length + text.length) 0 =
          (front ++ c :: spaces) ++ (text ++ 0 :: (tail ++ 0 :: rest)) := by
      have behind : text ++ stop :: tail ++ 0 :: rest = text ++ stop :: (tail ++ 0 :: rest) := by simp
      rw [behind, List.set_append_right _ _ (Nat.le_add_right _ _), Nat.add_sub_cancel_left,
        List.set_append_right _ _ (Nat.le_refl _), Nat.sub_self]
      rfl
    simp only [reduceCtorEq, if_false, written]
    apply handleEntry_eq
    · simpa using named (spaces ++ (text ++ 0 :: (tail ++ 0 :: rest)))
    · exact string_eq cleanText (front ++ c :: spaces) (tail ++ 0 :: rest)

/-- The first character of the chunk that is no space is the separator. -/
def EmptyKey (chunk : Bytes) : Prop := (chunk.dropWhile isspace).head? = some equals

instance : DecidablePred EmptyKey := fun chunk =>
  inferInstanceAs (Decidable ((chunk.dropWhile isspace).head? = some equals))

theorem cstr_append (chunk : Bytes) :
    ∃ rest, chunk ++ [0] = cstr chunk ++ 0 :: rest ∧ 0 ∉ cstr chunk ∧
      (EmptyKey chunk ↔ EmptyKey (cstr chunk)) := by
  induction chunk with
  | nil => exact ⟨[], rfl, by simp [cstr], Iff.rfl⟩
  | cons c chunk ih =>
    obtain ⟨rest, whole, clean, keyless⟩ := ih
    by_cases zero : c = 0
    · subst zero
      have first : isspace 0 = false := by decide
      exact ⟨chunk ++ [0], rfl, by simp [cstr], by simp [EmptyKey, cstr, first, equals]⟩
    · have same : cstr (c :: chunk) = c :: cstr chunk :=
        List.takeWhile_cons_of_pos (by simpa using zero)
      refine ⟨rest, by rw [same, List.cons_append, whole, List.cons_append], ?_, ?_⟩
      · rw [same]
        exact fun member => (List.mem_cons.mp member).elim (fun h => zero h.symm) clean
      · rw [same]
        cases space : isspace c with
        | true => simpa [EmptyKey, space] using keyless
        | false => simp [EmptyKey, space]

/-- The separator is no space. -/
theorem blank_plain {text : Bytes} (blank : ∀ c ∈ text, isspace c = true) :
    ∀ c ∈ text, (c != equals) = true := by
  intro c member
  rw [bne_iff_ne]
  rintro rfl
  exact absurd (blank equals member) (by decide)

/-- No separator up to the end of `more`. -/
theorem key_plain {spaces more : Bytes} {a : UInt8} (blank : ∀ c ∈ spaces, isspace c = true)
    (other : a ≠ equals) (plain : ∀ c ∈ more, (c != equals) = true) :
    ∀ c ∈ spaces ++ a :: more, (c != equals) = true := by
  intro c member
  rcases List.mem_append.mp member with inFront | behind
  · exact blank_plain blank c inFront
  · rcases List.mem_cons.mp behind with rfl | inside
    · exact bne_iff_ne.mpr other
    · exact plain c inside

theorem parseBuf_blank {text : Bytes} (blank : ∀ c ∈ text, isspace c = true) (rest : Bytes) :
    parseBuf (text ++ 0 :: rest) = some none := by
  have clean : 0 ∉ text := fun zero => absurd (blank 0 zero) (by decide)
  have plain : ∀ c ∈ text, (!(c == equals)) = true := blank_plain blank
  have skips := skipSpaces_eq (c := 0) (by decide) text rest 0
  have found := search_eq (· == equals) clean rest 0
  rw [List.dropWhile_eq_nil_iff.mpr plain, if_pos rfl] at found
  rw [List.takeWhile_eq_self_iff.mpr blank, Nat.zero_add] at skips
  have zero : (text ++ 0 :: rest)[text.length]? = some 0 := by simp
  have other : ¬ (0 : UInt8) = hash := by decide
  simp only [parseBuf, skips, found, zero, Option.bind_eq_bind, Option.bind_some, if_neg other]
  rfl

/-- The first character that is no space is `a`. -/
theorem parseBuf_first {spaces more : Bytes} {a : UInt8} (blank : ∀ c ∈ spaces, isspace c = true)
    (first : isspace a = false) :
    parseBuf (spaces ++ a :: more) =
      if a = hash then some none
      else (search (· == equals) (spaces ++ a :: more) 0).bind fun value =>
        match value with
        | none => some none
        | some value => (trimKey value (spaces ++ a :: more)).bind fun buf =>
          parseValue buf spaces.length value := by
  have skips := skipSpaces_eq first spaces more 0
  rw [List.takeWhile_eq_self_iff.mpr blank, Nat.zero_add] at skips
  have there : (spaces ++ a :: more)[spaces.length]? = some a := by simp
  simp only [parseBuf, skips, there, Option.bind_eq_bind, Option.bind_some]
  rfl

/-- The first character that `p` does not hold of. -/
theorem first_other (p : UInt8 → Bool) (text : Bytes) :
    (∀ c ∈ text, p c = true) ∨
      ∃ front a back, text = front ++ a :: back ∧ (∀ c ∈ front, p c = true) ∧ p a = false := by
  cases first : text.find? fun c => !p c with
  | none => exact .inl (by simpa using List.find?_eq_none.mp first)
  | some a =>
    obtain ⟨other, front, back, same, before⟩ := List.find?_eq_some_iff_append.mp first
    exact .inr ⟨front, a, back, same, by simpa using before, by simpa using other⟩

theorem dropWhile_first {p : UInt8 → Bool} {front : Bytes} {a : UInt8}
    (before : ∀ c ∈ front, p c = true) (first : p a = false) (back : Bytes) :
    (front ++ a :: back).dropWhile p = a :: back := by
  rw [List.dropWhile_append_of_pos before, List.dropWhile_cons_of_neg (by simp [first])]

theorem takeWhile_first {p : UInt8 → Bool} {front : Bytes} {a : UInt8}
    (before : ∀ c ∈ front, p c = true) (first : p a = false) (back : Bytes) :
    (front ++ a :: back).takeWhile p = front := by
  rw [List.takeWhile_append_of_pos before, List.takeWhile_cons_of_neg (by simp [first]),
    List.append_nil]

/-- A key, with the spaces behind it. -/
theorem key_split {a : UInt8} (first : isspace a = false) (more : Bytes) :
    ∃ key last spaces, a :: more = key ++ last :: spaces ∧ isspace last = false ∧
      (∀ c ∈ spaces, isspace c = true) ∧ (a :: more).rdropWhile isspace = key ++ [last] := by
  have whole : (a :: more).rdropWhile isspace ++ (a :: more).rtakeWhile isspace = a :: more :=
    List.rdropWhile_append_rtakeWhile
  have some : (a :: more).rdropWhile isspace ≠ [] := by
    intro nothing
    have blank := List.rdropWhile_eq_nil_iff.mp nothing a List.mem_cons_self
    rw [first] at blank
    cases blank
  have ends := List.rdropWhile_last_not isspace (a :: more) some
  have body := List.dropLast_concat_getLast some
  refine ⟨_, _, (a :: more).rtakeWhile isspace, ?_, by simpa using ends, ?_, body.symm⟩
  · rw [List.append_cons, body, whole]
  · exact fun c member => List.mem_rtakeWhile_imp member

/-- A key that is not empty, the separator and what comes after it. -/
theorem parseBuf_key {spaces mid post : Bytes} {a : UInt8} (clean : 0 ∉ spaces ++ a :: mid)
    (cleanPost : 0 ∉ post) (first : isspace a = false) (rest : Bytes) :
    ((trimKey (spaces ++ a :: mid).length (spaces ++ a :: mid ++ equals :: (post ++ 0 :: rest))).bind
        fun buf => parseValue buf spaces.length (spaces ++ a :: mid).length) =
      some (if (a :: mid).rdropWhile isspace = ascii "version" ∧
          ((post.dropWhile isspace).takeWhile fun c => !lineEnd c) ≠ [] then
        some ((post.dropWhile isspace).takeWhile fun c => !lineEnd c)
      else none) := by
  obtain ⟨key, last, tail, whole, ends, blankTail, trimmed⟩ := key_split first mid
  rw [trimmed]
  rw [whole] at clean ⊢
  rw [← List.append_assoc] at clean ⊢
  rw [trimKey_eq blankTail ends, Option.bind_some]
  have index : (spaces ++ key ++ last :: tail).length =
      (spaces ++ key ++ last :: List.replicate tail.length 0).length := by simp
  have buf : spaces ++ key ++ last :: List.replicate (tail.length + 1) 0 ++ (post ++ 0 :: rest) =
      (spaces ++ key ++ last :: List.replicate tail.length 0) ++ 0 :: (post ++ 0 :: rest) := by
    simp [List.replicate_succ']
  rw [index, buf]
  apply parseValue_eq cleanPost
  intro back
  have cleanKey : 0 ∉ key ++ [last] := by
    intro member
    apply clean
    simp only [List.mem_append, List.mem_cons, List.not_mem_nil, or_false] at member ⊢
    rcases member with here | here
    · exact .inl (.inr here)
    · exact .inr (.inl here)
  have nuls : (spaces ++ key ++ last :: List.replicate tail.length 0) ++ 0 :: back =
      spaces ++ (key ++ [last] ++ 0 :: (List.replicate tail.length 0 ++ back)) := by
    have swap : List.replicate tail.length (0 : UInt8) ++ 0 :: back =
        0 :: (List.replicate tail.length 0 ++ back) := by
      rw [List.append_cons, ← List.replicate_succ', List.replicate_succ, List.cons_append]
    simp [swap]
  rw [nuls]
  exact string_eq cleanKey spaces _

/-- **The line in front of the NUL** decides what the pointers do with the buffer. -/
theorem parseBuf_eq {text : Bytes} (clean : 0 ∉ text) (rest : Bytes) :
    parseBuf (text ++ 0 :: rest) = if EmptyKey text then none else some (entry text) := by
  rcases first_other isspace text with blank | ⟨spaces, a, more, rfl, blank, first⟩
  · have nothing : text.dropWhile isspace = [] := List.dropWhile_eq_nil_iff.mpr blank
    have plain : text.dropWhile (· != equals) = [] :=
      List.dropWhile_eq_nil_iff.mpr (blank_plain blank)
    simp [parseBuf_blank blank, EmptyKey, entry, Comment, nothing, plain]
  · have start := dropWhile_first blank first more
    have whole : spaces ++ a :: more ++ 0 :: rest = spaces ++ a :: (more ++ 0 :: rest) := by simp
    rw [whole, parseBuf_first blank first, ← whole]
    simp only [EmptyKey, entry, Comment, start, List.head?_cons, Option.some.injEq]
    by_cases comment : a = hash
    · have other : ¬ hash = equals := by decide
      simp [comment, other]
    · have found : search (· == equals) (spaces ++ a :: more ++ 0 :: rest) 0 =
          some (if (spaces ++ a :: more).dropWhile (· != equals) = [] then none
            else some (0 + ((spaces ++ a :: more).takeWhile (· != equals)).length)) :=
        search_eq (· == equals) clean rest 0
      rw [if_neg comment, if_neg comment, found, Option.bind_some, Nat.zero_add]
      by_cases empty : a = equals
      · subst empty
        have self : (equals != equals) = false := by decide
        simp [dropWhile_first (blank_plain blank) self more,
          takeWhile_first (blank_plain blank) self more, trimKey_spaces blank]
      · rw [if_neg empty]
        rcases first_other (· != equals) more with plain | ⟨mid, e, post, rfl, plain, separator⟩
        · have none : (spaces ++ a :: more).dropWhile (· != equals) = [] :=
            List.dropWhile_eq_nil_iff.mpr (key_plain blank empty plain)
          simp [none]
        · obtain rfl : e = equals := by simpa using separator
          have before := key_plain blank empty plain
          have text : spaces ++ a :: (mid ++ equals :: post) =
              spaces ++ a :: mid ++ equals :: post := by simp
          have key : (spaces ++ a :: mid).dropWhile isspace = a :: mid :=
            dropWhile_first blank first mid
          rw [text] at clean ⊢
          rw [dropWhile_first before separator post, takeWhile_first before separator post, key]
          have cleanKey : 0 ∉ spaces ++ a :: mid := fun zero => clean (List.mem_append_left _ zero)
          have cleanPost : 0 ∉ post := fun zero =>
            clean (List.mem_append_right _ (List.mem_cons_of_mem _ zero))
          have parsed := parseBuf_key cleanKey cleanPost first rest
          simp only [reduceCtorEq, if_false]
          rw [List.append_assoc, List.cons_append]
          exact parsed

/-- What the pointers do with a chunk is what the line in front of its first NUL
stands for, if they do not leave it. -/
theorem parseChunk_eq (chunk : Bytes) :
    parseChunk chunk = if EmptyKey chunk then none else some (entry (cstr chunk)) := by
  obtain ⟨rest, whole, clean, keyless⟩ := cstr_append chunk
  simp only [parseChunk, whole, keyless]
  exact parseBuf_eq clean rest

/-! ## The loop -/

theorem parseAll_eq (lp64 : Bool) (chunks : List Bytes) (version : Version) :
    parseAll lp64 chunks version =
      if ∀ chunk ∈ chunks, ¬ EmptyKey chunk then
        some ((chunks.map fun chunk => entry (cstr chunk)).foldl (Version.set lp64) version)
      else none := by
  induction chunks generalizing version with
  | nil => simp [parseAll]
  | cons chunk rest ih =>
    rw [parseAll, parseChunk_eq]
    by_cases empty : EmptyKey chunk
    · simp [empty]
    · simp [empty, ih]

/-- **The pointers stay in the buffer** exactly if no chunk has the separator as
its first character that is no space. -/
theorem stays_inside_iff (lp64 : Bool) (contents : Bytes) (version : Version) :
    (parseXposedProp lp64 (some contents) version).isSome ↔
      ∀ chunk ∈ pieces contents, ¬ EmptyKey chunk := by
  rw [parseXposedProp, parseAll_eq]
  by_cases all : ∀ chunk ∈ pieces contents, ¬ EmptyKey chunk
  · rw [if_pos all]
    exact iff_of_true rfl all
  · rw [if_neg all]
    exact iff_of_false Bool.false_ne_true all

/-- Nothing stands in front of the separator. -/
theorem noKey_leaves : ¬ ∀ (lp64 : Bool) (contents : Bytes) (version : Version),
    (parseXposedProp lp64 (some contents) version).isSome := by
  intro inside
  exact absurd (inside false (ascii "=x\n") .unknown) (by decide)

end Xposed.PropFile
