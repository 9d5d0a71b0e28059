import Xposed.PropFile.Parse

/-!
# The grammar of the property file

The file line by line, against the chunks of 511 bytes that `parseXposedProp`
takes for lines.
-/

namespace Xposed.PropFile

open Lines (lines)
open Fork (ascii)

/-- The value of the last one of `ls` that is an entry. -/
def lastEntry (ls : List Bytes) : Option Bytes := (ls.filterMap entry).getLast?

/-- The result is what the last entry among the lines gives, and every entry that
is taken is one of a line that is no comment, with the line's own separator. -/
structure Implements (lp64 : Bool) (contents : Bytes) : Prop where
  result : ∃ after, parseXposedProp lp64 (some contents) .unknown = some after ∧
    after.xposedVersion = lastEntry (lines newline contents) ∧
    (lastEntry (lines newline contents) = none → after.xposedVersionInt = 0) ∧
    ∀ value, lastEntry (lines newline contents) = some value →
      (after.xposedVersionInt.toNat : Int) = decimalPrefix value
  own : ∀ l ∈ lines newline contents, ∀ front chunk back, pieces l = front ++ chunk :: back →
    ∀ value, parseChunk chunk = some (some value) → ¬ Comment l ∧ equals ∉ front.flatten

/-- The chunks do not look like other lines than those they are from. -/
structure WellCut (lp64 : Bool) (contents : Bytes) : Prop where
  keys : ∀ chunk ∈ pieces contents, ¬ EmptyKey chunk
  /-- No chunk in a comment, or behind the separator of its line, looks like an entry. -/
  own : ∀ l ∈ lines newline contents, ∀ front chunk back, pieces l = front ++ chunk :: back →
    entry chunk ≠ none → ¬ Comment l ∧ equals ∉ front.flatten
  /-- The last chunk that looks like an entry has the value of the last line that is one. -/
  last : lastEntry (pieces contents) = lastEntry (lines newline contents)
  number : ∀ value, lastEntry (lines newline contents) = some value →
    0 ≤ decimalPrefix value ∧ decimalPrefix value < if lp64 then 2 ^ 32 else 2 ^ 31

/-! ## The result -/

theorem foldl_set (lp64 : Bool) (entries : List (Option Bytes)) (version : Version) :
    entries.foldl (Version.set lp64) version =
      version.set lp64 (entries.filterMap id).getLast? := by
  induction entries using List.reverseRecOn with
  | nil => rfl
  | append_singleton entries e ih =>
    rw [List.foldl_append, ih]
    cases e with
    | none => simp [Version.set]
    | some value =>
      cases (entries.filterMap id).getLast? with
      | none => simp [Version.set]
      | some value' => simp [Version.set]

/-- A value begins with something else than a space. -/
theorem entry_value {line value : Bytes} (h : entry line = some value) :
    value.dropWhile isspace = value := by
  unfold entry at h
  split at h
  · cases h
  · split at h
    · cases h
    · rename_i rest _
      dsimp only at h
      split at h
      · rename_i both
        obtain ⟨_, some⟩ := both
        rw [Option.some.injEq] at h
        subst h
        rcases first_other isspace rest with blank | ⟨front, a, back, rfl, blank, first⟩
        · rw [List.dropWhile_eq_nil_iff.mpr blank] at some
          exact absurd rfl some
        · rw [dropWhile_first blank first back] at some ⊢
          cases kept : !lineEnd a with
          | true => simp [kept, first]
          | false => simp [kept] at some
      · cases h

/-- The number that is stored, against the one that is written. -/
theorem stored_number_iff (lp64 : Bool) {value : Bytes} (start : value.dropWhile isspace = value) :
    ((UInt32.ofInt (atoi lp64 value)).toNat : Int) = decimalPrefix value ↔
      0 ≤ decimalPrefix value ∧ decimalPrefix value < if lp64 then 2 ^ 32 else 2 ^ 31 := by
  have stored : ((UInt32.ofInt (atoi lp64 value)).toNat : Int) = strtol lp64 value % 2 ^ 32 := by
    have word (x : Int) : ((UInt32.ofInt x).toNat : Int) = x % 2 ^ 32 := by
      rw [UInt32.ofInt, UInt32.toNat_ofNat']
      omega
    rw [word, atoi, int32]
    omega
  rw [stored, strtol, start]
  cases lp64 with
  | true =>
    simp only [if_true]
    omega
  | false =>
    simp only [Bool.false_eq_true, if_false]
    omega

/-! ## The whole file -/

theorem lastEntry_mem {ls : List Bytes} {value : Bytes} (h : lastEntry ls = some value) :
    ∃ l ∈ ls, entry l = some value :=
  List.mem_filterMap.mp (List.mem_of_getLast? h)

theorem pieces_lines (contents : Bytes) :
    pieces contents = (lines newline contents).flatMap pieces :=
  Lines.chunks_lines (by decide) contents

theorem piece_clean {contents : Bytes} (clean : 0 ∉ contents) :
    ∀ chunk ∈ pieces contents, 0 ∉ chunk := by
  intro chunk member zero
  exact clean (Lines.mem_of_chunk newline (by decide) member zero)

/-- What the loop makes of a file, chunk by chunk. -/
theorem parseXposedProp_eq {contents : Bytes} (clean : 0 ∉ contents) (lp64 : Bool) :
    parseXposedProp lp64 (some contents) .unknown =
      if ∀ chunk ∈ pieces contents, ¬ EmptyKey chunk then
        some (Version.unknown.set lp64 (lastEntry (pieces contents)))
      else none := by
  have text : (pieces contents).map (fun chunk => entry (cstr chunk)) =
      (pieces contents).map entry := by
    apply List.map_congr_left
    intro chunk member
    rw [cstr_clean (piece_clean clean chunk member)]
  have entries : ((pieces contents).map entry).filterMap id = (pieces contents).filterMap entry := by
    rw [List.filterMap_map]
    rfl
  rw [parseXposedProp, parseAll_eq, text, foldl_set, entries, lastEntry]

/-- **The grammar is implemented** exactly if the file is cut so that its chunks
do not look like other lines, and the number is in the range of the type. -/
theorem implements_iff {contents : Bytes} (clean : 0 ∉ contents) (lp64 : Bool) :
    Implements lp64 contents ↔ WellCut lp64 contents := by
  have inside : ∀ l ∈ lines newline contents, ∀ front chunk back,
      pieces l = front ++ chunk :: back → chunk ∈ pieces contents := by
    intro l member front chunk back whole
    rw [pieces_lines]
    exact List.mem_flatMap.mpr ⟨l, member, by simp [whole]⟩
  constructor
  · rintro ⟨⟨after, parsed, last, _, number⟩, own⟩
    rw [parseXposedProp_eq clean] at parsed
    split at parsed
    · rename_i keys
      rw [Option.some.injEq] at parsed
      subst parsed
      have same : lastEntry (pieces contents) = lastEntry (lines newline contents) := by
        rw [← last]
        cases lastEntry (pieces contents) <;> rfl
      refine ⟨keys, fun l member front chunk back whole looks => ?_, same, fun value found => ?_⟩
      · obtain ⟨value, looks⟩ := Option.ne_none_iff_exists'.mp looks
        have here := inside l member front chunk back whole
        apply own l member front chunk back whole value
        rw [parseChunk_eq, if_neg (keys chunk here), cstr_clean (piece_clean clean chunk here), looks]
      · obtain ⟨l, _, taken⟩ := lastEntry_mem found
        have stored := number value found
        rw [same, found] at stored
        exact (stored_number_iff lp64 (entry_value taken)).mp stored
    · cases parsed
  · rintro ⟨keys, own, same, number⟩
    refine ⟨⟨Version.unknown.set lp64 (lastEntry (lines newline contents)), ?_, ?_, ?_, ?_⟩, ?_⟩
    · rw [parseXposedProp_eq clean, if_pos keys, same]
    · cases lastEntry (lines newline contents) <;> rfl
    · intro nothing
      rw [nothing]
      rfl
    · intro value found
      obtain ⟨l, _, taken⟩ := lastEntry_mem found
      rw [found]
      exact (stored_number_iff lp64 (entry_value taken)).mpr (number value found)
    · intro l member front chunk back whole value parsed
      have here := inside l member front chunk back whole
      apply own l member front chunk back whole
      rw [parseChunk_eq, if_neg (keys chunk here), cstr_clean (piece_clean clean chunk here),
        Option.some.injEq] at parsed
      rw [parsed]
      exact Option.some_ne_none value

/-! ## Where a line may be cut -/

/-- The key of a line with a separator. -/
def keyOf (line : Bytes) : Bytes :=
  ((line.takeWhile (· != equals)).dropWhile isspace).rdropWhile isspace

/-- What stands behind the separator, from the value on. -/
def valueOf (line : Bytes) : Bytes := ((line.dropWhile (· != equals)).drop 1).dropWhile isspace

/-- Where a line is cut between `front` and `back`, `front` decides what it says:
it is a comment, or has another key, or the value is over. -/
def Decided (front back : Bytes) : Prop :=
  Comment front ∨ equals ∈ front ∧ (keyOf front ≠ ascii "version" ∨
    valueOf front ≠ [] ∧ ∃ c ∈ valueOf front ++ back.take 1, lineEnd c = true)

/-- The line is cut in the spaces in front of it, and behind a chunk that decides
what it says, and what is cut off does not look like an entry. -/
def CutWell (l : Bytes) : Prop :=
  ∃ blanks chunk rest, pieces l = blanks ++ chunk :: rest ∧
    (∀ blank ∈ blanks, ∀ c ∈ blank, isspace c = true) ∧
    (rest = [] ∨ Decided chunk rest.flatten) ∧ ∀ chunk ∈ rest, entry chunk = none

theorem entry_separator {line : Bytes} (separator : equals ∈ line) :
    entry line = if Comment line then none
      else if keyOf line = ascii "version" ∧ (valueOf line).takeWhile (fun c => !lineEnd c) ≠ [] then
        some ((valueOf line).takeWhile fun c => !lineEnd c)
      else none := by
  rw [entry, keyOf, valueOf]
  cases behind : line.dropWhile (· != equals) with
  | nil =>
    have plain := List.dropWhile_eq_nil_iff.mp behind equals separator
    exact absurd plain (by decide)
  | cons c rest => rfl

theorem entry_plain {line : Bytes} (plain : equals ∉ line) : entry line = none := by
  have nothing : line.dropWhile (· != equals) = [] := List.dropWhile_eq_nil_iff.mpr fun c member =>
    bne_iff_ne.mpr fun same => plain (same ▸ member)
  rw [entry, nothing]
  exact ite_self none

theorem blank_keyless {spaces : Bytes} (blank : ∀ c ∈ spaces, isspace c = true) :
    equals ∉ spaces := fun member => absurd (blank equals member) (by decide)

/-- Spaces in front of a line make no difference. -/
theorem entry_blank {spaces : Bytes} (blank : ∀ c ∈ spaces, isspace c = true) (line : Bytes) :
    entry (spaces ++ line) = entry line := by
  have comment : Comment (spaces ++ line) ↔ Comment line := by
    rw [Comment, Comment, List.dropWhile_append_of_pos blank]
  by_cases separator : equals ∈ line
  · have key : keyOf (spaces ++ line) = keyOf line := by
      rw [keyOf, keyOf, List.takeWhile_append_of_pos (blank_plain blank),
        List.dropWhile_append_of_pos blank]
    have value : valueOf (spaces ++ line) = valueOf line := by
      rw [valueOf, valueOf, List.dropWhile_append_of_pos (blank_plain blank)]
    rw [entry_separator separator, entry_separator (List.mem_append_right spaces separator), key,
      value]
    simp only [comment]
  · rw [entry_plain separator, entry_plain]
    simp [separator, blank_keyless blank]

theorem comment_append {front : Bytes} (some : front.dropWhile isspace ≠ []) (back : Bytes) :
    Comment (front ++ back) ↔ Comment front := by
  rw [Comment, Comment, List.dropWhile_append]
  cases behind : front.dropWhile isspace with
  | nil => exact absurd behind some
  | cons c rest => rfl

/-- What ends the value is in front of the cut, or the first thing behind it. -/
theorem takeWhile_ended {value back : Bytes}
    (ended : ∃ c ∈ value ++ back.take 1, lineEnd c = true) :
    (value ++ back).takeWhile (fun c => !lineEnd c) = value.takeWhile fun c => !lineEnd c := by
  obtain ⟨c, member, ends⟩ := ended
  rcases first_other (fun c => !lineEnd c) value with inside | ⟨front, a, rest, rfl, inside, other⟩
  · rcases List.mem_append.mp member with inValue | next
    · have inner := inside c inValue
      simp [ends] at inner
    · cases back with
      | nil => cases next
      | cons b back =>
        obtain rfl := List.mem_singleton.mp next
        rw [takeWhile_first inside (by simp [ends]), List.takeWhile_eq_self_iff.mpr inside]
  · rw [List.append_assoc, List.cons_append, takeWhile_first inside other,
      takeWhile_first inside other]

theorem entry_append {front back : Bytes} (decided : Decided front back) :
    entry (front ++ back) = entry front := by
  by_cases comment : Comment front
  · have some : front.dropWhile isspace ≠ [] := by
      intro nothing
      rw [Comment, nothing] at comment
      cases comment
    rw [entry, if_pos ((comment_append some back).mpr comment), entry, if_pos comment]
  · obtain ⟨separator, decided⟩ := decided.resolve_left comment
    have same : Comment (front ++ back) ↔ Comment front := by
      refine comment_append (fun nothing => ?_) back
      exact absurd (List.dropWhile_eq_nil_iff.mp nothing equals separator) (by decide)
    rw [entry_separator separator, entry_separator (List.mem_append_left back separator)]
    simp only [same, if_neg comment]
    obtain plain | ⟨name, c, rest, rfl, plain, first⟩ := first_other (· != equals) front
    · exact absurd (plain equals separator) (by decide)
    have key : keyOf (name ++ c :: rest ++ back) = keyOf (name ++ c :: rest) := by
      rw [List.append_assoc, List.cons_append, keyOf, keyOf, takeWhile_first plain first,
        takeWhile_first plain first]
    rw [key]
    rcases decided with other | ⟨some, ended⟩
    · simp only [other, false_and, if_false]
    · have value : valueOf (name ++ c :: rest ++ back) = valueOf (name ++ c :: rest) ++ back := by
        rw [valueOf, dropWhile_first plain first, List.drop_one, List.tail_cons] at some
        rw [List.append_assoc, List.cons_append, valueOf, valueOf, dropWhile_first plain first,
          dropWhile_first plain first, List.drop_one, List.tail_cons, List.drop_one, List.tail_cons,
          List.dropWhile_append, List.isEmpty_eq_false_iff.mpr some]
        rfl
      rw [value, takeWhile_ended ended]

/-- Of the chunks of a line, the one that decides says what the line says, and the
others say nothing. -/
theorem CutWell.chunks {l : Bytes} (cut : CutWell l) :
    ∃ blanks chunk rest, pieces l = blanks ++ chunk :: rest ∧ equals ∉ blanks.flatten ∧
      entry l = entry chunk ∧ ∀ other ∈ blanks ++ rest, entry other = none := by
  obtain ⟨blanks, chunk, rest, whole, blank, decided, silent⟩ := cut
  have spaces : ∀ c ∈ blanks.flatten, isspace c = true := by
    intro c member
    obtain ⟨chunk, inside, member⟩ := List.mem_flatten.mp member
    exact blank chunk inside c member
  refine ⟨blanks, chunk, rest, whole, blank_keyless spaces, ?_, ?_⟩
  · have joined := Lines.flatten_chunks newline (n := bufSize - 1) (by decide) l
    change (pieces l).flatten = l at joined
    rw [whole, List.flatten_append, List.flatten_cons] at joined
    rw [← joined, entry_blank spaces]
    rcases decided with rfl | decided
    · rw [List.flatten_nil, List.append_nil]
    · exact entry_append decided
  · intro other member
    rcases List.mem_append.mp member with inBlanks | behind
    · exact entry_plain (blank_keyless (blank other inBlanks))
    · exact silent other behind

theorem CutWell.entries {l : Bytes} (cut : CutWell l) :
    (pieces l).filterMap entry = (entry l).toList := by
  obtain ⟨blanks, chunk, rest, whole, _, same, silent⟩ := cut.chunks
  have before := List.filterMap_eq_nil_iff.mpr fun other inside =>
    silent other (List.mem_append_left rest inside)
  have after := List.filterMap_eq_nil_iff.mpr fun other inside =>
    silent other (List.mem_append_right blanks inside)
  rw [whole, List.filterMap_append, List.filterMap_cons, before, after, same]
  cases entry chunk <;> rfl

theorem CutWell.own {l chunk : Bytes} {front back : List Bytes} (cut : CutWell l)
    (whole : pieces l = front ++ chunk :: back) (looks : entry chunk ≠ none) :
    ¬ Comment l ∧ equals ∉ front.flatten := by
  obtain ⟨blanks, chunk', rest, whole', keyless, same, silent⟩ := cut.chunks
  rw [whole'] at whole
  rcases Lines.split_cases whole with ⟨more, rfl, _⟩ | ⟨rfl, rfl, _⟩ | ⟨more, _, rfl⟩
  · exact absurd (silent chunk (by simp)) looks
  · refine ⟨fun comment => looks ?_, keyless⟩
    rw [← same, entry, if_pos comment]
  · exact absurd (silent chunk (by simp)) looks

/-- Cuts behind what decides a line do no harm. -/
theorem wellCut_of_cuts {lp64 : Bool} {contents : Bytes}
    (cuts : ∀ l ∈ lines newline contents, CutWell l)
    (keys : ∀ chunk ∈ pieces contents, ¬ EmptyKey chunk)
    (number : ∀ value, lastEntry (lines newline contents) = some value →
      0 ≤ decimalPrefix value ∧ decimalPrefix value < if lp64 then 2 ^ 32 else 2 ^ 31) :
    WellCut lp64 contents := by
  refine ⟨keys, fun l member front chunk back whole => (cuts l member).own whole, ?_, number⟩
  have entries : (lines newline contents).flatMap (fun l => (pieces l).filterMap entry) =
      (lines newline contents).flatMap fun l => (entry l).toList :=
    List.flatMap_congr fun l member => (cuts l member).entries
  rw [lastEntry, lastEntry, pieces_lines, List.filterMap_flatMap, entries,
    List.filterMap_eq_flatMap_toList]

/-- Lines that fit into the buffer are not cut. -/
theorem pieces_short {contents : Bytes} (short : ∀ l ∈ lines newline contents, l.length < bufSize) :
    pieces contents = lines newline contents ∧ ∀ l ∈ lines newline contents, pieces l = [l] := by
  have alone : ∀ l ∈ lines newline contents, pieces l = [l] := fun l member =>
    (Lines.isLine_of_mem member).chunks (by decide) (Nat.le_pred_of_lt (short l member))
  refine ⟨?_, alone⟩
  rw [pieces_lines, List.flatMap_congr alone]
  exact List.flatMap_singleton' _

theorem wellCut_of_short {lp64 : Bool} {contents : Bytes}
    (short : ∀ l ∈ lines newline contents, l.length < bufSize)
    (keys : ∀ l ∈ lines newline contents, ¬ EmptyKey l)
    (number : ∀ value, lastEntry (lines newline contents) = some value →
      0 ≤ decimalPrefix value ∧ decimalPrefix value < if lp64 then 2 ^ 32 else 2 ^ 31) :
    WellCut lp64 contents := by
  obtain ⟨same, alone⟩ := pieces_short short
  refine wellCut_of_cuts (fun l member => ⟨[], l, [], alone l member, ?_, .inl rfl, ?_⟩) ?_ number
  · intro blank member
    cases member
  · intro chunk member
    cases member
  · rwa [same]

def propFile : Bytes := ascii "# comment\nversion = 88\r\narch=arm\n"

theorem propFile_parsed : Implements false propFile ∧
    parseXposedProp false (some propFile) .unknown = some ⟨some (ascii "88"), 88⟩ :=
  ⟨(implements_iff (by decide) false).mpr (wellCut_of_short (by decide) (by decide) (by
    have last : lastEntry (lines newline propFile) = some (ascii "88") := by decide
    rw [last]
    rintro value ⟨⟩
    decide)), by decide⟩

/-- A comment that is cut in front of what looks like an entry. -/
def cutComment : Bytes := hash :: List.replicate 510 120 ++ ascii "version=9\n"

theorem cutComment_parsed : ¬ ∀ (lp64 : Bool) (contents : Bytes), 0 ∉ contents →
    Implements lp64 contents := by
  intro implements
  obtain ⟨after, parsed, last, _⟩ := (implements false cutComment (by decide +kernel)).result
  have taken : parseXposedProp false (some cutComment) .unknown = some ⟨some (ascii "9"), 9⟩ := by
    decide +kernel
  have none : lastEntry (lines newline cutComment) = none := by decide +kernel
  rw [taken, Option.some.injEq] at parsed
  rw [none, ← parsed] at last
  cases last

end Xposed.PropFile
