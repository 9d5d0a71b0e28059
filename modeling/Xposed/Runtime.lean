import Xposed.Lib.Lines
import Xposed.Fork.FdUtils

/-!
# The runtime that is loaded

`xposed.cpp`: `determineRuntime` looks for the library of a runtime in
`/proc/self/maps`, of which it reads 255 characters at a time.
-/

namespace Xposed.Runtime

open Lines (chunks lines)
open Fork (ascii)

/-- `sizeof(line)`, of which `fgets` leaves one byte for the NUL. -/
def bufSize : Nat := 256

def newline (c : UInt8) : Bool := c == 10

def slash : UInt8 := 47

def XPOSED_LIB_DIR (lp64 : Bool) : Bytes :=
  if lp64 then ascii "/system/lib64/" else ascii "/system/lib/"

def XPOSED_LIB_DALVIK (lp64 : Bool) : Bytes := XPOSED_LIB_DIR lp64 ++ ascii "libxposed_dalvik.so"

def XPOSED_LIB_ART (lp64 : Bool) : Bytes := XPOSED_LIB_DIR lp64 ++ ascii "libxposed_art.so"

/-- The body of the loop. `none`: it goes on. -/
def matchLine (lp64 : Bool) (line : Bytes) : Option Bytes :=
  match strrchr (cstr line) slash with
  | none => none
  | some found =>
    let libname := found.drop 1
    if libname = ascii "libdvm.so\n" then some (XPOSED_LIB_DALVIK lp64)
    else if libname = ascii "libart.so\n" then some (XPOSED_LIB_ART lp64)
    else none

/-- What `fgets` reads into the buffer, one turn after the other. -/
def pieces (contents : Bytes) : List Bytes := chunks newline (bufSize - 1) contents

/-- `determineRuntime`, with the path that it chooses if it succeeds. `maps` is
`none` if the file cannot be opened. -/
def determineRuntime (lp64 : Bool) (maps : Option Bytes) : Option Bytes :=
  match maps with
  | none => none
  | some contents => (pieces contents).findSome? (matchLine lp64)

/-! ## Whole lines -/

/-- The texts of the lines of the file. -/
structure Maps where
  texts : List Bytes
  plain : ∀ text ∈ texts, ∀ c ∈ text, newline c = false

def Maps.contents (maps : Maps) : Bytes := maps.texts.flatMap (· ++ [10])

/-- The library for a line, by the text after its last `/`. -/
def library (lp64 : Bool) (text : Bytes) : Option Bytes :=
  match strrchr text slash with
  | none => none
  | some found =>
    let name := found.drop 1
    if name = ascii "libdvm.so" then some (XPOSED_LIB_DALVIK lp64)
    else if name = ascii "libart.so" then some (XPOSED_LIB_ART lp64)
    else none

/-- The library for the first line that has one. -/
def Maps.scan (maps : Maps) (lp64 : Bool) : Option Bytes := maps.texts.findSome? (library lp64)

/-- What is left of a line for its last chunk. -/
def remainder (text : Bytes) : Bytes := text.drop (text.length / (bufSize - 1) * (bufSize - 1))

/-- The `/` and the name behind it are in one chunk, with no NUL in front of them there. -/
def Intact (text : Bytes) : Prop := 10 ≤ text.length % (bufSize - 1) ∧ 0 ∉ remainder text

instance : DecidablePred Intact := fun text =>
  inferInstanceAs (Decidable (10 ≤ text.length % (bufSize - 1) ∧ 0 ∉ remainder text))

/-- The first line for a library, or if it is not intact then the next one that
is, is for that library. -/
def Seen (lp64 : Bool) (maps : Maps) : Prop :=
  ∀ before text after path, maps.texts = before ++ text :: after →
    (∀ b ∈ before, library lp64 b = none) → library lp64 text = some path →
    ∃ missed found rest, text :: after = missed ++ found :: rest ∧
      (∀ m ∈ missed, Intact m → library lp64 m = none) ∧ Intact found ∧
      library lp64 found = some path

/-! ## One line -/

/-- A chunk without the end of its line is for no library. -/
theorem matchLine_plain (lp64 : Bool) {line : Bytes} (plain : 10 ∉ cstr line) :
    matchLine lp64 line = none := by
  unfold matchLine
  cases h : strrchr (cstr line) slash with
  | none => rfl
  | some found =>
    obtain ⟨front, back, split, rfl, _⟩ := strrchr_some h
    have inside : 10 ∉ back := by
      intro member
      apply plain
      rw [split]
      exact List.mem_append_right _ (List.mem_cons_of_mem _ member)
    have dalvik : back ≠ ascii "libdvm.so\n" := by
      rintro rfl
      exact inside (by decide)
    have art : back ≠ ascii "libart.so\n" := by
      rintro rfl
      exact inside (by decide)
    simp only [List.drop_succ_cons, List.drop_zero, if_neg dalvik, if_neg art]

/-- With the end of its line, a chunk is for the library that its text is for. -/
theorem matchLine_ended (lp64 : Bool) {text : Bytes} (clean : 0 ∉ text) :
    matchLine lp64 (text ++ [10]) = library lp64 text := by
  have whole : cstr (text ++ [10]) = text ++ [10] := cstr_clean (by simpa using clean)
  have dalvik : ascii "libdvm.so\n" = ascii "libdvm.so" ++ [10] := by decide
  have art : ascii "libart.so\n" = ascii "libart.so" ++ [10] := by decide
  unfold matchLine library
  rw [whole, dalvik, art]
  cases h : strrchr text slash with
  | none =>
    have none : slash ∉ text ++ [10] := by
      have absent := strrchr_eq_none_iff.mp h
      simpa [slash] using absent
    rw [strrchr_eq_none_iff.mpr none]
  | some found =>
    obtain ⟨front, back, rfl, rfl, last⟩ := strrchr_some h
    have last' : slash ∉ back ++ [10] := by simpa [slash] using last
    rw [List.append_assoc, List.cons_append, strrchr_last front last']
    simp only [List.drop_succ_cons, List.drop_zero, List.append_cancel_right_eq]

/-- Both names have nine characters. -/
theorem library_some {lp64 : Bool} {text path : Bytes} (h : library lp64 text = some path) :
    ∃ front name, text = front ++ slash :: name ∧ slash ∉ name ∧ name.length = 9 := by
  unfold library at h
  cases found : strrchr text slash with
  | none =>
    rw [found] at h
    cases h
  | some found' =>
    rw [found] at h
    obtain ⟨front, name, split, rfl, last⟩ := strrchr_some found
    refine ⟨front, name, split, last, ?_⟩
    simp only [List.drop_succ_cons, List.drop_zero] at h
    split at h
    · rename_i dalvik
      rw [dalvik]
      rfl
    · split at h
      · rename_i art
        rw [art]
        rfl
      · cases h

/-- What is behind a cut is for the library of the whole text exactly if the cut is
in front of the `/`. -/
theorem library_behind (lp64 : Bool) (front back : Bytes) :
    library lp64 back = if 10 ≤ back.length then library lp64 (front ++ back) else none := by
  by_cases inside : slash ∈ back
  · have same : library lp64 (front ++ back) = library lp64 back := by
      cases h : strrchr back slash with
      | none => exact absurd inside (strrchr_eq_none_iff.mp h)
      | some found =>
        obtain ⟨middle, name, rfl, rfl, last⟩ := strrchr_some h
        rw [library, library, ← List.append_assoc, strrchr_last _ last, strrchr_last _ last]
    split
    · exact same.symm
    · rename_i short
      cases h : library lp64 back with
      | none => rfl
      | some path =>
        obtain ⟨middle, name, rfl, _, nine⟩ := library_some h
        rw [List.length_append, List.length_cons, nine] at short
        omega
  · have none : library lp64 back = none := by
      rw [library, strrchr_eq_none_iff.mpr inside]
    rw [none]
    split
    · rename_i long
      cases h : library lp64 (front ++ back) with
      | none => rfl
      | some path =>
        obtain ⟨middle, name, split, _, nine⟩ := library_some h
        refine absurd ?_ inside
        rcases List.append_eq_append_iff.mp split with ⟨more, _, behind⟩ | ⟨more, _, behind⟩
        · simp [behind]
        · have lengths := congrArg List.length behind
          rw [List.length_append, List.length_cons, nine] at lengths
          have nothing : more = [] := List.eq_nil_of_length_eq_zero (by omega)
          rw [nothing, List.nil_append] at behind
          simp [← behind]
    · rfl

theorem remainder_length (text : Bytes) :
    (remainder text).length = text.length % (bufSize - 1) := by
  have split := Nat.div_add_mod' text.length (bufSize - 1)
  rw [remainder, List.length_drop]
  omega

/-- The loop over the chunks of a line. -/
theorem line_findSome? (lp64 : Bool) {text : Bytes} (plain : ∀ c ∈ text, newline c = false) :
    (pieces (text ++ [10])).findSome? (matchLine lp64) =
      if Intact text then library lp64 text else none := by
  obtain ⟨front, cut, unended⟩ := Lines.chunks_ended (n := bufSize - 1) (by decide) 10 plain
  have passed : front.findSome? (matchLine lp64) = none := by
    apply List.findSome?_eq_none_iff.mpr
    intro chunk member
    apply matchLine_plain
    intro inside
    exact absurd (unended chunk member 10 (List.takeWhile_subset _ inside)) (by decide)
  have last : (pieces (text ++ [10])).findSome? (matchLine lp64) =
      matchLine lp64 (remainder text ++ [10]) := by
    rw [pieces, cut, List.findSome?_append, passed, Option.none_or]
    exact List.findSome?_singleton
  rw [last]
  by_cases clean : 0 ∈ remainder text
  · have broken : ¬ Intact text := fun intact => intact.2 clean
    rw [if_neg broken]
    apply matchLine_plain
    rw [cstr_append clean]
    intro inside
    have member : 10 ∈ remainder text := List.takeWhile_subset _ inside
    exact absurd (plain 10 (List.mem_of_mem_drop member)) (by decide)
  · have behind := library_behind lp64 (text.take (text.length / (bufSize - 1) * (bufSize - 1)))
      (remainder text)
    rw [remainder, List.take_append_drop, ← remainder, remainder_length] at behind
    rw [matchLine_ended lp64 clean, behind]
    simp only [Intact, clean, not_false_eq_true, and_true]

/-! ## The whole file -/

theorem lines_contents (maps : Maps) :
    lines newline maps.contents = maps.texts.map (· ++ [10]) := by
  obtain ⟨texts, plain⟩ := maps
  unfold Maps.contents
  dsimp only
  induction texts with
  | nil => rfl
  | cons text rest ih =>
    obtain ⟨first, plain⟩ := List.forall_mem_cons.mp plain
    have ended := Lines.lines_ended first (a := 10) (by decide) (rest.flatMap (· ++ [10]))
    rw [List.flatMap_cons, List.map_cons, ← ih plain, ← ended, List.append_assoc]
    rfl

theorem findSome?_pieces (lp64 : Bool) {texts : List Bytes}
    (plain : ∀ text ∈ texts, ∀ c ∈ text, newline c = false) :
    (texts.flatMap fun text => pieces (text ++ [10])).findSome? (matchLine lp64) =
      texts.findSome? fun text => if Intact text then library lp64 text else none := by
  induction texts with
  | nil => rfl
  | cons text rest ih =>
    obtain ⟨first, plain⟩ := List.forall_mem_cons.mp plain
    rw [List.flatMap_cons, List.findSome?_append, line_findSome? lp64 first, ih plain,
      List.findSome?_cons]
    cases if Intact text then library lp64 text else none with
    | none => rfl
    | some path => rfl

/-- The first line counts that is for a library and intact. -/
theorem determineRuntime_eq (lp64 : Bool) (maps : Maps) :
    determineRuntime lp64 (some maps.contents) =
      maps.texts.findSome? fun text => if Intact text then library lp64 text else none := by
  have chunks : pieces maps.contents = maps.texts.flatMap fun text => pieces (text ++ [10]) := by
    rw [pieces, Lines.chunks_lines (by decide), lines_contents, List.flatMap_map]
    rfl
  rw [determineRuntime, chunks, findSome?_pieces lp64 maps.plain]

/-- **The runtime is the one of the whole lines** exactly if the first line for a
library, or the next one that is intact, is for it. -/
theorem scan_iff (lp64 : Bool) (maps : Maps) :
    determineRuntime lp64 (some maps.contents) = maps.scan lp64 ↔ Seen lp64 maps := by
  rw [determineRuntime_eq, Maps.scan]
  constructor
  · intro agrees before text after path split unmatched here
    have first : maps.texts.findSome? (library lp64) = some path :=
      List.findSome?_eq_some_iff.mpr ⟨before, text, after, split, here, unmatched⟩
    rw [first] at agrees
    obtain ⟨front, found, rest, split', chosen, passed⟩ := List.findSome?_eq_some_iff.mp agrees
    obtain ⟨intact, there⟩ := Option.ite_none_right_eq_some.mp chosen
    have missed : ∀ m ∈ front, Intact m → library lp64 m = none := fun m member =>
      ite_eq_right_iff.mp (passed m member)
    rcases Lines.split_cases (split.symm.trans split') with
      ⟨more, rfl, _⟩ | ⟨rfl, rfl, rfl⟩ | ⟨more, rfl, rfl⟩
    · rw [unmatched found (by simp)] at there
      cases there
    · exact ⟨[], found, rest, rfl, by simp, intact, there⟩
    · refine ⟨text :: more, found, rest, rfl, fun m member => missed m ?_, intact, there⟩
      exact List.mem_append_right _ member
  · intro seen
    cases whole : maps.texts.findSome? (library lp64) with
    | none =>
      apply List.findSome?_eq_none_iff.mpr
      intro text member
      rw [List.findSome?_eq_none_iff.mp whole text member, ite_self]
    | some path =>
      obtain ⟨before, text, after, split, here, none⟩ := List.findSome?_eq_some_iff.mp whole
      obtain ⟨missed, found, rest, behind, cut, intact, there⟩ :=
        seen before text after path split none here
      apply List.findSome?_eq_some_iff.mpr
      refine ⟨before ++ missed, found, rest, ?_, ?_, ?_⟩
      · rw [split, behind, List.append_assoc]
      · rw [if_pos intact, there]
      · intro m member
        rcases List.mem_append.mp member with old | late
        · rw [none m old, ite_self]
        · exact ite_eq_right_iff.mpr (cut m late)

/-- Lines for a library are seen as long as they are intact. -/
theorem seen_of_intact {lp64 : Bool} {maps : Maps}
    (intact : ∀ text ∈ maps.texts, library lp64 text ≠ none → Intact text) : Seen lp64 maps := by
  intro before text after path split _ here
  refine ⟨[], text, after, rfl, by simp, intact text (by simp [split]) ?_, here⟩
  rw [here]
  exact Option.some_ne_none path

/-- A mapping of the ART library whose name is cut in two. -/
def cutMapping : Bytes :=
  ascii "b6a00000-b6f00000 r-xp 00000000 b3:17 1234 /" ++ List.replicate 205 97 ++
    ascii "/libart.so"

theorem cutMapping_plain : ∀ text ∈ [cutMapping], ∀ c ∈ text, newline c = false := by
  decide +kernel

theorem cutMapping_missed :
    determineRuntime false (some (Maps.contents ⟨[cutMapping], cutMapping_plain⟩)) = none ∧
      ¬ ∀ (lp64 : Bool) (maps : Maps),
        determineRuntime lp64 (some maps.contents) = maps.scan lp64 := by
  have missed : determineRuntime false (some (Maps.contents ⟨[cutMapping], cutMapping_plain⟩)) =
      none := by
    decide +kernel
  refine ⟨missed, fun agrees => ?_⟩
  have art : Maps.scan ⟨[cutMapping], cutMapping_plain⟩ false = some (XPOSED_LIB_ART false) := by
    decide +kernel
  have same := agrees false ⟨[cutMapping], cutMapping_plain⟩
  rw [missed, art] at same
  cases same

end Xposed.Runtime
