import Mathlib.Logic.Function.Basic
import Xposed.Lib.Run

/-!
# Objects that change their class

`setObjectClassNative` gives an object another class, and `cloneToSubclassNative`
makes a copy of another class. What a program then finds in the fields depends on
whether an object is as large as its class says. ART compares the sizes, Dalvik
does not.
-/

namespace Xposed.Dalvik.ObjectHeap

/-- `ClassObject`, or `mirror::Class` -/
structure ClassObject where
  initialized : Bool
  objectSize : UInt32
  accessFlags : UInt32
  deriving DecidableEq

/-- An object of class `clazz`. `bytes` is the memory it has behind its header. -/
structure Object (C : Type) where
  clazz : C
  bytes : List UInt8
  finalizable : Bool
  deriving DecidableEq

structure Heap (C O : Type) where
  classes : C → ClassObject
  objects : O → Object C

def ACC_FINAL : UInt32 := 0x10
def CLASS_ISFINALIZABLE : UInt32 := 0x80000000

/-- `sizeof(Object)` -/
def header : UInt32 := 8

section
variable {C O : Type} [DecidableEq C] [DecidableEq O]

def Heap.setClass (h : Heap C O) (clz : C) (c : ClassObject) : Heap C O :=
  { h with classes := Function.update h.classes clz c }

def Heap.setObject (h : Heap C O) (obj : O) (o : Object C) : Heap C O :=
  { h with objects := Function.update h.objects obj o }

/-- The object's class says how large it is. -/
def Heap.size (h : Heap C O) (obj : O) : UInt32 := (h.classes (h.objects obj).clazz).objectSize

/-- `dvmAllocObject`, at a place that is free. -/
def Heap.allocObject (h : Heap C O) (place : O) (clz : C) : Heap C O :=
  h.setObject place
    ⟨clz, List.replicate ((h.classes clz).objectSize.toNat - header.toNat) 0, false⟩

/-- The class is initialized, or `false`. -/
def Heap.ensureInitialized (h : Heap C O) (clz : C) (dvmInitClass : Bool) : Bool × Heap C O :=
  if (h.classes clz).initialized then (true, h)
  else if dvmInitClass then
    (true, h.setClass clz { h.classes clz with initialized := true })
  else (false, h)

/-! ## Dalvik -/

def setObjectClassNative (h : Heap C O) (obj : O) (clz : C) (dvmInitClass : Bool) : Heap C O :=
  let (initialized, h) := h.ensureInitialized clz dvmInitClass
  if initialized then h.setObject obj { h.objects obj with clazz := clz } else h

/-- `none`: `memcpy` runs out of one of the objects. `allocObject` is the place of
the copy, or `NULL`. -/
def cloneToSubclassNative (h : Heap C O) (obj : O) (clz : C) (allocObject : Option O) :
    Option (Option O × Heap C O) :=
  match allocObject with
  | none => some (none, h)
  | some copy =>
    let h := h.allocObject copy clz
    let n := (h.size obj - header).toNat
    let src := (h.objects obj).bytes
    let dest := (h.objects copy).bytes
    if n ≤ src.length ∧ n ≤ dest.length then
      some (some copy, h.setObject copy
        { h.objects copy with
          bytes := src.take n ++ dest.drop n
          finalizable := (h.classes clz).accessFlags &&& CLASS_ISFINALIZABLE != 0 })
    else none

/-- The same in ART. -/
def removeFinalFlagNative (h : Heap C O) (clazz : C) : Heap C O :=
  if (h.classes clazz).accessFlags &&& ACC_FINAL != 0 then
    h.setClass clazz
      { h.classes clazz with accessFlags := (h.classes clazz).accessFlags &&& ~~~ACC_FINAL }
  else h

/-! ## ART -/

/-- The message of the `IllegalArgumentException`. `%d` prints the sizes as signed. -/
def differentSizes (prettyClass : C → String) (h : Heap C O) (obj : O) (clz : C) : String :=
  "Different object sizes: " ++ prettyClass clz ++ " (" ++
    toString (h.classes clz).objectSize.toInt32 ++ ") vs. " ++ prettyClass (h.objects obj).clazz ++
    " (" ++ toString (h.size obj).toInt32 ++ ")"

/-- `setObjectClassNative` of ART, with the exception that is pending then. -/
def setObjectClassNativeArt (prettyClass : C → String) (h : Heap C O) (obj : O) (clz : C)
    (initializes : Bool) : Option String × Heap C O :=
  let (initialized, h) := h.ensureInitialized clz initializes
  if initialized then
    if (h.classes clz).objectSize ≠ h.size obj then (some (differentSizes prettyClass h obj clz), h)
    else (none, h.setObject obj { h.objects obj with clazz := clz })
  else (none, h)

/-! ## Runs -/

/-- What happens to the objects: the native methods, `new`, and a write to a field
at its offset behind the header. -/
inductive Op (C O : Type) where
  | setObjectClass (obj : O) (clz : C) (initializes : Bool)
  | removeFinalFlag (clazz : C)
  | new (place : O) (clz : C)
  | iput (obj : O) (offset : Nat) (value : UInt8)

inductive DalvikOp (C O : Type) where
  | common (op : Op C O)
  | cloneToSubclass (obj : O) (clz : C) (allocObject : Option O)

/-- `none`: a field lies outside of its object. -/
def Op.step (setObjectClass : Heap C O → O → C → Bool → Heap C O) (h : Heap C O) :
    Op C O → Option (Heap C O)
  | .setObjectClass obj clz initializes => some (setObjectClass h obj clz initializes)
  | .removeFinalFlag clazz => some (removeFinalFlagNative h clazz)
  | .new place clz => some (h.allocObject place clz)
  | .iput obj offset value =>
    if offset < (h.objects obj).bytes.length then
      some (h.setObject obj
        { h.objects obj with bytes := (h.objects obj).bytes.set offset value })
    else none

def DalvikOp.step (h : Heap C O) : DalvikOp C O → Option (Heap C O)
  | .common op => op.step setObjectClassNative h
  | .cloneToSubclass obj clz allocObject =>
    (cloneToSubclassNative h obj clz allocObject).map Prod.snd

def artStep (prettyClass : C → String) (h : Heap C O) (op : Op C O) : Option (Heap C O) :=
  op.step (fun h obj clz initializes =>
    (setObjectClassNativeArt prettyClass h obj clz initializes).2) h

/-- Programs use the fields of an object's class only, and instances have room for
the header. -/
def Op.Verified (h : Heap C O) : Op C O → Prop
  | .setObjectClass _ _ _ | .removeFinalFlag _ => True
  | .new _ clz => header ≤ (h.classes clz).objectSize
  | .iput obj offset _ => offset + header.toNat < (h.size obj).toNat

/-- A copy gets a place of its own. -/
def DalvikOp.Verified (h : Heap C O) : DalvikOp C O → Prop
  | .common op => op.Verified h
  | .cloneToSubclass obj _ allocObject => allocObject ≠ some obj

/-- Every object has the memory that its class promises. -/
def Sized (h : Heap C O) : Prop :=
  ∀ obj, header ≤ h.size obj ∧ (h.size obj).toNat ≤ header.toNat + (h.objects obj).bytes.length

/-- It has no more than that, either. -/
def Exact (h : Heap C O) : Prop :=
  ∀ obj, (h.size obj).toNat = header.toNat + (h.objects obj).bytes.length

/-- The new class asks for no more memory than the object has, and a copy's class
for as much as the original's. -/
def DalvikOp.Fits (h : Heap C O) : DalvikOp C O → Prop
  | .common (.setObjectClass obj clz initializes) =>
    (h.ensureInitialized clz initializes).1 = true → header ≤ (h.classes clz).objectSize ∧
      (h.classes clz).objectSize.toNat ≤ header.toNat + (h.objects obj).bytes.length
  | .common _ => True
  | .cloneToSubclass obj clz allocObject =>
    allocObject ≠ none → h.size obj ≤ (h.classes clz).objectSize

/-! ## What the pieces do to the sizes -/

/-- No class has another size, and no object has changed. -/
structure SameSizes (h h' : Heap C O) : Prop where
  objects : h'.objects = h.objects
  sizes : ∀ c, (h'.classes c).objectSize = (h.classes c).objectSize

omit [DecidableEq C] [DecidableEq O] in
theorem SameSizes.size {h h' : Heap C O} (same : SameSizes h h') (obj : O) :
    h'.size obj = h.size obj := by
  rw [Heap.size, Heap.size, same.objects, same.sizes]

omit [DecidableEq C] [DecidableEq O] in
theorem SameSizes.sized {h h' : Heap C O} (same : SameSizes h h') (sized : Sized h) : Sized h' := by
  intro obj
  rw [same.size, same.objects]
  exact sized obj

omit [DecidableEq C] [DecidableEq O] in
theorem SameSizes.exact {h h' : Heap C O} (same : SameSizes h h') (exact_ : Exact h) : Exact h' := by
  intro obj
  rw [same.size, same.objects]
  exact exact_ obj

omit [DecidableEq O] in
theorem setClass_same (h : Heap C O) {clz : C} {c : ClassObject}
    (size : c.objectSize = (h.classes clz).objectSize) : SameSizes h (h.setClass clz c) := by
  refine ⟨rfl, fun d => ?_⟩
  by_cases there : d = clz
  · subst there
    simpa [Heap.setClass] using size
  · simp [Heap.setClass, there]

omit [DecidableEq O] in
theorem ensureInitialized_same (h : Heap C O) (clz : C) (initializes : Bool) :
    SameSizes h (h.ensureInitialized clz initializes).2 := by
  unfold Heap.ensureInitialized
  split
  · exact ⟨rfl, fun _ => rfl⟩
  · split
    · exact setClass_same h rfl
    · exact ⟨rfl, fun _ => rfl⟩

omit [DecidableEq O] in
theorem removeFinalFlagNative_same (h : Heap C O) (clazz : C) :
    SameSizes h (removeFinalFlagNative h clazz) := by
  unfold removeFinalFlagNative
  split
  · exact setClass_same h rfl
  · exact ⟨rfl, fun _ => rfl⟩

omit [DecidableEq C] in
/-- One object is exchanged: what matters is the new one. -/
theorem sized_setObject {h : Heap C O} (sized : Sized h) (obj : O) (o : Object C) :
    Sized (h.setObject obj o) ↔ header ≤ (h.classes o.clazz).objectSize ∧
      (h.classes o.clazz).objectSize.toNat ≤ header.toNat + o.bytes.length := by
  constructor
  · intro after
    simpa [Heap.size, Heap.setObject] using after obj
  · intro fits other
    by_cases here : other = obj
    · subst here
      simpa [Heap.size, Heap.setObject] using fits
    · simpa [Heap.size, Heap.setObject, here] using sized other

omit [DecidableEq C] in
theorem exact_setObject {h : Heap C O} (exact_ : Exact h) {obj : O} {o : Object C}
    (fits : (h.classes o.clazz).objectSize.toNat = header.toNat + o.bytes.length) :
    Exact (h.setObject obj o) := by
  intro other
  by_cases here : other = obj
  · subst here
    simpa [Heap.size, Heap.setObject] using fits
  · simpa [Heap.size, Heap.setObject, here] using exact_ other

/-! ## One operation -/

theorem setObjectClassNative_sized {h : Heap C O} (sized : Sized h) (obj : O) (clz : C)
    (initializes : Bool) : Sized (setObjectClassNative h obj clz initializes) ↔
      (DalvikOp.common (.setObjectClass obj clz initializes)).Fits h := by
  have same := ensureInitialized_same h clz initializes
  unfold setObjectClassNative DalvikOp.Fits
  cases ready : (h.ensureInitialized clz initializes).1 with
  | false => simpa [ready] using same.sized sized
  | true =>
    simp only [ready, if_true, forall_const]
    rw [sized_setObject (same.sized sized), same.sizes, same.objects]

omit [DecidableEq C] in
theorem allocObject_sized {h : Heap C O} (sized : Sized h) (place : O) {clz : C}
    (room : header ≤ (h.classes clz).objectSize) : Sized (h.allocObject place clz) := by
  apply (sized_setObject sized _ _).mpr
  refine ⟨room, ?_⟩
  dsimp only
  rw [List.length_replicate]
  omega

omit [DecidableEq C] in
theorem allocObject_other (h : Heap C O) {obj copy : O} (clz : C) (own : copy ≠ obj) :
    (h.allocObject copy clz).objects obj = h.objects obj := by
  simp [Heap.allocObject, Heap.setObject, Ne.symm own]

omit [DecidableEq C] [DecidableEq O] in
/-- `size - offset` does not wrap around. -/
theorem fields_length {h : Heap C O} (sized : Sized h) (obj : O) :
    (h.size obj - header).toNat = (h.size obj).toNat - header.toNat :=
  UInt32.toNat_sub_of_le _ _ (sized obj).1

omit [DecidableEq C] in
theorem cloneToSubclassNative_sized {h : Heap C O} (sized : Sized h) {obj copy : O} (clz : C)
    (own : copy ≠ obj) :
    (∃ h', (cloneToSubclassNative h obj clz (some copy)).map Prod.snd = some h' ∧ Sized h') ↔
      h.size obj ≤ (h.classes clz).objectSize := by
  have large := sized obj
  have length := fields_length sized obj
  have there : (h.allocObject copy clz).size obj = h.size obj := by
    rw [Heap.size, allocObject_other h clz own]
    rfl
  have bytes : ((h.allocObject copy clz).objects copy).bytes.length =
      (h.classes clz).objectSize.toNat - header.toNat := by
    simp [Heap.allocObject, Heap.setObject]
  have room : header ≤ h.size obj ↔ header.toNat ≤ (h.size obj).toNat := UInt32.le_iff_toNat_le
  have copies : ∀ o : Object C, o.clazz = clz →
      o.bytes.length = (h.classes clz).objectSize.toNat - header.toNat →
      (Sized ((h.allocObject copy clz).setObject copy o) ↔ header ≤ (h.classes clz).objectSize) := by
    rintro o rfl length
    have twice : (h.allocObject copy o.clazz).setObject copy o = h.setObject copy o := by
      simp [Heap.allocObject, Heap.setObject]
    rw [twice, sized_setObject sized]
    exact and_iff_left_of_imp fun _ => by omega
  unfold cloneToSubclassNative
  simp only [there, allocObject_other h clz own, length, bytes]
  rw [UInt32.le_iff_toNat_le]
  split
  · rename_i inside
    have clazz : ((h.allocObject copy clz).objects copy).clazz = clz := by
      simp [Heap.allocObject, Heap.setObject]
    simp only [Option.map_some, Option.some.injEq, exists_eq_left']
    refine (copies _ ?_ ?_).trans ?_
    · exact clazz
    · simp only [List.length_append, List.length_take, List.length_drop, bytes]
      omega
    · rw [UInt32.le_iff_toNat_le]
      have := room.mp large.1
      omega
  · rename_i outside
    constructor
    · rintro ⟨_, never, _⟩
      cases never
    · intro fits
      refine absurd ⟨?_, ?_⟩ outside <;> omega

/-- **One operation in Dalvik** goes right exactly if it fits. -/
theorem dalvik_step_iff (h : Heap C O) (op : DalvikOp C O) (sized : Sized h)
    (verified : op.Verified h) : (∃ h', op.step h = some h' ∧ Sized h') ↔ op.Fits h := by
  cases op with
  | cloneToSubclass obj clz allocObject =>
    cases allocObject with
    | none => simpa [DalvikOp.step, cloneToSubclassNative, DalvikOp.Fits] using sized
    | some copy =>
      have own : copy ≠ obj := fun same => verified (congrArg some same)
      simpa [DalvikOp.step, DalvikOp.Fits] using cloneToSubclassNative_sized sized clz own
  | common op =>
    cases op with
    | setObjectClass obj clz initializes =>
      simpa [DalvikOp.step, Op.step] using setObjectClassNative_sized sized obj clz initializes
    | removeFinalFlag clazz =>
      simpa [DalvikOp.step, Op.step, DalvikOp.Fits] using
        (removeFinalFlagNative_same h clazz).sized sized
    | new place clz =>
      simpa [DalvikOp.step, Op.step, DalvikOp.Fits] using allocObject_sized sized place verified
    | iput obj offset value =>
      have large := sized obj
      have inside : offset < (h.objects obj).bytes.length := by
        have used : offset + header.toNat < (h.size obj).toNat := verified
        omega
      simp only [DalvikOp.step, Op.step, if_pos inside, Option.some.injEq, exists_eq_left',
        DalvikOp.Fits, iff_true]
      apply (sized_setObject sized _ _).mpr
      rw [List.length_set]
      exact large

omit [DecidableEq C] in
/-- A copy that fits has all the fields of its original, and zeros behind them. -/
theorem copy_faithful {h h' : Heap C O} (sized : Sized h) {obj copy : O} {clz : C}
    (own : copy ≠ obj) (fits : h.size obj ≤ (h.classes clz).objectSize) (made : Option O)
    (copies : cloneToSubclassNative h obj clz (some copy) = some (made, h')) :
    made = some copy ∧ (h'.objects copy).clazz = clz ∧
      (h'.objects copy).bytes = (h.objects obj).bytes.take ((h.size obj).toNat - header.toNat) ++
        List.replicate ((h.classes clz).objectSize.toNat - (h.size obj).toNat) 0 := by
  have large := sized obj
  have room : header.toNat ≤ (h.size obj).toNat := UInt32.le_iff_toNat_le.mp large.1
  have fits := UInt32.le_iff_toNat_le.mp fits
  have there : (h.allocObject copy clz).size obj = h.size obj := by
    rw [Heap.size, allocObject_other h clz own]
    rfl
  have new : (h.allocObject copy clz).objects copy =
      ⟨clz, List.replicate ((h.classes clz).objectSize.toNat - header.toNat) 0, false⟩ := by
    simp [Heap.allocObject, Heap.setObject]
  unfold cloneToSubclassNative at copies
  simp only [there, allocObject_other h clz own, fields_length sized obj, new] at copies
  split at copies
  · cases copies
    refine ⟨rfl, ?_, ?_⟩
    · simp [Heap.setObject]
    · simp only [Heap.setObject, Function.update_self, List.drop_replicate]
      congr 2
      omega
  · cases copies

/-- **In Dalvik, objects keep the memory of their class** in a run exactly if each
class that is set asks for no more than the object has, and each copy's class for
no less than the original's. -/
theorem dalvik_sized_iff (h : Heap C O) (sized : Sized h) (ops : List (DalvikOp C O))
    (verified : Run.Throughout DalvikOp.step DalvikOp.Verified h ops) :
    Run.Keeps DalvikOp.step Sized h ops ↔ Run.Throughout DalvikOp.step DalvikOp.Fits h ops :=
  Run.keeps_iff dalvik_step_iff sized verified

/-! ## In ART -/

theorem setObjectClassNativeArt_exact (prettyClass : C → String) {h : Heap C O} (exact_ : Exact h)
    (obj : O) (clz : C) (initializes : Bool) :
    Exact (setObjectClassNativeArt prettyClass h obj clz initializes).2 := by
  have same := ensureInitialized_same h clz initializes
  unfold setObjectClassNativeArt
  dsimp only
  split
  · split
    · exact same.exact exact_
    · rename_i equal
      have equal := Decidable.not_not.mp equal
      apply exact_setObject (same.exact exact_)
      rw [equal]
      exact same.exact exact_ obj
  · exact same.exact exact_

theorem art_step (prettyClass : C → String) (h : Heap C O) (op : Op C O) (exact_ : Exact h)
    (verified : op.Verified h) : ∃ h', artStep prettyClass h op = some h' ∧ Exact h' := by
  cases op with
  | setObjectClass obj clz initializes =>
    exact ⟨_, rfl, setObjectClassNativeArt_exact prettyClass exact_ obj clz initializes⟩
  | removeFinalFlag clazz => exact ⟨_, rfl, (removeFinalFlagNative_same h clazz).exact exact_⟩
  | new place clz =>
    refine ⟨_, rfl, exact_setObject exact_ ?_⟩
    have room : header.toNat ≤ (h.classes clz).objectSize.toNat :=
      UInt32.le_iff_toNat_le.mp verified
    dsimp only
    rw [List.length_replicate]
    omega
  | iput obj offset value =>
    have all := exact_ obj
    have inside : offset < (h.objects obj).bytes.length := by
      have used : offset + header.toNat < (h.size obj).toNat := verified
      omega
    refine ⟨_, if_pos inside, exact_setObject exact_ ?_⟩
    rw [List.length_set]
    exact all

/-- **In ART, objects are as large as their class** in every run: `IllegalArgumentException`
keeps out every class of another size. -/
theorem art_exact (prettyClass : C → String) (h : Heap C O) (exact_ : Exact h) (ops : List (Op C O))
    (verified : Run.Throughout (artStep prettyClass) Op.Verified h ops) :
    Run.Keeps (artStep prettyClass) Exact h ops := by
  have one : ∀ h (op : Op C O), Exact h → op.Verified h →
      ((∃ h', artStep prettyClass h op = some h' ∧ Exact h') ↔ True) := fun h op exact_ verified =>
    iff_of_true (art_step prettyClass h op exact_ verified) trivial
  exact (Run.keeps_iff one exact_ verified).mpr (.of_forall (fun _ _ => trivial) h ops)

/-- Where ART has nothing against it, both runtimes do the same. -/
theorem runtimes_agree (prettyClass : C → String) {h h' : Heap C O} {obj : O} {clz : C}
    {initializes : Bool}
    (sets : setObjectClassNativeArt prettyClass h obj clz initializes = (none, h')) :
    setObjectClassNative h obj clz initializes = h' := by
  unfold setObjectClassNativeArt at sets
  unfold setObjectClassNative
  dsimp only at sets ⊢
  split at sets
  · rename_i ready
    rw [if_pos ready]
    split at sets
    · cases sets
    · cases sets
      rfl
  · rename_i ready
    rw [if_neg ready]
    cases sets
    rfl

end

/-- Class 2 has 16 bytes of fields, the other ones 8, and so have the objects. -/
def smallHeap : Heap Nat Nat :=
  ⟨fun clz => ⟨true, if clz = 2 then 24 else 16, 0⟩, fun _ => ⟨0, List.replicate 8 0, false⟩⟩

/-- An object gets another class of its size, and a copy of a larger one. -/
def sameSizeOps : List (DalvikOp Nat Nat) :=
  [.common (.setObjectClass 0 1 true), .cloneToSubclass 0 2 (some 1), .common (.iput 1 12 5)]

theorem same_size_kept : Run.Keeps DalvikOp.step Sized smallHeap sameSizeOps := by
  have sized : Sized smallHeap :=
    fun _ => ⟨(by decide : header ≤ (16 : UInt32)), (by decide : (16 : UInt32).toNat ≤ 8 + 8)⟩
  refine (dalvik_sized_iff smallHeap sized sameSizeOps ?_).mpr ?_
  · refine ⟨trivial, ?_⟩
    rintro _ ⟨⟩
    refine ⟨(by decide : some 1 ≠ some 0), ?_⟩
    rintro _ ⟨⟩
    exact ⟨(by decide : 12 + 8 < (24 : UInt32).toNat), fun _ _ => trivial⟩
  · refine ⟨fun _ => ⟨by decide, by decide⟩, ?_⟩
    rintro _ ⟨⟩
    refine ⟨fun _ => by decide, ?_⟩
    rintro _ ⟨⟩
    exact ⟨trivial, fun _ _ => trivial⟩

/-- A larger class is refused, and set on an object of its own. -/
theorem larger_refused : Run.Keeps (artStep fun _ => "C") Exact smallHeap
    [.setObjectClass 0 2 true, .new 1 2, .iput 1 12 5] := by
  apply art_exact
  · exact fun _ => (by decide : (16 : UInt32).toNat = 8 + 8)
  · refine ⟨trivial, ?_⟩
    rintro _ ⟨⟩
    refine ⟨(by decide : header ≤ (24 : UInt32)), ?_⟩
    rintro _ ⟨⟩
    exact ⟨(by decide : 12 + 8 < (24 : UInt32).toNat), fun _ _ => trivial⟩

end Xposed.Dalvik.ObjectHeap
