import Mathlib.Algebra.Group.Nat.Defs
import Xposed.Dalvik.Hooking

/-!
# The arguments of a hooked method

`hookedMethodCallback` takes the arguments of a call out of the 32-bit registers
they were laid out in, by the types that the shorty gives, and puts them into an
object array for the handler.
-/

namespace Xposed.Dalvik

/-- The member of a `JValue` that was written. -/
inductive JValue where
  | i (word : UInt32)
  | j (wide : UInt64)
  deriving DecidableEq

/-- The primitive types of one word, as shorties name them. -/
inductive Narrow where
  | Z | C | F | B | S | I
  deriving DecidableEq

/-- Those of two words. -/
inductive Wide where
  | D | J
  deriving DecidableEq

def Narrow.descriptor : Narrow → Char
  | .Z => 'Z'
  | .C => 'C'
  | .F => 'F'
  | .B => 'B'
  | .S => 'S'
  | .I => 'I'

def Wide.descriptor : Wide → Char
  | .D => 'D'
  | .J => 'J'

/-- How the VM lays out 64-bit arguments, and what `dvmGetArgLong` makes of the
two words. -/
structure Layout where
  words : UInt64 → UInt32 × UInt32
  dvmGetArgLong : UInt32 → UInt32 → UInt64
  long_words : ∀ v, dvmGetArgLong (words v).1 (words v).2 = v

/-- The VM's objects, of type `O`: those that words point to, `none` being
`NULL`, and those it boxes values in, which takes a class of type `C`. -/
structure Objects (C O : Type) where
  object : UInt32 → Option O
  dvmFindPrimitiveClass : Char → C
  dvmBoxPrimitive : JValue → C → Option O

/-- The locals of the conversion, and the registers read so far. -/
structure Conversion (O : Type) where
  srcIndex : Nat
  dstIndex : Nat
  argsArray : List (Option O)
  reads : List Nat
  deriving DecidableEq

section
variable {C O : Type}

/-- `args[srcIndex++]`. `none`: there is no such register. -/
def Conversion.next (c : Conversion O) (args : List UInt32) : Option (UInt32 × Conversion O) :=
  (args[c.srcIndex]?).map fun word =>
    (word, { c with srcIndex := c.srcIndex + 1, reads := c.reads ++ [c.srcIndex] })

/-- `setObjectArrayElement(argsArray, dstIndex++, obj)`. `none`: the array is not
that long. -/
def Conversion.store (c : Conversion O) (obj : Option O) : Option (Conversion O) :=
  if c.dstIndex < c.argsArray.length then
    some { c with dstIndex := c.dstIndex + 1, argsArray := c.argsArray.set c.dstIndex obj }
  else none

/-- `thisObject`, for which a method that is not static takes the first register. -/
def Conversion.this (vm : Objects C O) (args : List UInt32) (isStatic : Bool) (c : Conversion O) :
    Option (Option O × Conversion O) :=
  if !isStatic then (c.next args).map fun (word, c) => (vm.object word, c) else some (none, c)

/-- The body of the loop over the shorty. -/
def Conversion.convert (vm : Objects C O) (layout : Layout) (args : List UInt32) (descChar : Char)
    (c : Conversion O) : Option (Conversion O) := do
  match descChar with
  | 'Z' | 'C' | 'F' | 'B' | 'S' | 'I' =>
    let (word, c) ← c.next args
    c.store (vm.dvmBoxPrimitive (.i word) (vm.dvmFindPrimitiveClass descChar))
  | 'D' | 'J' =>
    let (first, c) ← c.next args
    let (second, c) ← c.next args
    c.store
      (vm.dvmBoxPrimitive (.j (layout.dvmGetArgLong first second))
        (vm.dvmFindPrimitiveClass descChar))
  | '[' | 'L' =>
    let (word, c) ← c.next args
    c.store (vm.object word)
  | _ => Conversion.store { c with srcIndex := c.srcIndex + 1 } none

/-- `while (*desc != '\0')` -/
def Conversion.convertAll (vm : Objects C O) (layout : Layout) (args : List UInt32) :
    List Char → Conversion O → Option (Conversion O)
  | [], c => some c
  | descChar :: desc, c => do
    let c ← c.convert vm layout args descChar
    c.convertAll vm layout args desc

end

def ACC_STATIC : UInt32 := 0x8

def dvmIsStaticMethod {R : Type} (method : Method R) : Bool :=
  method.accessFlags &&& ACC_STATIC != 0

/-- What `handleHookedMethod` is called with. -/
structure Handled (M O : Type) where
  call : HandlerCall M O
  thisObject : Option O
  argsArray : List (Option O)
  reads : List Nat

section
variable {M C O R : Type}

/-- `hookedMethodCallback` with its arguments, where `shorty` is in the rest of a
method. `none`: it throws, or accesses something outside the registers or the
array; without memory for the array it returns without a call. -/
def hookedMethodCallbackOn (vm : Objects C O) (layout : Layout) (shorty : R → List Char)
    (s : State M R O) (method : M) (args : List UInt32) (allocates : Bool) :
    Option (Option (Handled M O)) := do
  let call ← hookedMethodCallback s method
  let original ← s.deref call.original
  match shorty (s.methods method).rest with
  | [] => none
  | _ :: desc =>
    let start : Conversion O := ⟨0, 0, List.replicate desc.length none, []⟩
    let (thisObject, c) ← start.this vm args (dvmIsStaticMethod original)
    if !allocates then some none
    else
      let c ← c.convertAll vm layout args desc
      some (some ⟨call, thisObject, c.argsArray, c.reads⟩)

end

/-! ## The calling convention -/

/-- An argument with its type. -/
inductive Argument where
  | narrow (type : Narrow) (word : UInt32)
  | wide (type : Wide) (value : UInt64)
  | reference (word : UInt32)
  deriving DecidableEq

def Argument.descriptor : Argument → Char
  | .narrow type _ => type.descriptor
  | .wide type _ => type.descriptor
  | .reference _ => 'L'

def Argument.words (layout : Layout) : Argument → List UInt32
  | .narrow _ word => [word]
  | .wide _ value => [(layout.words value).1, (layout.words value).2]
  | .reference word => [word]

/-- The registers of a call, `receiver` being `none` for a static method. -/
def laidOut (layout : Layout) (receiver : Option UInt32) (arguments : List Argument) :
    List UInt32 :=
  receiver.toList ++ arguments.flatMap (Argument.words layout)

section
variable {C O : Type}

/-- The object that stands for an argument: a box of its own type, or itself. -/
def Argument.object (vm : Objects C O) : Argument → Option O
  | .narrow type word =>
    vm.dvmBoxPrimitive (.i word) (vm.dvmFindPrimitiveClass type.descriptor)
  | .wide type value =>
    vm.dvmBoxPrimitive (.j value) (vm.dvmFindPrimitiveClass type.descriptor)
  | .reference word => vm.object word

theorem convert_narrow (vm : Objects C O) (layout : Layout) (args : List UInt32) (type : Narrow)
    (c : Conversion O) : c.convert vm layout args type.descriptor = (do
      let (word, c) ← c.next args
      c.store (vm.dvmBoxPrimitive (.i word) (vm.dvmFindPrimitiveClass type.descriptor))) := by
  cases type <;> rfl

theorem convert_wide (vm : Objects C O) (layout : Layout) (args : List UInt32) (type : Wide)
    (c : Conversion O) : c.convert vm layout args type.descriptor = (do
      let (first, c) ← c.next args
      let (second, c) ← c.next args
      c.store
        (vm.dvmBoxPrimitive (.j (layout.dvmGetArgLong first second))
          (vm.dvmFindPrimitiveClass type.descriptor))) := by
  cases type <;> rfl

/-- Everything in front of register `c.srcIndex` is read, once and in order, and
everything in front of element `c.dstIndex` is stored. -/
structure Upto (stored : List (Option O)) (read : Nat) (missing : Nat) (c : Conversion O) :
    Prop where
  srcIndex : c.srcIndex = read
  reads : c.reads = List.range read
  dstIndex : c.dstIndex = stored.length
  argsArray : c.argsArray = stored ++ List.replicate missing none

section
variable {stored : List (Option O)} {read missing : Nat} {c : Conversion O}

theorem Upto.next (h : Upto stored read missing c) {args : List UInt32} {word : UInt32}
    (there : args[read]? = some word) :
    ∃ d, c.next args = some (word, d) ∧ Upto stored (read + 1) missing d := by
  refine ⟨_, by rw [Conversion.next, h.srcIndex, there]; rfl, ?_⟩
  refine ⟨by rw [← h.srcIndex], ?_, h.dstIndex, h.argsArray⟩
  rw [List.range_succ, ← h.reads]

theorem Upto.store (h : Upto stored read (missing + 1) c) (obj : Option O) :
    ∃ d, c.store obj = some d ∧ Upto (stored ++ [obj]) read missing d := by
  have inside : c.dstIndex < c.argsArray.length := by
    rw [h.dstIndex, h.argsArray, List.length_append, List.length_replicate]
    omega
  refine ⟨_, if_pos inside, h.srcIndex, h.reads, ?_, ?_⟩
  · rw [List.length_append, List.length_singleton, h.dstIndex]
  · rw [h.argsArray, h.dstIndex, List.set_append_right _ _ (Nat.le_refl _), Nat.sub_self,
      List.replicate_succ, List.set_cons_zero, List.append_assoc]
    rfl

/-- One argument is converted and its words are passed. -/
theorem Upto.convert (h : Upto stored read (missing + 1) c) (vm : Objects C O) (layout : Layout)
    {args rest : List UInt32} {a : Argument} (there : args.drop read = a.words layout ++ rest) :
    ∃ d, c.convert vm layout args a.descriptor = some d ∧
      Upto (stored ++ [a.object vm]) (read + (a.words layout).length) missing d := by
  have word : ∀ i, args[read + i]? = (a.words layout ++ rest)[i]? := by
    intro i
    rw [← there, List.getElem?_drop]
  cases a with
  | narrow type value =>
    obtain ⟨d, next, upto⟩ := h.next (word 0)
    obtain ⟨e, store, upto⟩ := upto.store (Argument.object vm (.narrow type value))
    refine ⟨e, ?_, upto⟩
    rw [Argument.descriptor, convert_narrow, next]
    exact store
  | wide type value =>
    obtain ⟨d, first, upto⟩ := h.next (word 0)
    obtain ⟨e, second, upto⟩ := upto.next (word 1)
    obtain ⟨f, store, upto⟩ := upto.store (Argument.object vm (.wide type value))
    refine ⟨f, ?_, upto⟩
    rw [Argument.descriptor, convert_wide, first]
    simp only [Option.bind_eq_bind, Option.bind_some, second, layout.long_words]
    exact store
  | reference value =>
    obtain ⟨d, next, upto⟩ := h.next (word 0)
    obtain ⟨e, store, upto⟩ := upto.store (Argument.object vm (.reference value))
    refine ⟨e, ?_, upto⟩
    simp only [Argument.descriptor, Conversion.convert, next, Option.bind_eq_bind, Option.bind_some]
    exact store

end

theorem Upto.convertAll (vm : Objects C O) (layout : Layout) {args : List UInt32}
    {arguments : List Argument} {stored : List (Option O)} {read : Nat} {c : Conversion O}
    (h : Upto stored read arguments.length c)
    (there : args.drop read = arguments.flatMap (Argument.words layout)) :
    ∃ d, c.convertAll vm layout args (arguments.map Argument.descriptor) = some d ∧
      Upto (stored ++ arguments.map (Argument.object vm))
        (read + (arguments.flatMap (Argument.words layout)).length) 0 d := by
  induction arguments generalizing stored read c with
  | nil =>
    refine ⟨c, rfl, ?_⟩
    rw [List.map_nil, List.append_nil]
    exact h
  | cons a rest ih =>
    rw [List.flatMap_cons] at there
    obtain ⟨d, convert, upto⟩ := h.convert vm layout there
    have later : args.drop (read + (a.words layout).length) =
        rest.flatMap (Argument.words layout) := by
      rw [← List.drop_drop, there, List.drop_left]
    obtain ⟨e, all, upto⟩ := ih upto later
    refine ⟨e, ?_, ?_⟩
    · rw [List.map_cons, Conversion.convertAll, convert]
      exact all
    · rw [List.append_assoc, Nat.add_assoc, ← List.length_append] at upto
      exact upto

theorem Upto.this (vm : Objects C O) (layout : Layout) (receiver : Option UInt32)
    (arguments : List Argument) {missing : Nat} {c : Conversion O} (h : Upto [] 0 missing c) :
    ∃ d, c.this vm (laidOut layout receiver arguments) receiver.isNone =
        some (receiver.bind vm.object, d) ∧ Upto [] receiver.toList.length missing d := by
  cases receiver with
  | none => exact ⟨c, rfl, h⟩
  | some word =>
    have first : (laidOut layout (some word) arguments)[0]? = some word := rfl
    obtain ⟨d, next, upto⟩ := h.next first
    refine ⟨d, ?_, upto⟩
    simp [Conversion.this, next]

end

section
variable {M C O R : Type}

/-- **The arguments of a hooked method are decoded exactly.** Laid out for any
signature, they reach the handler one by one, each as its own type, and every
register is read once. -/
theorem arguments_decoded (vm : Objects C O) (layout : Layout) (shorty : R → List Char)
    {s : State M R O} {method : M} {call : HandlerCall M O} {original : Method R}
    (hooked : hookedMethodCallback s method = some call)
    (copy : s.deref call.original = some original) (returnType : Char) (receiver : Option UInt32)
    (static : dvmIsStaticMethod original = receiver.isNone) (arguments : List Argument)
    (signature : shorty (s.methods method).rest =
      returnType :: arguments.map Argument.descriptor) (allocates : Bool) :
    hookedMethodCallbackOn vm layout shorty s method (laidOut layout receiver arguments) allocates =
      some (if allocates then
        some ⟨call, receiver.bind vm.object, arguments.map (Argument.object vm),
          List.range (laidOut layout receiver arguments).length⟩
      else none) := by
  have start : Upto [] 0 arguments.length
      (⟨0, 0, List.replicate arguments.length none, []⟩ : Conversion O) := ⟨rfl, rfl, rfl, rfl⟩
  obtain ⟨d, this, upto⟩ := start.this vm layout receiver arguments
  have there : (laidOut layout receiver arguments).drop receiver.toList.length =
      arguments.flatMap (Argument.words layout) := List.drop_left
  obtain ⟨e, all, upto⟩ := upto.convertAll vm layout there
  simp only [hookedMethodCallbackOn, hooked, copy, signature, static, Option.bind_eq_bind,
    Option.bind_some, List.length_map, this]
  cases allocates with
  | false => rfl
  | true =>
    have count : (laidOut layout receiver arguments).length = receiver.toList.length +
        (arguments.flatMap (Argument.words layout)).length := List.length_append
    simp [all, upto.reads, upto.argsArray, count]

end

theorem low_high_words (v : UInt64) :
    UInt64.ofNat (v.toUInt32.toNat + (v >>> 32).toUInt32.toNat * 2 ^ 32) = v := by
  have bound := v.toNat_lt
  have high : (v >>> 32).toNat = v.toNat / 2 ^ 32 := by
    rw [UInt64.toNat_shiftRight, Nat.shiftRight_eq_div_pow]
    rfl
  apply UInt64.toNat_inj.mp
  rw [UInt64.toNat_ofNat', UInt64.toNat_toUInt32, UInt64.toNat_toUInt32, high]
  omega

/-- The low word first. -/
def littleEndian : Layout where
  words v := (v.toUInt32, (v >>> 32).toUInt32)
  dvmGetArgLong first second := .ofNat (first.toNat + second.toNat * 2 ^ 32)
  long_words := low_high_words

/-- Addresses for objects; a box lies where its value says. -/
def addresses : Objects Char UInt64 where
  object word := if word = 0 then none else some word.toUInt64
  dvmFindPrimitiveClass descChar := descChar
  dvmBoxPrimitive value _ :=
    match value with
    | .i word => some word.toUInt64
    | .j wide => some wide

/-- An instance method with an `int`, a `long` and an object, hooked. -/
def hookedOnce : State Int32 Unit UInt64 :=
  State.hook ⟨interpreted.methods, [], some 0⟩ 7 1000 none

theorem mixed_decoded : ∃ call,
    hookedMethodCallbackOn addresses littleEndian (fun _ => ['V', 'I', 'J', 'L']) hookedOnce
      7 [100, 5, 2, 1, 200] true =
      some (some ⟨call, some 100, [some 5, some 4294967298, some 200], [0, 1, 2, 3, 4]⟩) := by
  refine ⟨⟨1000, .copy 0, none⟩, ?_⟩
  exact arguments_decoded addresses littleEndian (fun _ => ['V', 'I', 'J', 'L']) rfl rfl 'V'
    (some 100) (by decide) [.narrow .I 5, .wide .J 4294967298, .reference 200] rfl true

end Xposed.Dalvik
