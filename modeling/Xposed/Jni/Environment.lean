import Mathlib.Logic.Function.Basic
import Xposed.Lib.Calls
import Xposed.Membased.Client

/-!
# What the library is given by the VM

The JNI functions, those of the Dalvik VM and of libc that `libxposed_common.cpp`
and `libxposed_dalvik.cpp` call, and the file functions of the Zygote service. A
pending exception decides which of them may be called, and so does an array that
is held by `GetPrimitiveArrayCritical`.
-/

namespace Xposed.Jni

open Membased (Outcome)

/-- `NATIVE_METHOD`, with the function of that name. -/
structure NativeMethod where
  name : String
  signature : String
  deriving DecidableEq

structure JavaException where
  className : String
  message : Bytes
  deriving DecidableEq

/-- The calls that give a reference or an ID, or else `NULL` and an exception.
All of them are of type `R`. -/
inductive Lookup (R : Type) where
  | findClass (name : String)
  | getStaticMethodID (clazz : Option R) (name sig : String)
  | getMethodID (clazz : Option R) (name sig : String)
  | newObject (clazz constructor : Option R) (args : List (Option Int64))
  | newIntArray (length : Int)
  | dvmFindArrayClass (descriptor : String)

inductive Call (R : Type) where
  | lookup (l : Lookup R)
  | newGlobalRef (obj : R)
  | deleteLocalRef (obj : R)
  | registerNatives (clazz : R) (methods : List NativeMethod)
  | exceptionClear
  | logExceptionStackTrace
  | jniThrowException (e : JavaException)
  | getStringUTFChars (string : R)
  | releaseStringUTFChars (string : R)
  | newByteArray (length : Int)
  | getPrimitiveArrayCritical (array : R)
  /-- To the array that is held, from a block of `malloc`. -/
  | memcpy (array : R) (content : HeapBlock) (n : Int)
  | releasePrimitiveArrayCritical (array : R)
  | free (content : HeapBlock)
  | getIntArrayElements (array : R)
  | releaseIntArrayElements (array : R)
  | dvmDecodeIndirectRef (obj : R)
  | dvmSetNativeFunc (method : R)
  | accessFlags (clazz : R)
  | setAccessFlags (clazz : R) (flags : UInt32)
  | dlsym (symbol : String)
  | fopen (name : String)
  | fscanf
  | fclose
  | zygoteservice_accessFile (path : Option Bytes) (mode : Int32)
  | zygoteservice_statFile (path : Option Bytes)
  | zygoteservice_readFile (path : Option Bytes)

/-- `NULL` is `none`. Pointers that are only compared with `NULL` are `Bool`, and
other addresses are numbers. -/
def Answer {R : Type} : Call R → Type
  | .lookup _ | .newByteArray _ => Option R
  | .newGlobalRef _ => R
  | .registerNatives _ _ => Int32
  | .getStringUTFChars _ => Option Bytes
  | .getPrimitiveArrayCritical _ | .dlsym _ | .fopen _ => Bool
  | .getIntArrayElements _ | .dvmDecodeIndirectRef _ | .accessFlags _ => UInt32
  -- the number of items and the integer
  | .fscanf => Int32 × Int32
  -- the result and `errno`, with what the out-parameter holds
  | .zygoteservice_accessFile _ _ => Int32 × Int32
  | .zygoteservice_statFile _ => Int32 × Int32 × Option Stat
  | .zygoteservice_readFile _ => Option HeapBlock × Int32 × Int
  | .deleteLocalRef _ | .exceptionClear | .logExceptionStackTrace | .jniThrowException _
  | .releaseStringUTFChars _ | .memcpy _ _ _ | .releasePrimitiveArrayCritical _ | .free _
  | .releaseIntArrayElements _ | .dvmSetNativeFunc _ | .setAccessFlags _ _ | .fclose => Unit

def JNI_OK : Int32 := 0

/-- Code of the library. -/
abbrev Code (R : Type) : Type → Type := Calls.Prog (Call R) Answer

/-- The VM, as far as the library changes it. Of a cell nothing was stored in,
nothing is known. -/
structure Vm (R : Type) where
  pending : Option JavaException
  critical : Option R
  arrays : R → List (Option UInt8)
  natives : R → List NativeMethod
  flags : R → UInt32

/-- What the VM and the service answer by themselves: the characters of a string,
which may be `NULL` where memory is short, and the outcomes of the service. A
process without access to the service is refused. -/
structure Outside (R : Type) where
  chars : R → Option Bytes → Prop
  accessible : Bool
  service : Membased.Call → Outcome → Prop
  refuses : accessible = false → ∀ call out, service call out → call.refusal false = some out

section
variable {R : Type}

/-- No exception is pending, and no array is held. -/
def Vm.Clear (vm : Vm R) : Prop := vm.pending = none ∧ vm.critical = none

/-- No `NULL` is given where there must be a class or an ID. -/
def Lookup.Given : Lookup R → Prop
  | .findClass _ | .newIntArray _ | .dvmFindArrayClass _ => True
  | .getStaticMethodID clazz _ _ | .getMethodID clazz _ _ => clazz ≠ none
  | .newObject clazz constructor _ => clazz ≠ none ∧ constructor ≠ none

/-- With an exception pending, only what releases or clears may be called. A
stack trace needs one. `strlen` and `strcpy` take no `NULL`. -/
def Allowed (outside : Outside R) (vm : Vm R) : Call R → Prop
  | .exceptionClear | .jniThrowException _ | .deleteLocalRef _ | .releaseStringUTFChars _
  | .releaseIntArrayElements _ => vm.critical = none
  | .logExceptionStackTrace => vm.pending ≠ none ∧ vm.critical = none
  | .memcpy array content n => vm.critical = some array ∧ 0 ≤ n ∧
      n ≤ content.cells.length ∧ n ≤ (vm.arrays array).length
  | .releasePrimitiveArrayCritical array => vm.critical = some array
  | .free _ | .dlsym _ | .fopen _ | .fscanf | .fclose => True
  | .zygoteservice_accessFile path _ | .zygoteservice_statFile path
  | .zygoteservice_readFile path =>
    vm.critical = none ∧ (outside.accessible = true → path ≠ none)
  | .lookup l => vm.Clear ∧ l.Given
  | _ => vm.Clear

/-- A result, or `NULL` with an exception. -/
def Vm.OrThrows (vm : Vm R) (result : Option R) (vm' : Vm R) : Prop :=
  match result with
  | some _ => vm' = vm
  | none => ∃ e, vm' = { vm with pending := some e }

variable [DecidableEq R]

/-- The methods are native from now on. -/
def Vm.register (vm : Vm R) (clazz : R) (methods : List NativeMethod) : Vm R :=
  { vm with natives := Function.update vm.natives clazz (vm.natives clazz ++ methods) }

/-- What each call may answer, and what the VM is then. -/
def Answers (outside : Outside R) (vm : Vm R) : (c : Call R) → Answer c → Vm R → Prop
  | .lookup _, result, vm' => vm.OrThrows result vm'
  | .newByteArray length, result, vm' =>
    match result with
    | some array => vm' =
        { vm with arrays := Function.update vm.arrays array (.replicate length.toNat (some 0)) }
    | none => ∃ e, vm' = { vm with pending := some e }
  | .registerNatives clazz methods, (result : Int32), vm' =>
    if result = JNI_OK then vm' = vm.register clazz methods
    else ∃ e registered, registered <+: methods ∧
      vm' = { vm.register clazz registered with pending := some e }
  | .exceptionClear, _, vm' => vm' = { vm with pending := none }
  | .jniThrowException e, _, vm' => vm' = { vm with pending := some e }
  | .getStringUTFChars string, chars, vm' => outside.chars string chars ∧
      match chars with
      | some _ => vm' = vm
      | none => ∃ e, vm' = { vm with pending := some e }
  | .getPrimitiveArrayCritical array, (there : Bool), vm' =>
    vm' = if there then { vm with critical := some array } else vm
  | .memcpy array content n, _, vm' => vm' = { vm with
      arrays := Function.update vm.arrays array
        (content.cells.take n.toNat ++ (vm.arrays array).drop n.toNat) }
  | .releasePrimitiveArrayCritical _, _, vm' => vm' = { vm with critical := none }
  | .setAccessFlags clazz flags, _, vm' =>
    vm' = { vm with flags := Function.update vm.flags clazz flags }
  | .accessFlags clazz, (flags : UInt32), vm' => flags = vm.flags clazz ∧ vm' = vm
  | .zygoteservice_accessFile path mode, out, vm' =>
    outside.service (.accessFile (path.getD []) mode) (.accessFile out.1 out.2) ∧ vm' = vm
  | .zygoteservice_statFile path, out, vm' =>
    outside.service (.statFile (path.getD [])) (.statFile out.1 out.2.1 out.2.2) ∧ vm' = vm
  | .zygoteservice_readFile path, out, vm' =>
    outside.service (.readFile (path.getD []) (some 0))
      (.readFile out.1 out.2.1 (some out.2.2)) ∧ vm' = vm
  | _, _, vm' => vm' = vm

/-- The library's environment. -/
def environment (outside : Outside R) : Calls.Env (Call R) Answer (Vm R) where
  Allowed := Allowed outside
  Answers := Answers outside

end

section
variable {R : Type}

/-! ## The calls as code -/

def findClass (name : String) : Code R (Option R) := .perform (Call.lookup (.findClass name))
def newGlobalRef (obj : R) : Code R R := .perform (Call.newGlobalRef obj)
def deleteLocalRef (obj : R) : Code R Unit := .perform (Call.deleteLocalRef obj)
def registerNatives (clazz : R) (methods : List NativeMethod) : Code R Int32 :=
  .perform (Call.registerNatives clazz methods)
def getStaticMethodID (clazz : Option R) (name sig : String) : Code R (Option R) :=
  .perform (Call.lookup (.getStaticMethodID clazz name sig))
def getMethodID (clazz : Option R) (name sig : String) : Code R (Option R) :=
  .perform (Call.lookup (.getMethodID clazz name sig))
def exceptionClear : Code R Unit := .perform Call.exceptionClear
def logExceptionStackTrace : Code R Unit := .perform Call.logExceptionStackTrace
def jniThrowException (e : JavaException) : Code R Unit := .perform (Call.jniThrowException e)
def getStringUTFChars (string : R) : Code R (Option Bytes) := .perform (Call.getStringUTFChars string)
def releaseStringUTFChars (string : R) : Code R Unit := .perform (Call.releaseStringUTFChars string)
def newObject (clazz constructor : Option R) (args : List (Option Int64)) : Code R (Option R) :=
  .perform (Call.lookup (.newObject clazz constructor args))
def newByteArray (length : Int) : Code R (Option R) := .perform (Call.newByteArray length)
def getPrimitiveArrayCritical (array : R) : Code R Bool :=
  .perform (Call.getPrimitiveArrayCritical array)
def memcpy (array : R) (content : HeapBlock) (n : Int) : Code R Unit :=
  .perform (Call.memcpy array content n)
def releasePrimitiveArrayCritical (array : R) : Code R Unit :=
  .perform (Call.releasePrimitiveArrayCritical array)
def free (content : HeapBlock) : Code R Unit := .perform (Call.free content)
def newIntArray (length : Int) : Code R (Option R) :=
  .perform (Call.lookup (.newIntArray length))
def getIntArrayElements (array : R) : Code R UInt32 := .perform (Call.getIntArrayElements array)
def releaseIntArrayElements (array : R) : Code R Unit := .perform (Call.releaseIntArrayElements array)
def dvmDecodeIndirectRef (obj : R) : Code R UInt32 := .perform (Call.dvmDecodeIndirectRef obj)
def dvmFindArrayClass (descriptor : String) : Code R (Option R) :=
  .perform (Call.lookup (.dvmFindArrayClass descriptor))
def dvmSetNativeFunc (method : R) : Code R Unit := .perform (Call.dvmSetNativeFunc method)
def accessFlags (clazz : R) : Code R UInt32 := .perform (Call.accessFlags clazz)
def setAccessFlags (clazz : R) (flags : UInt32) : Code R Unit :=
  .perform (Call.setAccessFlags clazz flags)
def dlsym (symbol : String) : Code R Bool := .perform (Call.dlsym symbol)
def fopen (name : String) : Code R Bool := .perform (Call.fopen name)
def fscanf : Code R (Int32 × Int32) := .perform Call.fscanf
def fclose : Code R Unit := .perform Call.fclose
def zygoteservice_accessFile (path : Option Bytes) (mode : Int32) : Code R (Int32 × Int32) :=
  .perform (Call.zygoteservice_accessFile path mode)
def zygoteservice_statFile (path : Option Bytes) : Code R (Int32 × Int32 × Option Stat) :=
  .perform (Call.zygoteservice_statFile path)
def zygoteservice_readFile (path : Option Bytes) : Code R (Option HeapBlock × Int32 × Int) :=
  .perform (Call.zygoteservice_readFile path)

/-! ## Rules -/

/-- What the code has called, and what was answered. -/
abbrev Events (R : Type) : Type := List (Calls.Event (Call R) Answer)

/-- An exception is pending. -/
def Vm.threw (vm : Vm R) (e : JavaException) : Vm R := { vm with pending := some e }

variable [DecidableEq R] {outside : Outside R} {vm : Vm R} {α : Type}
  {Q : Events R → α → Vm R → Prop}

theorem Vm.Clear.register {clazz : R} {methods : List NativeMethod} (clear : vm.Clear) :
    (vm.register clazz methods).Clear := clear

theorem Vm.mem_register {clazz other : R} {methods : List NativeMethod} {m : NativeMethod}
    (known : m ∈ vm.natives other) : m ∈ (vm.register clazz methods).natives other := by
  by_cases same : other = clazz
  · subst same
    simp [register, known]
  · simp [register, same, known]

theorem Vm.register_self (clazz : R) {methods : List NativeMethod} {m : NativeMethod}
    (added : m ∈ methods) : m ∈ (vm.register clazz methods).natives clazz := by
  simp [register, added]

/-- The lookup succeeds, or an exception is pending. -/
theorem lookup_rule {l : Lookup R} {f : Option R → Code R α} (clear : vm.Clear) (given : l.Given)
    (found : ∀ r, (f (some r)).wp (environment outside)
      (fun later => Q (⟨.lookup l, some r⟩ :: later)) vm)
    (missing : ∀ e, (f none).wp (environment outside)
      (fun later => Q (⟨.lookup l, none⟩ :: later)) (vm.threw e)) :
    ((Calls.Prog.perform (Call.lookup l) : Code R (Option R)) >>= f).wp (environment outside) Q vm := by
  refine ⟨⟨clear, given⟩, ?_⟩
  rintro (_ | r) vm' answers
  · obtain ⟨e, rfl⟩ := answers
    exact missing e
  · cases answers
    exact found r

theorem newGlobalRef_rule {obj : R} {f : R → Code R α} (clear : vm.Clear)
    (next : ∀ r, (f r).wp (environment outside) (fun later => Q (⟨.newGlobalRef obj, r⟩ :: later)) vm) :
    (newGlobalRef obj >>= f).wp (environment outside) Q vm := by
  refine ⟨clear, fun r vm' answers => ?_⟩
  cases answers
  exact next r

theorem registerNatives_rule {clazz : R} {methods : List NativeMethod} {ok error : Code R α}
    (clear : vm.Clear)
    (registers : ok.wp (environment outside)
      (fun later => Q (⟨.registerNatives clazz methods, JNI_OK⟩ :: later)) (vm.register clazz methods))
    (fails : ∀ result e registered, result ≠ JNI_OK → error.wp (environment outside)
      (fun later => Q (⟨.registerNatives clazz methods, result⟩ :: later))
      ((vm.register clazz registered).threw e)) :
    (registerNatives clazz methods >>= fun result => if result ≠ JNI_OK then error else ok).wp
      (environment outside) Q vm := by
  refine ⟨clear, fun (result : Int32) vm' answers => ?_⟩
  by_cases fine : result = JNI_OK
  · subst fine
    cases answers
    exact registers
  · simp only [environment, Answers, if_neg fine] at answers
    obtain ⟨e, registered, _, rfl⟩ := answers
    change (if result ≠ JNI_OK then error else ok).wp _ _ _
    rw [if_pos fine]
    exact fails result e registered fine

end

end Xposed.Jni
