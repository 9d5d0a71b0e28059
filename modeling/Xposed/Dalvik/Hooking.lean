import Mathlib.Logic.Function.Basic
import Mathlib.Tactic.ByContra

/-!
# Hooking methods of the Dalvik VM

`XposedBridge_hookMethodNative` overwrites a method of the VM in place and keeps
a copy of what it was; `hookedMethodCallback` and
`XposedBridge_invokeOriginalMethodNative` find the copy again through the
overwritten method.
-/

namespace Xposed.Dalvik

/-- What `nativeFunc` points to. -/
inductive NativeFunc where
  | hookedMethodCallback
  | other (address : Nat)
  deriving DecidableEq

/-- What `insns` points to: code, or the hook info that `calloc` gave as the
`i`-th one. -/
inductive Insns where
  | code (address : Nat)
  | hookInfo (i : Nat)
  deriving DecidableEq

/-- `struct Method`, as far as it is touched here. `rest` is all the rest of it,
with the bytes behind it that some ROMs use. -/
structure Method (R : Type) where
  accessFlags : UInt32
  registersSize : UInt16
  outsSize : UInt16
  insSize : UInt16
  insns : Insns
  nativeFunc : NativeFunc
  rest : R

/-- `XposedHookInfo`. Objects are of type `O`, and `none` is `NULL`. -/
structure XposedHookInfo (R O : Type) where
  originalMethod : Method R
  reflectedMethod : O
  additionalInfo : Option O

/-- A `Method*`: one of the VM's own methods, of type `M`, or a hook info taken
for the method it starts with. -/
inductive MethodPtr (M : Type) where
  | method (m : M)
  | copy (i : Nat)
  deriving DecidableEq

/-- How the VM finds its methods, from a class and a slot and from a reflected
method. -/
structure Vm (M C O : Type) where
  dvmSlotToMethod : C → Int32 → Option M
  dvmGetMethodFromReflectObj : O → M

/-- The methods of the VM, the hook infos and, where the VM has a JIT compiler,
the flag that its cache is full. -/
structure State (M R O : Type) where
  methods : M → Method R
  hookInfos : List (XposedHookInfo R O)
  codeCacheFull : Option UInt8

/-- A pending Java exception. -/
inductive Exception where
  | illegalArgument (message : String)
  | noSuchMethod (message : String)
  deriving DecidableEq

/-- The arguments of `hookMethodNative`, and whether `calloc` gives memory. -/
structure HookCall (C O : Type) where
  reflectedMethod : Option O
  declaredClass : Option C
  slot : Int32
  additionalInfo : Option O
  calloc : Bool

def ACC_NATIVE : UInt32 := 0x100

section
variable {M C O R : Type} [DecidableEq M]

def isMethodHooked (method : Method R) : Bool := method.nativeFunc == .hookedMethodCallback

/-- "Replace method with our own code", the hook info being the `i`-th. -/
def Method.replaced (method : Method R) (i : Nat) : Method R :=
  { method with
    accessFlags := method.accessFlags ||| ACC_NATIVE
    nativeFunc := .hookedMethodCallback
    insns := .hookInfo i
    registersSize := method.insSize
    outsSize := 0 }

/-- "reset JIT cache" -/
def resetJit (codeCacheFull : Option UInt8) : Option UInt8 :=
  codeCacheFull.map fun currentValue =>
    if currentValue == 0 || currentValue == 1 then 1 else currentValue

def State.hook (s : State M R O) (method : M) (reflectedMethod : O) (additionalInfo : Option O) :
    State M R O where
  methods := Function.update s.methods method ((s.methods method).replaced s.hookInfos.length)
  hookInfos := s.hookInfos ++ [⟨s.methods method, reflectedMethod, additionalInfo⟩]
  codeCacheFull := resetJit s.codeCacheFull

/-- `XposedBridge_hookMethodNative`. `none`: it writes to `NULL`, which `calloc`
returned. -/
def hookMethodNative (vm : Vm M C O) (s : State M R O) (c : HookCall C O) :
    Option (Option Exception × State M R O) :=
  match c.declaredClass, c.reflectedMethod with
  | some declaredClass, some reflectedMethod =>
    match vm.dvmSlotToMethod declaredClass c.slot with
    | none => some (some (.noSuchMethod "Could not get internal representation for method"), s)
    | some method =>
      if isMethodHooked (s.methods method) then some (none, s)
      else if !c.calloc then none
      else some (none, s.hook method reflectedMethod c.additionalInfo)
  | _, _ => some (some (.illegalArgument "method and declaredClass must not be null"), s)

/-- `(Method*) method->insns`. `none`: it is not a hook info. -/
def Method.original (method : Method R) : Option Nat :=
  match method.insns with
  | .code _ => none
  | .hookInfo i => some i

/-- What the handler gets besides the converted arguments. -/
structure HandlerCall (M O : Type) where
  originalReflected : O
  original : MethodPtr M
  additionalInfo : Option O

/-- `hookedMethodCallback` for a method of the VM, up to the arguments. `none`:
it throws, or takes something else for a hook info. -/
def hookedMethodCallback (s : State M R O) (method : M) : Option (HandlerCall M O) :=
  if !isMethodHooked (s.methods method) then none
  else do
    let i ← (s.methods method).original
    let hookInfo ← s.hookInfos[i]?
    some ⟨hookInfo.reflectedMethod, .copy i, hookInfo.additionalInfo⟩

/-- The method that `XposedBridge_invokeOriginalMethodNative` gives to
`dvmInvokeMethod`: `args[1]` unless it is `NULL`, else the one of the reflected
method `args[0]`. -/
def invokeOriginalMethodNative (vm : Vm M C O) (s : State M R O) (arg0 : O)
    (arg1 : Option (MethodPtr M)) : Option (MethodPtr M) :=
  match arg1 with
  | some meth => some meth
  | none =>
    let meth := vm.dvmGetMethodFromReflectObj arg0
    if isMethodHooked (s.methods meth) then ((s.methods meth).original).map .copy
    else some (.method meth)

/-- What a `Method*` points to. -/
def State.deref (s : State M R O) : MethodPtr M → Option (Method R)
  | .method m => some (s.methods m)
  | .copy i => (s.hookInfos[i]?).map XposedHookInfo.originalMethod

/-- A call after the other. -/
def hookAll (vm : Vm M C O) (s : State M R O) : List (HookCall C O) → Option (State M R O)
  | [] => some s
  | c :: cs =>
    match hookMethodNative vm s c with
    | none => none
    | some (_, s) => hookAll vm s cs

/-- The method a call is about. -/
def HookCall.target (vm : Vm M C O) (c : HookCall C O) : Option M :=
  match c.declaredClass, c.reflectedMethod with
  | some declaredClass, some _ => vm.dvmSlotToMethod declaredClass c.slot
  | _, _ => none

/-! ## One call -/

/-- Everything one call can do. -/
inductive HookStep (vm : Vm M C O) (s : State M R O) (c : HookCall C O) :
    Option Exception → State M R O → Prop where
  | thrown (e : Exception) : c.target vm = none → HookStep vm s c (some e) s
  | already {m : M} : c.target vm = some m → isMethodHooked (s.methods m) = true →
      HookStep vm s c none s
  | hooks {m : M} {reflectedMethod : O} : c.target vm = some m →
      isMethodHooked (s.methods m) = false → c.calloc = true →
      HookStep vm s c none (s.hook m reflectedMethod c.additionalInfo)

theorem hookMethodNative_step {vm : Vm M C O} {s s' : State M R O} {c : HookCall C O}
    {e : Option Exception} (h : hookMethodNative vm s c = some (e, s')) : HookStep vm s c e s' := by
  unfold hookMethodNative at h
  split at h
  · rename_i declaredClass reflectedMethod hclass hmethod
    have target : c.target vm = vm.dvmSlotToMethod declaredClass c.slot := by
      simp only [HookCall.target, hclass, hmethod]
    split at h
    · rename_i none
      cases h
      exact .thrown _ (target.trans none)
    · rename_i m found
      split at h
      · rename_i hooked
        cases h
        exact .already (target.trans found) hooked
      · rename_i unhooked
        split at h
        · cases h
        · rename_i calloc
          cases h
          exact .hooks (target.trans found) (by simpa using unhooked) (by simpa using calloc)
  · rename_i missing
    cases h
    refine .thrown _ ?_
    unfold HookCall.target
    split
    · rename_i hclass hmethod
      exact absurd hmethod (missing _ _ hclass)
    · rfl

theorem hook_of_hooked {vm : Vm M C O} {s : State M R O} {c : HookCall C O} {m : M}
    (target : c.target vm = some m) (hooked : isMethodHooked (s.methods m) = true) :
    hookMethodNative vm s c = some (none, s) := by
  unfold HookCall.target at target
  unfold hookMethodNative
  split at target
  · simp only [target, hooked, if_true]
  · cases target

@[simp]
theorem isMethodHooked_replaced (method : Method R) (i : Nat) :
    isMethodHooked (method.replaced i) = true := rfl

@[simp]
theorem hook_self (s : State M R O) (m : M) (r : O) (a : Option O) :
    (s.hook m r a).methods m = (s.methods m).replaced s.hookInfos.length :=
  Function.update_self ..

theorem hook_other (s : State M R O) {m m' : M} (r : O) (a : Option O) (other : m' ≠ m) :
    (s.hook m r a).methods m' = s.methods m' :=
  Function.update_of_ne other ..

/-! ## What is kept of the originals -/

/-- The original of `m`, as it was in `first`, is kept in the `i`-th hook info. -/
structure Kept (first s : State M R O) (m : M) (i : Nat) : Prop where
  replaced : s.methods m = (first.methods m).replaced i
  copy : s.deref (.copy i) = some (first.methods m)

/-- A method is as it was, or its original is kept. -/
def Pristine (first s : State M R O) (m : M) : Prop :=
  s.methods m = first.methods m ∨ ∃ i, Kept first s m i

omit [DecidableEq M] in
/-- `s'` has the hook infos of `s`, and maybe more. -/
theorem deref_prefix {s s' : State M R O} (longer : s.hookInfos <+: s'.hookInfos) {i : Nat}
    {method : Method R} (h : s.deref (.copy i) = some method) :
    s'.deref (.copy i) = some method := by
  obtain ⟨later, grown⟩ := longer
  obtain ⟨info, found, rfl⟩ := Option.map_eq_some_iff.mp h
  have inside := (List.getElem?_eq_some_iff.mp found).1
  simp only [State.deref, ← grown]
  rw [List.getElem?_append_left inside, found, Option.map_some]

theorem HookStep.prefix_hookInfos {vm : Vm M C O} {s s' : State M R O} {c : HookCall C O}
    {e : Option Exception} (step : HookStep vm s c e s') : s.hookInfos <+: s'.hookInfos := by
  cases step with
  | thrown _ _ => exact List.prefix_refl _
  | already _ _ => exact List.prefix_refl _
  | hooks _ _ _ => exact List.prefix_append ..

theorem HookStep.kept {vm : Vm M C O} {first s s' : State M R O} {c : HookCall C O}
    {e : Option Exception} (step : HookStep vm s c e s') {m : M} {i : Nat}
    (kept : Kept first s m i) : Kept first s' m i := by
  refine ⟨?_, deref_prefix step.prefix_hookInfos kept.copy⟩
  cases step with
  | thrown _ _ => exact kept.replaced
  | already _ _ => exact kept.replaced
  | @hooks m' _ _ unhooked _ =>
    have other : m ≠ m' := by
      rintro rfl
      rw [kept.replaced, isMethodHooked_replaced] at unhooked
      cases unhooked
    rw [hook_other _ _ _ other]
    exact kept.replaced

theorem HookStep.pristine {vm : Vm M C O} {first s s' : State M R O} {c : HookCall C O}
    {e : Option Exception} (step : HookStep vm s c e s') {m : M}
    (pristine : Pristine first s m) : Pristine first s' m := by
  rcases pristine with same | ⟨i, kept⟩
  · cases step with
    | thrown _ _ => exact .inl same
    | already _ _ => exact .inl same
    | @hooks m' reflectedMethod _ _ _ =>
      by_cases self : m = m'
      · subst self
        refine .inr ⟨s.hookInfos.length, ?_, ?_⟩
        · rw [hook_self, same]
        · simp [State.deref, State.hook, same]
      · exact .inl ((hook_other _ _ _ self).trans same)
  · exact .inr ⟨i, step.kept kept⟩

/-- A method is replaced only by a call about it. -/
theorem HookStep.unchanged {vm : Vm M C O} {s s' : State M R O} {c : HookCall C O}
    {e : Option Exception} (step : HookStep vm s c e s') {m : M} (never : c.target vm ≠ some m) :
    s'.methods m = s.methods m := by
  cases step with
  | thrown _ _ => rfl
  | already _ _ => rfl
  | @hooks m' _ target _ _ =>
    have other : m ≠ m' := by
      rintro rfl
      exact never target
    exact hook_other _ _ _ other

/-- A call about a method leaves it hooked. -/
theorem HookStep.hooked {vm : Vm M C O} {s s' : State M R O} {c : HookCall C O}
    {e : Option Exception} (step : HookStep vm s c e s') {m : M} (target : c.target vm = some m) :
    isMethodHooked (s'.methods m) = true := by
  cases step with
  | thrown _ none =>
    rw [target] at none
    cases none
  | already same hooked =>
    rw [target, Option.some.injEq] at same
    subst same
    exact hooked
  | hooks same _ _ =>
    rw [target, Option.some.injEq] at same
    subst same
    rw [hook_self, isMethodHooked_replaced]

/-! ## Whole runs -/

theorem hookAll_cons {vm : Vm M C O} {s s' : State M R O} {c : HookCall C O}
    {cs : List (HookCall C O)} (h : hookAll vm s (c :: cs) = some s') :
    ∃ e t, HookStep vm s c e t ∧ hookAll vm t cs = some s' := by
  rw [hookAll] at h
  split at h
  · cases h
  · rename_i e t call
    exact ⟨e, t, hookMethodNative_step call, h⟩

theorem hookAll_pristine {vm : Vm M C O} {first s s' : State M R O} {cs : List (HookCall C O)}
    (h : hookAll vm s cs = some s') {m : M} (pristine : Pristine first s m) :
    Pristine first s' m := by
  induction cs generalizing s with
  | nil =>
    cases h
    exact pristine
  | cons c cs ih =>
    obtain ⟨e, t, step, later⟩ := hookAll_cons h
    exact ih later (step.pristine pristine)

theorem hookAll_kept {vm : Vm M C O} {first s s' : State M R O} {cs : List (HookCall C O)}
    (h : hookAll vm s cs = some s') {m : M} {i : Nat} (kept : Kept first s m i) :
    Kept first s' m i := by
  induction cs generalizing s with
  | nil =>
    cases h
    exact kept
  | cons c cs ih =>
    obtain ⟨e, t, step, later⟩ := hookAll_cons h
    exact ih later (step.kept kept)

theorem hookAll_unchanged {vm : Vm M C O} {s s' : State M R O} {cs : List (HookCall C O)}
    (h : hookAll vm s cs = some s') {m : M} (never : ∀ c ∈ cs, c.target vm ≠ some m) :
    s'.methods m = s.methods m := by
  induction cs generalizing s with
  | nil =>
    cases h
    rfl
  | cons c cs ih =>
    obtain ⟨e, t, step, later⟩ := hookAll_cons h
    have rest := ih later fun d hd => never d (List.mem_cons_of_mem c hd)
    rw [rest]
    exact step.unchanged (never c List.mem_cons_self)

theorem hookAll_hooked {vm : Vm M C O} {s s' : State M R O} {cs : List (HookCall C O)}
    (h : hookAll vm s cs = some s') {m : M} (hooked : isMethodHooked (s.methods m) = true) :
    isMethodHooked (s'.methods m) = true := by
  induction cs generalizing s with
  | nil =>
    cases h
    exact hooked
  | cons c cs ih =>
    obtain ⟨e, t, step, later⟩ := hookAll_cons h
    apply ih later
    by_cases target : c.target vm = some m
    · exact step.hooked target
    · rw [step.unchanged target]
      exact hooked

theorem hookAll_targeted {vm : Vm M C O} {s s' : State M R O} {cs : List (HookCall C O)}
    (h : hookAll vm s cs = some s') {m : M} (targeted : ∃ c ∈ cs, c.target vm = some m) :
    isMethodHooked (s'.methods m) = true := by
  induction cs generalizing s with
  | nil => simp at targeted
  | cons c cs ih =>
    obtain ⟨e, t, step, later⟩ := hookAll_cons h
    obtain ⟨d, hd, target⟩ := targeted
    rcases List.mem_cons.mp hd with rfl | hd
    · exact hookAll_hooked later (step.hooked target)
    · exact ih later ⟨d, hd, target⟩

/-- The original of the hooked method `m` is kept in the `i`-th hook info for
good, and every way to it ends there. -/
structure Safe (vm : Vm M C O) (first s : State M R O) (m : M) (i : Nat) : Prop where
  insns : (s.methods m).insns = .hookInfo i
  copy : s.deref (.copy i) = some (first.methods m)
  pristine : (first.methods m).nativeFunc ≠ .hookedMethodCallback
  /-- Hooking it once more changes nothing at all. -/
  again : ∀ c, c.target vm = some m → hookMethodNative vm s c = some (none, s)
  /-- The callback does not throw, and hands out the copy. -/
  callback : ∃ info, s.hookInfos[i]? = some info ∧
    hookedMethodCallback s m = some ⟨info.reflectedMethod, .copy i, info.additionalInfo⟩
  byReflected : ∀ arg0, vm.dvmGetMethodFromReflectObj arg0 = m →
    invokeOriginalMethodNative vm s arg0 none = some (.copy i)
  /-- What the callback hands out can be invoked at any later time. -/
  byPointer : ∀ cs s', hookAll vm s cs = some s' →
    (∀ arg0, invokeOriginalMethodNative vm s' arg0 (some (.copy i)) = some (.copy i)) ∧
      s'.deref (.copy i) = some (first.methods m)

theorem Kept.safe {vm : Vm M C O} {first s : State M R O} {m : M} {i : Nat}
    (kept : Kept first s m i) (unhooked : isMethodHooked (first.methods m) = false) :
    Safe vm first s m i := by
  have hooked : isMethodHooked (s.methods m) = true := by
    rw [kept.replaced, isMethodHooked_replaced]
  have points : (s.methods m).original = some i := by
    rw [kept.replaced]
    rfl
  refine ⟨?_, kept.copy, ?_, ?_, ?_, ?_, ?_⟩
  · rw [kept.replaced]
    rfl
  · simpa [isMethodHooked] using unhooked
  · intro c target
    exact hook_of_hooked target hooked
  · obtain ⟨info, found, _⟩ := Option.map_eq_some_iff.mp kept.copy
    refine ⟨info, found, ?_⟩
    simp [hookedMethodCallback, hooked, points, found]
  · rintro arg0 rfl
    simp [invokeOriginalMethodNative, hooked, points]
  · intro cs s' later
    exact ⟨fun _ => rfl, (hookAll_kept later kept).copy⟩

/-- **Hooking never loses the original method.** Whatever calls were made on a VM
without hooks, the methods they were about are hooked with their originals safe,
and no others are changed. -/
theorem original_never_lost (vm : Vm M C O) (first s : State M R O)
    (unhooked : ∀ m, (first.methods m).nativeFunc ≠ .hookedMethodCallback)
    (cs : List (HookCall C O)) (run : hookAll vm first cs = some s) (m : M) :
    (isMethodHooked (s.methods m) = true ↔ ∃ c ∈ cs, c.target vm = some m) ∧
      (isMethodHooked (s.methods m) = false → s.methods m = first.methods m) ∧
      (isMethodHooked (s.methods m) = true → ∃ i, Safe vm first s m i) := by
  have clear : isMethodHooked (first.methods m) = false := by
    simpa [isMethodHooked] using unhooked m
  have pristine : Pristine first s m := hookAll_pristine run (.inl rfl)
  refine ⟨⟨fun hooked => ?_, hookAll_targeted run⟩, fun off => ?_, fun hooked => ?_⟩
  · by_contra never
    have same := hookAll_unchanged run fun c hc target => never ⟨c, hc, target⟩
    rw [same, clear] at hooked
    cases hooked
  · rcases pristine with same | ⟨i, kept⟩
    · exact same
    · rw [kept.replaced, isMethodHooked_replaced] at off
      cases off
  · rcases pristine with same | ⟨i, kept⟩
    · rw [same, clear] at hooked
      cases hooked
    · exact ⟨i, kept.safe clear⟩

end

/-- A VM with one class, its methods and their reflected methods named by their
slots. -/
def oneClass : Vm Int32 Unit Int32 := ⟨fun _ slot => some slot, id⟩

/-- Interpreted methods, of one word each. -/
def interpreted : State Int32 Unit Int32 :=
  ⟨fun m => ⟨1, 4, 2, 1, .code m.toNatClampNeg, .other 0, ()⟩, [], some 0⟩

def hookOf (slot : Int32) : HookCall Unit Int32 := ⟨some slot, some (), slot, none, true⟩

/-- Method 7 is hooked twice, with another one in between. -/
theorem hooked_twice_safe :
    ∃ s i, hookAll oneClass interpreted [hookOf 7, hookOf 3, hookOf 7] = some s ∧
      Safe oneClass interpreted s 7 i := by
  have unhooked : ∀ m, (interpreted.methods m).nativeFunc ≠ .hookedMethodCallback := by
    intro m
    simp [interpreted]
  obtain ⟨s, run⟩ : ∃ s, hookAll oneClass interpreted [hookOf 7, hookOf 3, hookOf 7] = some s :=
    ⟨_, rfl⟩
  have safe := original_never_lost oneClass interpreted s unhooked _ run 7
  obtain ⟨i, hi⟩ := safe.2.2 (safe.1.mpr ⟨hookOf 7, List.mem_cons_self, rfl⟩)
  exact ⟨s, i, run, hi⟩

end Xposed.Dalvik
