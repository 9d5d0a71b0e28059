import Xposed.Dalvik.Arguments

/-!
# Calls of hooked methods

The whole of `hookedMethodCallback` and `XposedBridge_invokeOriginalMethodNative`
between a caller, the handler and the original method: what the caller gets when
the handler does no more than to call the original.
-/

namespace Xposed.Dalvik

/-- The exceptions: of Java code, such a one wrapped by `dvmInvokeMethod`, and
those of the VM. -/
inductive Thrown (E : Type) where
  | exception (e : E)
  | invocationTarget (e : E)
  | outOfMemory
  | nullPointer (message : String)
  | classCast
  deriving DecidableEq

/-- What is stored to `*pResult`. -/
inductive PResult (O : Type) where
  | nothing
  | l (obj : Option O)
  | primitive (value : JValue)
  deriving DecidableEq

/-- How a call ends for the caller. -/
structure Returned (E O : Type) where
  exception : Option (Thrown E)
  pResult : PResult O
  deriving DecidableEq

/-- How a method ends that the interpreter runs: a `void` method returns `none`. -/
inductive Ended (E : Type) where
  | threw (e : E)
  | returned (value : Option Argument)

/-- What the VM does for the callback besides the conversion of arguments.
`signature` are the classes of a method's parameters and result. -/
structure Runtime (R C O E : Type) extends Objects C O where
  dvmGetBoxedReturnType : R → C
  isVoid : C → Bool
  dvmIsPrimitiveClass : C → Bool
  dvmUnboxPrimitive : O → C → Option (PResult O)
  signature : R → List C × C
  dvmInvokeMethod : Option O → Method R → List (Option O) → List C → C →
    Except (Thrown E) (Option O)

section
variable {M C O R E : Type}

/-- "return result with proper type" -/
def returnResult (rt : Runtime R C O E) (returnType : C) (result : Option O) : Returned E O :=
  if rt.isVoid returnType then ⟨none, .nothing⟩
  else
    match result with
    | none =>
      if rt.dvmIsPrimitiveClass returnType then
        ⟨some (.nullPointer "null result when primitive expected"), .l none⟩
      else ⟨none, .l none⟩
    | some obj =>
      match rt.dvmUnboxPrimitive obj returnType with
      | some value => ⟨none, value⟩
      | none => ⟨some .classCast, .nothing⟩

/-- `hookedMethodCallback`, with the handler as it is in Java. -/
def hookedCall (rt : Runtime R C O E) (layout : Layout) (shorty : R → List Char) (s : State M R O)
    (method : M) (args : List UInt32) (allocates : Bool)
    (handler : Handled M O → Option (Except (Thrown E) (Option O))) : Option (Returned E O) := do
  match ← hookedMethodCallbackOn rt.toObjects layout shorty s method args allocates with
  | none => some ⟨some .outOfMemory, .nothing⟩
  | some handled =>
    match ← handler handled with
    | .error e => some ⟨some e, .nothing⟩
    | .ok result =>
      some (returnResult rt (rt.dvmGetBoxedReturnType (s.methods method).rest) result)

/-- The arguments of `invokeOriginalMethodNative`. -/
structure InvokeArgs (M C O : Type) where
  reflected : O
  meth : Option (MethodPtr M)
  params : List C
  returnType : C
  thisObject : Option O
  argList : List (Option O)

/-- `XposedBridge_invokeOriginalMethodNative`. `none`: there is no such method. -/
def invokeOriginal (rt : Runtime R C O E) (vm : Vm M C O) (s : State M R O) (a : InvokeArgs M C O) :
    Option (Except (Thrown E) (Option O)) := do
  let ptr ← invokeOriginalMethodNative vm s a.reflected a.meth
  let meth ← s.deref ptr
  some (rt.dvmInvokeMethod a.thisObject meth a.argList a.params a.returnType)

/-- A handler that only calls the original, with the signature it was hooked
with, and throws what the original throws. -/
def passThrough (rt : Runtime R C O E) (vm : Vm M C O) (s : State M R O) (signature : List C × C)
    (handled : Handled M O) : Option (Except (Thrown E) (Option O)) :=
  (invokeOriginal rt vm s
    ⟨handled.call.originalReflected, some handled.call.original, signature.1, signature.2,
      handled.thisObject, handled.argsArray⟩).map fun
    | .error (.invocationTarget e) => .error (.exception e)
    | ended => ended

/-! ## What is known of the VM -/

/-- A box was made for the argument. -/
def Argument.Boxed (vm : Objects C O) (a : Argument) : Prop :=
  match a with
  | .narrow _ _ | .wide _ _ => a.object vm ≠ none
  | .reference _ => True

/-- The result as the caller expects it. -/
def Argument.pResult (vm : Objects C O) : Argument → PResult O
  | .narrow _ word => .primitive (.i word)
  | .wide _ value => .primitive (.j value)
  | .reference word => .l (vm.object word)

/-- How a call ends for the caller when no hook is in between. -/
def Ended.direct (vm : Objects C O) : Ended E → Returned E O
  | .threw e => ⟨some (.exception e), .nothing⟩
  | .returned none => ⟨none, .nothing⟩
  | .returned (some value) => ⟨none, value.pResult vm⟩

/-- The value is one of the class: unboxing undoes the boxing. -/
def Returnable (rt : Runtime R C O E) (returnType : C) : Option Argument → Prop
  | none => rt.isVoid returnType = true
  | some (.reference word) => rt.isVoid returnType = false ∧
      rt.dvmIsPrimitiveClass returnType = false ∧
      ∀ obj, rt.object word = some obj → rt.dvmUnboxPrimitive obj returnType = some (.l (some obj))
  | some value => rt.isVoid returnType = false ∧ ∃ obj, value.object rt.toObjects = some obj ∧
      rt.dvmUnboxPrimitive obj returnType = some (value.pResult rt.toObjects)

/-- The arguments are those of the method's signature, and boxes can be made for them. -/
structure Callable (rt : Runtime R C O E) (shorty : R → List Char) (method : Method R)
    (receiver : Option UInt32) (arguments : List Argument) : Prop where
  static : dvmIsStaticMethod method = receiver.isNone
  signature : ∃ returnType, shorty method.rest = returnType :: arguments.map Argument.descriptor
  boxed : ∀ a ∈ arguments, a.Boxed rt.toObjects

/-- `dvmInvokeMethod` runs the method on the unboxed arguments, boxes its result
and wraps what it throws; and methods return what their class says. -/
structure Runs (rt : Runtime R C O E) (shorty : R → List Char)
    (execute : Method R → Option UInt32 → List Argument → Ended E) : Prop where
  invoke : ∀ method receiver arguments, Callable rt shorty method receiver arguments →
    rt.dvmInvokeMethod (receiver.bind rt.object) method
        (arguments.map (Argument.object rt.toObjects)) (rt.signature method.rest).1
        (rt.signature method.rest).2 =
      match execute method receiver arguments with
      | .threw e => .error (.invocationTarget e)
      | .returned value => .ok (value.bind (Argument.object rt.toObjects))
  returns : ∀ method receiver arguments value, Callable rt shorty method receiver arguments →
    execute method receiver arguments = .returned value →
    Returnable rt (rt.dvmGetBoxedReturnType method.rest) value

/-- The callback gives the caller the value that the handler got in a box. -/
theorem returnResult_boxed {rt : Runtime R C O E} {returnType : C} {value : Option Argument}
    (h : Returnable rt returnType value) :
    returnResult rt returnType (value.bind (Argument.object rt.toObjects)) =
      (Ended.returned value).direct rt.toObjects := by
  cases value with
  | none =>
    have void : rt.isVoid returnType = true := h
    simp [returnResult, void, Ended.direct]
  | some value =>
    cases value with
    | narrow | wide =>
      obtain ⟨value_, obj, boxed, unboxed⟩ := h
      simp [returnResult, value_, boxed, unboxed, Ended.direct]
    | reference word =>
      obtain ⟨value_, object, same⟩ := h
      cases found : rt.object word with
      | none =>
        simp [returnResult, value_, object, found, Argument.object, Ended.direct, Argument.pResult]
      | some obj =>
        simp [returnResult, value_, found, Argument.object, same obj found, Ended.direct,
          Argument.pResult]

/-- The arguments reach the handler as objects. -/
theorem handler_called (vm : Objects C O) (layout : Layout) (shorty : R → List Char)
    {s : State M R O} {method : M} {call : HandlerCall M O} {original : Method R}
    (hooked : hookedMethodCallback s method = some call)
    (copy : s.deref call.original = some original) {returnType : Char} {receiver : Option UInt32}
    {arguments : List Argument} (static : dvmIsStaticMethod original = receiver.isNone)
    (signature : shorty (s.methods method).rest =
      returnType :: arguments.map Argument.descriptor) :
    ∃ reads,
      hookedMethodCallbackOn vm layout shorty s method (laidOut layout receiver arguments) true =
        some (some ⟨call, receiver.bind vm.object, arguments.map (Argument.object vm), reads⟩) := by
  have start : Upto [] 0 arguments.length
      (⟨0, 0, List.replicate arguments.length none, []⟩ : Conversion O) := ⟨rfl, rfl, rfl, rfl⟩
  obtain ⟨d, this, upto⟩ := start.this vm layout receiver arguments
  have there : (laidOut layout receiver arguments).drop receiver.toList.length =
      arguments.flatMap (Argument.words layout) := List.drop_left
  obtain ⟨e, all, upto⟩ := upto.convertAll vm layout there
  refine ⟨e.reads, ?_⟩
  simp [hookedMethodCallbackOn, hooked, copy, signature, static, this, all, upto.argsArray]

/-! ## Hooks that pass through -/

variable [DecidableEq M]

omit [DecidableEq M] in
/-- A call of a hooked method whose handler passes it on, some time later. -/
theorem passed_through {rt : Runtime R C O E} (layout : Layout) {shorty : R → List Char}
    {execute : Method R → Option UInt32 → List Argument → Ended E} (runs : Runs rt shorty execute)
    (vm : Vm M C O) {first s s' : State M R O} {m : M} {i : Nat} (kept : Kept first s m i)
    (later : s'.deref (.copy i) = some (first.methods m)) {receiver : Option UInt32}
    {arguments : List Argument}
    (callable : Callable rt shorty (first.methods m) receiver arguments) :
    hookedCall rt layout shorty s m (laidOut layout receiver arguments) true
        (passThrough rt vm s' (rt.signature (first.methods m).rest)) =
      some ((execute (first.methods m) receiver arguments).direct rt.toObjects) := by
  have rest : (s.methods m).rest = (first.methods m).rest := by
    rw [kept.replaced]
    rfl
  have hooked : isMethodHooked (s.methods m) = true := by
    rw [kept.replaced, isMethodHooked_replaced]
  have points : (s.methods m).original = some i := by
    rw [kept.replaced]
    rfl
  obtain ⟨info, found, _⟩ := Option.map_eq_some_iff.mp kept.copy
  have callback : hookedMethodCallback s m =
      some ⟨info.reflectedMethod, .copy i, info.additionalInfo⟩ := by
    simp [hookedMethodCallback, hooked, points, found]
  obtain ⟨returnType, signature⟩ := callable.signature
  rw [← rest] at signature
  obtain ⟨reads, handled⟩ :=
    handler_called rt.toObjects layout shorty callback kept.copy callable.static signature
  have invoked := runs.invoke _ receiver arguments callable
  simp only [hookedCall, handled, passThrough, invokeOriginal, invokeOriginalMethodNative, later,
    invoked, Option.bind_eq_bind, Option.bind_some, Option.map_some, rest]
  cases ended : execute (first.methods m) receiver arguments with
  | threw e => rfl
  | returned value =>
    have returnable := runs.returns _ receiver arguments value callable ended
    exact congrArg some (returnResult_boxed returnable)

/-- A request to hook a method, or a call of a method. `during` are the methods
that are hooked during the call, before the original runs. -/
inductive JavaEvent (M C O : Type) where
  | hook (c : HookCall C O)
  | call (m : M) (receiver : Option UInt32) (arguments : List Argument)
    (during : List (HookCall C O))

/-- The VM with hooks that pass through. A method that is not hooked runs as it is. -/
def perform (rt : Runtime R C O E) (layout : Layout) (shorty : R → List Char)
    (execute : Method R → Option UInt32 → List Argument → Ended E) (vm : Vm M C O)
    (s : State M R O) : JavaEvent M C O → Option (Option (Returned E O) × State M R O)
  | .hook c => (hookMethodNative vm s c).map fun (_, s) => (none, s)
  | .call m receiver arguments during => do
    let s' ← hookAll vm s during
    if isMethodHooked (s.methods m) then
      let returned ← hookedCall rt layout shorty s m (laidOut layout receiver arguments) true
        (passThrough rt vm s' (rt.signature (s.methods m).rest))
      some (some returned, s')
    else some (some ((execute (s.methods m) receiver arguments).direct rt.toObjects), s')

/-- What the calls return, in order. -/
def performAll (rt : Runtime R C O E) (layout : Layout) (shorty : R → List Char)
    (execute : Method R → Option UInt32 → List Argument → Ended E) (vm : Vm M C O)
    (s : State M R O) : List (JavaEvent M C O) → Option (List (Returned E O))
  | [] => some []
  | e :: events => do
    let (returned, s) ← perform rt layout shorty execute vm s e
    let rest ← performAll rt layout shorty execute vm s events
    some (returned.toList ++ rest)

/-- What a call returns in a VM without hooks. -/
def JavaEvent.unhooked (rt : Runtime R C O E)
    (execute : Method R → Option UInt32 → List Argument → Ended E) (first : State M R O) :
    JavaEvent M C O → Option (Returned E O)
  | .hook _ => none
  | .call m receiver arguments _ =>
    some ((execute (first.methods m) receiver arguments).direct rt.toObjects)

/-- `calloc` gives memory for the hooks, and methods are called by their signatures. -/
def JavaEvent.Sound (rt : Runtime R C O E) (shorty : R → List Char) (first : State M R O) :
    JavaEvent M C O → Prop
  | .hook c => c.calloc = true
  | .call m receiver arguments during =>
    (∀ c ∈ during, c.calloc = true) ∧ Callable rt shorty (first.methods m) receiver arguments

theorem hookMethodNative_some (vm : Vm M C O) (s : State M R O) {c : HookCall C O}
    (calloc : c.calloc = true) : ∃ e s', hookMethodNative vm s c = some (e, s') := by
  unfold hookMethodNative
  split
  · split
    · exact ⟨_, _, rfl⟩
    · rw [calloc]
      split
      · exact ⟨_, _, rfl⟩
      · exact ⟨_, _, rfl⟩
  · exact ⟨_, _, rfl⟩

theorem hookAll_some (vm : Vm M C O) (s : State M R O) {cs : List (HookCall C O)}
    (calloc : ∀ c ∈ cs, c.calloc = true) : ∃ s', hookAll vm s cs = some s' := by
  induction cs generalizing s with
  | nil => exact ⟨s, rfl⟩
  | cons c cs ih =>
    obtain ⟨first, rest⟩ := List.forall_mem_cons.mp calloc
    obtain ⟨e, t, hooks⟩ := hookMethodNative_some vm s first
    obtain ⟨s', later⟩ := ih t rest
    exact ⟨s', by rw [hookAll, hooks]; exact later⟩

/-- One event: the caller notices nothing of the hooks. -/
theorem perform_unhooked {rt : Runtime R C O E} (layout : Layout) {shorty : R → List Char}
    {execute : Method R → Option UInt32 → List Argument → Ended E} (runs : Runs rt shorty execute)
    (vm : Vm M C O) {first s : State M R O}
    (unhooked : ∀ m, (first.methods m).nativeFunc ≠ .hookedMethodCallback)
    (pristine : ∀ m, Pristine first s m) {e : JavaEvent M C O} (sound : e.Sound rt shorty first) :
    ∃ s', perform rt layout shorty execute vm s e = some (e.unhooked rt execute first, s') ∧
      ∀ m, Pristine first s' m := by
  cases e with
  | hook c =>
    obtain ⟨e, s', hooks⟩ := hookMethodNative_some vm s sound
    refine ⟨s', by rw [perform, hooks]; rfl, fun m => ?_⟩
    exact (hookMethodNative_step hooks).pristine (pristine m)
  | call m receiver arguments during =>
    obtain ⟨calloc, callable⟩ := sound
    obtain ⟨s', later⟩ := hookAll_some vm s calloc
    refine ⟨s', ?_, fun m => hookAll_pristine later (pristine m)⟩
    have clear : isMethodHooked (first.methods m) = false := by
      simpa [isMethodHooked] using unhooked m
    rcases pristine m with same | ⟨i, kept⟩
    · simp [perform, later, same, clear, JavaEvent.unhooked]
    · have hooked : isMethodHooked (s.methods m) = true := by
        rw [kept.replaced, isMethodHooked_replaced]
      have rest : (s.methods m).rest = (first.methods m).rest := by
        rw [kept.replaced]
        rfl
      have passed := passed_through layout runs vm kept
        (hookAll_kept later kept).copy callable
      simp [perform, later, hooked, rest, passed, JavaEvent.unhooked]

/-- **Hooks that pass through are transparent.** Whatever methods are hooked in a
run, before calls or while they are under way, each call returns the result or
throws the exception that it would without any hook. -/
theorem hooks_transparent (rt : Runtime R C O E) (layout : Layout) (shorty : R → List Char)
    (execute : Method R → Option UInt32 → List Argument → Ended E) (runs : Runs rt shorty execute)
    (vm : Vm M C O) (first : State M R O)
    (unhooked : ∀ m, (first.methods m).nativeFunc ≠ .hookedMethodCallback)
    (events : List (JavaEvent M C O)) (sound : ∀ e ∈ events, e.Sound rt shorty first) :
    performAll rt layout shorty execute vm first events =
      some (events.filterMap (JavaEvent.unhooked rt execute first)) := by
  have all : ∀ s : State M R O, (∀ m, Pristine first s m) →
      performAll rt layout shorty execute vm s events =
        some (events.filterMap (JavaEvent.unhooked rt execute first)) := by
    induction events with
    | nil => exact fun _ _ => rfl
    | cons e events ih =>
      intro s pristine
      obtain ⟨here, later⟩ := List.forall_mem_cons.mp sound
      obtain ⟨s', performs, pristine⟩ :=
        perform_unhooked layout runs vm unhooked pristine here
      have rest := ih later s' pristine
      rw [performAll, performs]
      simp only [Option.bind_eq_bind, Option.bind_some, rest]
      cases ended : e.unhooked rt execute first with
      | none => rw [List.filterMap_cons_none ended]; rfl
      | some returned => rw [List.filterMap_cons_some ended]; rfl
  exact all first fun _ => .inl rfl

end

/-- Classes are the characters of their descriptors, and `addresses` the objects. -/
def boxing : Runtime Unit Char UInt64 Unit where
  toObjects := addresses
  dvmGetBoxedReturnType _ := 'J'
  isVoid c := c == 'V'
  dvmIsPrimitiveClass c := c != 'L' && c != 'V'
  dvmUnboxPrimitive obj c :=
    if c = 'J' then some (.primitive (.j obj)) else if c = 'L' then some (.l (some obj)) else none
  signature _ := (['I', 'J'], 'J')
  dvmInvokeMethod
    | _, _, [some word, some value], _, _ =>
      if value = 0 then .error (.invocationTarget ()) else .ok (some (word + value))
    | _, _, _, _, _ => .error .outOfMemory

/-- The methods add an `int` to a `long`, and throw if that is zero. -/
def addition : Method Unit → Option UInt32 → List Argument → Ended Unit
  | _, _, [.narrow .I word, .wide .J value] =>
    if value = 0 then .threw () else .returned (some (.wide .J (word.toUInt64 + value)))
  | _, _, _ => .threw ()

theorem intLong_arguments {arguments : List Argument} {returnType : Char}
    (h : ['J', 'I', 'J'] = returnType :: arguments.map Argument.descriptor) :
    ∃ word value, arguments = [.narrow .I word, .wide .J value] := by
  obtain ⟨_, rest⟩ := List.cons.inj h
  obtain ⟨a, rest', rfl, first, last⟩ := List.map_eq_cons_iff.mp rest.symm
  obtain ⟨b, rest'', rfl, second, nothing⟩ := List.map_eq_cons_iff.mp last
  obtain rfl := List.map_eq_nil_iff.mp nothing
  rcases a with ⟨type, word⟩ | ⟨type, value⟩ | word
  · cases type <;> simp [Argument.descriptor, Narrow.descriptor] at first
    rcases b with ⟨type, word'⟩ | ⟨type, value⟩ | word'
    · cases type <;> simp [Argument.descriptor, Narrow.descriptor] at second
    · cases type <;> simp [Argument.descriptor, Wide.descriptor] at second
      exact ⟨word, value, rfl⟩
    · simp [Argument.descriptor] at second
  · cases type <;> simp [Argument.descriptor, Wide.descriptor] at first
  · simp [Argument.descriptor] at first

theorem addition_runs : Runs boxing (fun _ => ['J', 'I', 'J']) addition where
  invoke method receiver arguments callable := by
    obtain ⟨returnType, signature⟩ := callable.signature
    obtain ⟨word, value, rfl⟩ := intLong_arguments signature
    by_cases zero : value = 0
    · subst zero
      rfl
    · simp [boxing, addition, addresses, Argument.object, zero]
  returns method receiver arguments value callable ended := by
    obtain ⟨returnType, signature⟩ := callable.signature
    obtain ⟨word, long, rfl⟩ := intLong_arguments signature
    simp only [addition] at ended
    split at ended
    · cases ended
    · cases ended
      exact ⟨rfl, _, rfl, rfl⟩

/-- Instance methods of one class, named by their slots. -/
def unhookedOnce : State Int32 Unit UInt64 := ⟨interpreted.methods, [], some 0⟩

def hookAdded (slot : Int32) : HookCall Char UInt64 := ⟨some 1000, some 'L', slot, none, true⟩

/-- Method 7 is called before it is hooked, then with two more hooks on their way
while it runs, and last with a zero. -/
def mixedRun : List (JavaEvent Int32 Char UInt64) :=
  [.call 7 (some 100) [.narrow .I 5, .wide .J 7] [], .hook (hookAdded 7),
    .call 7 (some 100) [.narrow .I 5, .wide .J 7] [hookAdded 3, hookAdded 7],
    .call 7 (some 100) [.narrow .I 5, .wide .J 0] []]

theorem mixed_run_unnoticed :
    performAll boxing littleEndian (fun _ => ['J', 'I', 'J']) addition
        ⟨fun _ slot => some slot, fun _ => 7⟩ unhookedOnce mixedRun =
      some [⟨none, .primitive (.j 12)⟩, ⟨none, .primitive (.j 12)⟩,
        ⟨some (.exception ()), .nothing⟩] := by
  have unhooked : ∀ m, (unhookedOnce.methods m).nativeFunc ≠ .hookedMethodCallback := by
    simp [unhookedOnce, interpreted]
  have callable (value : UInt64) : Callable boxing (fun _ => ['J', 'I', 'J'])
      (unhookedOnce.methods 7) (some 100) [.narrow .I 5, .wide .J value] :=
    { static := rfl
      signature := ⟨'J', rfl⟩
      boxed := by simp [Argument.Boxed, Argument.object, boxing, addresses] }
  have sound : ∀ e ∈ mixedRun, e.Sound boxing (fun _ => ['J', 'I', 'J']) unhookedOnce := by
    simp [mixedRun, JavaEvent.Sound, callable, hookAdded]
  exact hooks_transparent boxing littleEndian (fun _ => ['J', 'I', 'J']) addition addition_runs
    ⟨fun _ slot => some slot, fun _ => 7⟩ unhookedOnce unhooked mixedRun sound

end Xposed.Dalvik
