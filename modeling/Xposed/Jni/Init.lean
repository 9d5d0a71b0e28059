import Xposed.Jni.Environment

/-!
# What the library does when the VM has been created

`onVmCreatedCommon` looks up classes and methods, and registers the native
methods. What fails is cleared and shows up in `hadInitErrors` only.
-/

namespace Xposed.Jni

def CLASS_XPOSED_BRIDGE : String := "de/robv/android/xposed/XposedBridge"
def CLASS_XRESOURCES : String := "android/content/res/XResources"
def CLASS_MIUI_RESOURCES : String := "android/content/res/MiuiResources"
def CLASS_ZYGOTE_SERVICE : String := "de/robv/android/xposed/services/ZygoteService"
def CLASS_FILE_RESULT : String := "de/robv/android/xposed/services/FileResult"

/-- The library is built for one of the runtimes. -/
inductive Runtime where
  | dalvik
  | art
  deriving DecidableEq

/-- The static variables of the library. -/
structure Globals (R : Type) where
  xposedLoadedSuccessfully : Bool
  classXposedBridge : Option R
  classXResources : Option R
  classFileResult : Option R
  methodXposedBridgeHandleHookedMethod : Option R
  methodXResourcesTranslateResId : Option R
  methodXResourcesTranslateAttrId : Option R
  constructorFileResult : Option R
  objectArrayClass : Option R
  arrayContentsOffset : UInt32
  PTR_gDvmJit : Bool
  offset_DvmJitGlobals_codeCacheFull : Int32
  xposed_callback_class : Option R
  xposed_callback_method : Option R

/-- As the program loader leaves them. -/
def Globals.zero {R : Type} : Globals R :=
  ⟨false, none, none, none, none, none, none, none, none, 0, false, 0, none, none⟩

def register_natives_XposedBridge (PLATFORM_SDK_VERSION : Nat) : List NativeMethod :=
  [⟨"hadInitErrors", "()Z"⟩,
    ⟨"getStartClassName", "()Ljava/lang/String;"⟩,
    ⟨"getRuntime", "()I"⟩,
    ⟨"startsSystemServer", "()Z"⟩,
    ⟨"getXposedVersion", "()I"⟩,
    ⟨"initXResourcesNative", "()Z"⟩,
    ⟨"hookMethodNative", "(Ljava/lang/reflect/Member;Ljava/lang/Class;ILjava/lang/Object;)V"⟩,
    ⟨"setObjectClassNative", "(Ljava/lang/Object;Ljava/lang/Class;)V"⟩,
    ⟨"dumpObjectNative", "(Ljava/lang/Object;)V"⟩,
    ⟨"cloneToSubclassNative", "(Ljava/lang/Object;Ljava/lang/Class;)Ljava/lang/Object;"⟩,
    ⟨"removeFinalFlagNative", "(Ljava/lang/Class;)V"⟩] ++
  (if 21 ≤ PLATFORM_SDK_VERSION then
    [⟨"invokeOriginalMethodNative",
        "!(Ljava/lang/reflect/Member;I[Ljava/lang/Class;Ljava/lang/Class;Ljava/lang/Object;" ++
          "[Ljava/lang/Object;)Ljava/lang/Object;"⟩,
      ⟨"closeFilesBeforeForkNative", "()V"⟩,
      ⟨"reopenFilesAfterForkNative", "()V"⟩]
  else []) ++
  (if 24 ≤ PLATFORM_SDK_VERSION then
    [⟨"invalidateCallersNative", "([Ljava/lang/reflect/Member;)V"⟩]
  else [])

def register_natives_XResources : List NativeMethod :=
  [⟨"rewriteXmlReferencesNative",
    "(JLandroid/content/res/XResources;Landroid/content/res/Resources;)V"⟩]

def register_natives_ZygoteService : List NativeMethod :=
  [⟨"checkFileAccess", "(Ljava/lang/String;I)Z"⟩,
    ⟨"statFile", "(Ljava/lang/String;)L" ++ CLASS_FILE_RESULT ++ ";"⟩,
    ⟨"readFile", "(Ljava/lang/String;)[B"⟩]

section
variable {R : Type}

/-- `logExceptionStackTrace(); env->ExceptionClear(); return false;` -/
def failed (g : Globals R) : Code R (Bool × Globals R) := do
  logExceptionStackTrace
  exceptionClear
  return (false, g)

/-- The same without a stack trace in the log. -/
def unlogged (g : Globals R) : Code R (Bool × Globals R) := do
  exceptionClear
  return (false, g)

def initXposedBridge (PLATFORM_SDK_VERSION : Nat) (g : Globals R) : Code R (Bool × Globals R) := do
  match ← findClass CLASS_XPOSED_BRIDGE with
  | none => failed { g with classXposedBridge := none }
  | some local_ =>
    let clazz ← newGlobalRef local_
    let g := { g with classXposedBridge := some clazz }
    if (← registerNatives clazz (register_natives_XposedBridge PLATFORM_SDK_VERSION)) ≠ JNI_OK then
      failed g
    else
      let method ← getStaticMethodID (some clazz) "handleHookedMethod"
        ("(Ljava/lang/reflect/Member;ILjava/lang/Object;Ljava/lang/Object;" ++
          "[Ljava/lang/Object;)Ljava/lang/Object;")
      let g := { g with methodXposedBridgeHandleHookedMethod := method }
      match method with
      | none => failed g
      | some _ => return (true, g)

def initZygoteService (g : Globals R) : Code R (Bool × Globals R) := do
  match ← findClass CLASS_ZYGOTE_SERVICE with
  | none => failed g
  | some zygoteServiceClass =>
    if (← registerNatives zygoteServiceClass register_natives_ZygoteService) ≠ JNI_OK then
      unlogged g
    else
      match ← findClass CLASS_FILE_RESULT with
      | none => failed { g with classFileResult := none }
      | some local_ =>
        let clazz ← newGlobalRef local_
        let constructor ← getMethodID (some clazz) "<init>" "(JJ)V"
        let g := { g with classFileResult := some clazz, constructorFileResult := constructor }
        match constructor with
        | none => failed g
        | some _ => return (true, g)

/-- Later, when resources are to be hooked. -/
def initXResourcesNative (g : Globals R) : Code R (Bool × Globals R) := do
  match ← findClass CLASS_XRESOURCES with
  | none => failed { g with classXResources := none }
  | some local_ =>
    let clazz ← newGlobalRef local_
    let g := { g with classXResources := some clazz }
    if (← registerNatives clazz register_natives_XResources) ≠ JNI_OK then unlogged g
    else
      match ← getStaticMethodID (some clazz) "translateResId"
          "(ILandroid/content/res/XResources;Landroid/content/res/Resources;)I" with
      | none => failed { g with methodXResourcesTranslateResId := none }
      | some resId =>
        let g := { g with methodXResourcesTranslateResId := some resId }
        match ← getStaticMethodID (some clazz) "translateAttrId"
            "(Ljava/lang/String;Landroid/content/res/XResources;)I" with
        | none => failed { g with methodXResourcesTranslateAttrId := none }
        | some attrId => return (true, { g with methodXResourcesTranslateAttrId := some attrId })

/-! ## The Dalvik library -/

def XPOSED_OVERRIDE_JIT_RESET_OFFSET : String :=
  "/data/data/de.robv.android.xposed.installer/conf/jit_reset_offset"

/-- "Read an integer value from a configuration file." -/
def readIntConfig (fileName : String) (defaultValue : Int32) : Code R Int32 := do
  if ← fopen fileName then
    let (success, result) ← fscanf
    fclose
    return if 1 ≤ success then result else defaultValue
  else return defaultValue

/-- `MEMBER_OFFSET_ARRAY(DvmJitGlobals, codeCacheFull)` -/
def codeCacheFullOffset (withJit : Bool) : Int32 := if withJit then 120 else 0

def initMemberOffsets (g : Globals R) : Code R (Bool × Globals R) := do
  let jit ← dlsym "gDvmJit"
  let override ← readIntConfig XPOSED_OVERRIDE_JIT_RESET_OFFSET (-1)
  let g := { g with
    PTR_gDvmJit := jit
    offset_DvmJitGlobals_codeCacheFull :=
      if 0 < override ∧ override < 0x400 then override else codeCacheFullOffset jit }
  match ← newIntArray 1 with
  | none => failed g
  | some dummyArray =>
    let dummyArrayElements ← getIntArrayElements dummyArray
    let object ← dvmDecodeIndirectRef dummyArray
    let g := { g with arrayContentsOffset := dummyArrayElements - object }
    releaseIntArrayElements dummyArray
    deleteLocalRef dummyArray
    return (decide (12 ≤ g.arrayContentsOffset ∧ g.arrayContentsOffset ≤ 128), g)

def ACC_FINAL : UInt32 := 0x10

/-- `XposedBridge_removeFinalFlagNative`, and the lines for the classes of MIUI. -/
def removeFinalFlag (clazz : R) : Code R Unit := do
  let flags ← accessFlags clazz
  if flags &&& ACC_FINAL ≠ 0 then setAccessFlags clazz (flags &&& ~~~ACC_FINAL)

/-- The classes of MIUI, where there are any, get subclasses. -/
def prepareMiuiResources : Code R Unit := do
  match ← findClass CLASS_MIUI_RESOURCES with
  | some classMiuiResources =>
    removeFinalFlag classMiuiResources
    exceptionClear
  | none => exceptionClear

/-- `onVmCreated` of the Dalvik library -/
def onVmCreatedDalvik (g : Globals R) : Code R (Bool × Globals R) := do
  let (offsets, g) ← initMemberOffsets g
  if !offsets then return (false, g)
  else
    prepareMiuiResources
    match ← getStaticMethodID g.classXposedBridge "invokeOriginalMethodNative"
        ("(Ljava/lang/reflect/Member;I[Ljava/lang/Class;Ljava/lang/Class;Ljava/lang/Object;" ++
          "[Ljava/lang/Object;)Ljava/lang/Object;") with
    | none => failed g
    | some xposedInvokeOriginalMethodNative =>
      dvmSetNativeFunc xposedInvokeOriginalMethodNative
      let objectArrayClass ← dvmFindArrayClass "[Ljava/lang/Object;"
      let g := { g with objectArrayClass := objectArrayClass }
      match objectArrayClass with
      | none => failed g
      | some _ => return (true, g)

/-- `onVmCreated` of the ART library -/
def onVmCreatedArt (g : Globals R) : Code R (Bool × Globals R) :=
  return (true, { g with
    xposed_callback_class := g.classXposedBridge
    xposed_callback_method := g.methodXposedBridgeHandleHookedMethod })

def onVmCreated (runtime : Runtime) (g : Globals R) : Code R (Bool × Globals R) :=
  match runtime with
  | .dalvik => onVmCreatedDalvik g
  | .art => onVmCreatedArt g

def onVmCreatedCommon (runtime : Runtime) (PLATFORM_SDK_VERSION : Nat) (g : Globals R) :
    Code R (Globals R) := do
  let (bridge, g) ← initXposedBridge PLATFORM_SDK_VERSION g
  if !bridge then return g
  else
    let (service, g) ← initZygoteService g
    if !service then return g
    else
      let (created, g) ← onVmCreated runtime g
      if !created then return g
      else return { g with xposedLoadedSuccessfully := true }

def hadInitErrors (g : Globals R) : Bool := !g.xposedLoadedSuccessfully

/-! ## Every failure is reported -/

/-- The classes of MIUI need not be there. -/
def Lookup.Optional : Lookup R → Prop
  | .findClass name => name = CLASS_MIUI_RESOURCES
  | _ => False

/-- A call that found nothing, or registered not all. -/
def Failed : Calls.Event (Call R) Answer → Prop
  | ⟨.lookup l, (found : Option R)⟩ => found.isNone = true ∧ ¬ l.Optional
  | ⟨.registerNatives _ _, (result : Int32)⟩ => result ≠ JNI_OK
  | _ => False

def Faultless (events : Events R) : Prop := ∀ e ∈ events, ¬ Failed e

@[simp] theorem faultless_nil : Faultless ([] : Events R) := nofun

@[simp] theorem faultless_cons (e : Calls.Event (Call R) Answer) (events : Events R) :
    Faultless (e :: events) ↔ ¬ Failed e ∧ Faultless events := List.forall_mem_cons

@[simp] theorem faultless_append (events later : Events R) :
    Faultless (events ++ later) ↔ Faultless events ∧ Faultless later := List.forall_mem_append

/-- The VM is clear again, and `false` stands for what failed or is not sound. -/
structure Honest (g : Globals R) (sound : Prop) (events : Events R) (r : Bool × Globals R)
    (vm : Vm R) : Prop where
  clear : vm.Clear
  reported : r.1 = true ↔ Faultless events ∧ sound
  loaded : r.2.xposedLoadedSuccessfully = g.xposedLoadedSuccessfully

/-- The contents of an array lie where they can. -/
def Globals.ContentsFound (g : Globals R) : Prop :=
  12 ≤ g.arrayContentsOffset ∧ g.arrayContentsOffset ≤ 128

variable [DecidableEq R] {outside : Outside R} {vm : Vm R}

theorem failed_rule {Q : Events R → Bool × Globals R → Vm R → Prop} {e : JavaException}
    {g : Globals R} (held : vm.critical = none)
    (ends : Q [⟨.logExceptionStackTrace, ()⟩, ⟨.exceptionClear, ()⟩] (false, g)
      { vm with pending := none }) :
    (failed g).wp (environment outside) Q (vm.threw e) := by
  refine ⟨⟨nofun, held⟩, fun _ _ first => ?_⟩
  cases first
  refine ⟨held, fun _ _ second => ?_⟩
  cases second
  exact ends

theorem unlogged_rule {Q : Events R → Bool × Globals R → Vm R → Prop} {e : JavaException}
    {g : Globals R} (held : vm.critical = none)
    (ends : Q [⟨.exceptionClear, ()⟩] (false, g) { vm with pending := none }) :
    (unlogged g).wp (environment outside) Q (vm.threw e) := by
  refine ⟨held, fun _ _ cleared => ?_⟩
  cases cleared
  exact ends

theorem initXposedBridge_wp (sdk : Nat) (g : Globals R) (clear : vm.Clear) :
    (initXposedBridge sdk g).wp (environment outside) (fun events r vm' =>
      Honest g True events r vm' ∧ (r.1 = true → ∃ bridge handle,
        r.2 = { g with
          classXposedBridge := some bridge
          methodXposedBridgeHandleHookedMethod := some handle } ∧
        vm' = vm.register bridge (register_natives_XposedBridge sdk))) vm := by
  apply lookup_rule clear (by trivial)
  · intro local_
    apply newGlobalRef_rule clear
    intro bridge
    apply registerNatives_rule clear
    · apply lookup_rule clear.register (by nofun)
      · intro handle
        refine ⟨⟨clear.register, ?_, rfl⟩, fun _ => ⟨bridge, handle, rfl, rfl⟩⟩
        simp [Failed]
      · intro e
        apply failed_rule clear.register.2
        refine ⟨⟨⟨rfl, clear.2⟩, ?_, rfl⟩, nofun⟩
        simp [Failed, Lookup.Optional]
    · intro result e registered error
      apply failed_rule clear.register.2
      refine ⟨⟨⟨rfl, clear.2⟩, ?_, rfl⟩, nofun⟩
      simp [Failed, error]
  · intro e
    apply failed_rule clear.2
    refine ⟨⟨⟨rfl, clear.2⟩, ?_, rfl⟩, nofun⟩
    simp [Failed, Lookup.Optional, CLASS_XPOSED_BRIDGE, CLASS_MIUI_RESOURCES]

theorem initZygoteService_wp (g : Globals R) (clear : vm.Clear) :
    (initZygoteService g).wp (environment outside) (fun events r vm' =>
      Honest g True events r vm' ∧ (r.1 = true → ∃ service fileResult constructor,
        r.2 = { g with
          classFileResult := some fileResult
          constructorFileResult := some constructor } ∧
        vm' = vm.register service register_natives_ZygoteService)) vm := by
  apply lookup_rule clear (by trivial)
  · intro service
    apply registerNatives_rule clear
    · apply lookup_rule clear.register (by trivial)
      · intro local_
        apply newGlobalRef_rule clear.register
        intro fileResult
        apply lookup_rule clear.register (by nofun)
        · intro constructor
          refine ⟨⟨clear.register, ?_, rfl⟩, fun _ => ⟨service, fileResult, constructor, rfl, rfl⟩⟩
          simp [Failed]
        · intro e
          apply failed_rule clear.register.2
          refine ⟨⟨⟨rfl, clear.2⟩, ?_, rfl⟩, nofun⟩
          simp [Failed, Lookup.Optional]
      · intro e
        apply failed_rule clear.register.2
        refine ⟨⟨⟨rfl, clear.2⟩, ?_, rfl⟩, nofun⟩
        simp [Failed, Lookup.Optional, CLASS_FILE_RESULT, CLASS_MIUI_RESOURCES]
    · intro result e registered error
      apply unlogged_rule clear.register.2
      refine ⟨⟨⟨rfl, clear.2⟩, ?_, rfl⟩, nofun⟩
      simp [Failed, error]
  · intro e
    apply failed_rule clear.2
    refine ⟨⟨⟨rfl, clear.2⟩, ?_, rfl⟩, nofun⟩
    simp [Failed, Lookup.Optional, CLASS_ZYGOTE_SERVICE, CLASS_MIUI_RESOURCES]

/-- How `initXResourcesNative` ends. After `true`, `rewriteXmlReferencesNative`
has its class and methods. -/
structure ResourcesInit (g : Globals R) (vm : Vm R) (events : Events R) (r : Bool × Globals R)
    (vm' : Vm R) : Prop where
  honest : Honest g True events r vm'
  others : ∃ clazz resId attrId, r.2 = { g with
    classXResources := clazz
    methodXResourcesTranslateResId := resId
    methodXResourcesTranslateAttrId := attrId }
  natives : ∀ clazz, ∀ m ∈ vm.natives clazz, m ∈ vm'.natives clazz
  ready : r.1 = true → r.2.classXResources ≠ none ∧
    r.2.methodXResourcesTranslateResId ≠ none ∧ r.2.methodXResourcesTranslateAttrId ≠ none

theorem initXResourcesNative_wp (g : Globals R) (clear : vm.Clear) :
    (initXResourcesNative g).wp (environment outside) (ResourcesInit g vm) vm := by
  apply lookup_rule clear (by trivial)
  · intro local_
    apply newGlobalRef_rule clear
    intro clazz
    apply registerNatives_rule clear
    · apply lookup_rule clear.register (by nofun)
      · intro resId
        apply lookup_rule clear.register (by nofun)
        · intro attrId
          refine ⟨⟨clear.register, ?_, rfl⟩, ⟨_, _, _, rfl⟩, fun _ _ => Vm.mem_register, ?_⟩
          · simp [Failed]
          · exact fun _ => ⟨nofun, nofun, nofun⟩
        · intro e
          apply failed_rule clear.register.2
          refine ⟨⟨⟨rfl, clear.2⟩, ?_, rfl⟩, ⟨_, _, _, rfl⟩, fun _ _ => Vm.mem_register, nofun⟩
          simp [Failed, Lookup.Optional]
      · intro e
        apply failed_rule clear.register.2
        refine ⟨⟨⟨rfl, clear.2⟩, ?_, rfl⟩, ⟨_, _, _, rfl⟩, fun _ _ => Vm.mem_register, nofun⟩
        simp [Failed, Lookup.Optional]
    · intro result e registered error
      apply unlogged_rule clear.register.2
      refine ⟨⟨⟨rfl, clear.2⟩, ?_, rfl⟩, ⟨_, _, _, rfl⟩, fun _ _ => Vm.mem_register, nofun⟩
      simp [Failed, error]
  · intro e
    apply failed_rule clear.2
    refine ⟨⟨⟨rfl, clear.2⟩, ?_, rfl⟩, ⟨_, _, _, rfl⟩, fun _ _ known => known, nofun⟩
    simp [Failed, Lookup.Optional, CLASS_XRESOURCES, CLASS_MIUI_RESOURCES]

theorem readIntConfig_wp (fileName : String) (defaultValue : Int32) :
    (readIntConfig fileName defaultValue).wp (environment outside) (fun events _ vm' =>
      vm' = vm ∧ Faultless events) vm := by
  refine ⟨trivial, fun (opened : Bool) vm' answers => ?_⟩
  cases answers
  cases opened with
  | false => exact ⟨rfl, by simp [Failed]⟩
  | true =>
    refine ⟨trivial, fun scanned vm' answers => ?_⟩
    cases answers
    refine ⟨trivial, fun _ vm' answers => ?_⟩
    cases answers
    exact ⟨rfl, by simp [Failed]⟩

theorem initMemberOffsets_wp (g : Globals R) (clear : vm.Clear) :
    (initMemberOffsets g).wp (environment outside) (fun events r vm' =>
      Honest g r.2.ContentsFound events r vm' ∧ (r.1 = true → vm' = vm) ∧ ∃ jit offset contents,
        r.2 = { g with
          PTR_gDvmJit := jit
          offset_DvmJitGlobals_codeCacheFull := offset
          arrayContentsOffset := contents }) vm := by
  refine ⟨trivial, fun (jit : Bool) vm' answers => ?_⟩
  cases answers
  apply Calls.Prog.wp_chain (readIntConfig_wp _ _)
  rintro read override _ ⟨rfl, fine⟩
  apply lookup_rule clear (by trivial)
  · intro dummyArray
    refine ⟨clear, fun (elements : UInt32) vm' answers => ?_⟩
    cases answers
    refine ⟨clear, fun (object : UInt32) vm' answers => ?_⟩
    cases answers
    refine ⟨clear.2, fun _ vm' answers => ?_⟩
    cases answers
    refine ⟨clear.2, fun _ vm' answers => ?_⟩
    cases answers
    refine ⟨⟨clear, ?_, rfl⟩, fun _ => rfl, _, _, _, rfl⟩
    simp [Failed, Globals.ContentsFound, fine]
  · intro e
    apply failed_rule clear.2
    refine ⟨⟨⟨rfl, clear.2⟩, ?_, rfl⟩, nofun, _, _, _, rfl⟩
    simp [Failed, Lookup.Optional]

theorem removeFinalFlag_wp (clazz : R) (clear : vm.Clear) :
    (removeFinalFlag clazz).wp (environment outside) (fun events _ vm' =>
      Faultless events ∧ ∃ flags, vm' = { vm with flags := flags }) vm := by
  refine ⟨clear, ?_⟩
  rintro (flags : UInt32) _ ⟨_, rfl⟩
  dsimp only [Calls.Prog.bind]
  split
  · refine ⟨clear, fun _ vm' answers => ?_⟩
    cases answers
    exact ⟨by simp [Failed], _, rfl⟩
  · exact ⟨by simp [Failed], _, rfl⟩

theorem prepareMiuiResources_wp (clear : vm.Clear) :
    (prepareMiuiResources : Code R Unit).wp (environment outside) (fun events _ vm' =>
      Faultless events ∧ ∃ flags, vm' = { vm with flags := flags }) vm := by
  have optional : Lookup.Optional (R := R) (.findClass CLASS_MIUI_RESOURCES) := rfl
  obtain ⟨pending, held⟩ := clear
  apply lookup_rule ⟨pending, held⟩ (by trivial)
  · intro miui
    apply Calls.Prog.wp_chain (removeFinalFlag_wp miui ⟨pending, held⟩)
    rintro events _ _ ⟨fine, flags, rfl⟩
    refine ⟨held, fun _ vm' answers => ?_⟩
    cases answers
    exact ⟨by simp [Failed, fine], flags, by rw [← pending]⟩
  · intro e
    refine ⟨held, fun _ vm' answers => ?_⟩
    cases answers
    exact ⟨by simp [Failed, optional], vm.flags, by rw [← pending]; rfl⟩

theorem onVmCreatedDalvik_wp (g : Globals R) (clear : vm.Clear) (bridge : g.classXposedBridge ≠ none) :
    (onVmCreatedDalvik g).wp (environment outside) (fun events r vm' =>
      Honest g r.2.ContentsFound events r vm' ∧ (r.1 = true → vm'.natives = vm.natives ∧
        ∃ jit offset contents arrays, r.2 = { g with
          PTR_gDvmJit := jit
          offset_DvmJitGlobals_codeCacheFull := offset
          arrayContentsOffset := contents
          objectArrayClass := some arrays })) vm := by
  apply Calls.Prog.wp_chain (initMemberOffsets_wp g clear)
  rintro events ⟨ok, _⟩ vm ⟨honest, kept, jit, offset, contents, rfl⟩
  cases ok with
  | false =>
    refine ⟨⟨honest.clear, ?_, rfl⟩, nofun⟩
    simpa using honest.reported
  | true =>
    obtain rfl := kept rfl
    obtain ⟨before, found⟩ := honest.reported.mp rfl
    apply Calls.Prog.wp_chain (prepareMiuiResources_wp clear)
    rintro miui _ _ ⟨fine, flags, rfl⟩
    have still : Vm.Clear { vm with flags := flags } := clear
    apply lookup_rule still (by exact bridge)
    · intro invoke
      refine ⟨still, fun _ vm' answers => ?_⟩
      cases answers
      apply lookup_rule still (by trivial)
      · intro arrays
        refine ⟨⟨still, ?_, rfl⟩, fun _ => ⟨rfl, jit, offset, contents, arrays, rfl⟩⟩
        simpa [Failed, before, fine, Globals.ContentsFound] using found
      · intro e
        apply failed_rule still.2
        refine ⟨⟨⟨rfl, clear.2⟩, ?_, rfl⟩, nofun⟩
        simp [Failed, Lookup.Optional]
    · intro e
      apply failed_rule still.2
      refine ⟨⟨⟨rfl, clear.2⟩, ?_, rfl⟩, nofun⟩
      simp [Failed, Lookup.Optional]

/-! ## The whole start -/

/-- What a runtime's part of the library uses is there. -/
def Globals.Callback (runtime : Runtime) (g : Globals R) : Prop :=
  match runtime with
  | .dalvik => g.objectArrayClass ≠ none ∧ g.ContentsFound
  | .art => g.xposed_callback_class = g.classXposedBridge ∧
    g.xposed_callback_method = g.methodXposedBridgeHandleHookedMethod

/-- The library is ready: what the native methods use is there, and they are
known to the VM. -/
structure Ready (runtime : Runtime) (sdk : Nat) (g : Globals R) (vm : Vm R) : Prop where
  bridge : ∃ bridge, g.classXposedBridge = some bridge ∧
    ∀ m ∈ register_natives_XposedBridge sdk, m ∈ vm.natives bridge
  service : ∃ service, ∀ m ∈ register_natives_ZygoteService, m ∈ vm.natives service
  handler : g.methodXposedBridgeHandleHookedMethod ≠ none
  fileResult : g.classFileResult ≠ none ∧ g.constructorFileResult ≠ none
  callback : g.Callback runtime

/-- An array whose contents lie at a strange place is a failure, too. -/
def Sound (runtime : Runtime) (g : Globals R) : Prop := runtime = .dalvik → g.ContentsFound

theorem onVmCreated_wp (runtime : Runtime) (g : Globals R) (clear : vm.Clear)
    (bridge : g.classXposedBridge ≠ none) :
    (onVmCreated runtime g).wp (environment outside) (fun events r vm' =>
      Honest g (Sound runtime r.2) events r vm' ∧ (r.1 = true → vm'.natives = vm.natives ∧
        r.2.Callback runtime ∧ r.2.classXposedBridge = g.classXposedBridge ∧
        r.2.methodXposedBridgeHandleHookedMethod = g.methodXposedBridgeHandleHookedMethod ∧
        r.2.classFileResult = g.classFileResult ∧
        r.2.constructorFileResult = g.constructorFileResult)) vm := by
  cases runtime with
  | art =>
    refine ⟨⟨clear, ?_, rfl⟩, fun _ => ⟨rfl, ⟨rfl, rfl⟩, rfl, rfl, rfl, rfl⟩⟩
    simp [Sound]
  | dalvik =>
    apply Calls.Prog.wp_mono (onVmCreatedDalvik_wp g clear bridge)
    rintro events ⟨ok, g'⟩ vm' ⟨honest, created⟩
    refine ⟨⟨honest.clear, by simpa [Sound] using honest.reported, honest.loaded⟩, fun fine => ?_⟩
    obtain ⟨natives, jit, offset, contents, arrays, rfl⟩ := created fine
    exact ⟨natives, ⟨nofun, (honest.reported.mp fine).2⟩, rfl, rfl, rfl, rfl⟩

/-- How the whole start ends. -/
structure Started (runtime : Runtime) (sdk : Nat) (events : Events R) (g : Globals R) (vm : Vm R) :
    Prop where
  clear : vm.Clear
  reported : hadInitErrors g = false ↔ Faultless events ∧ Sound runtime g
  ready : hadInitErrors g = false → Ready runtime sdk g vm

omit [DecidableEq R] in
/-- A start that breaks off has failed. -/
theorem Honest.breaks_off {runtime : Runtime} {sdk : Nat} {g g' : Globals R} {sound : Prop}
    {events all : Events R} (h : Honest g sound events (false, g') vm)
    (unloaded : g.xposedLoadedSuccessfully = false) (part : Faultless all → Faultless events)
    (needs : Sound runtime g' → sound) : Started runtime sdk all g' vm := by
  have errors : hadInitErrors g' = true := by
    rw [hadInitErrors, h.loaded, unloaded]
    rfl
  have fault : ¬ (Faultless events ∧ sound) := by simpa using h.reported
  refine ⟨h.clear, ?_, by simp [errors]⟩
  rw [errors]
  exact iff_of_false nofun fun fine => fault ⟨part fine.1, needs fine.2⟩

theorem onVmCreatedCommon_wp (runtime : Runtime) (sdk : Nat) {g : Globals R} (clear : vm.Clear)
    (unloaded : g.xposedLoadedSuccessfully = false) :
    (onVmCreatedCommon runtime sdk g).wp (environment outside) (Started runtime sdk) vm := by
  apply Calls.Prog.wp_chain (initXposedBridge_wp sdk g clear)
  rintro first ⟨ok, g₁⟩ vm₁ ⟨honest₁, ready₁⟩
  cases ok with
  | false => exact honest₁.breaks_off unloaded (by simp) fun _ => trivial
  | true =>
    obtain ⟨bridge, handle, rfl, rfl⟩ := ready₁ rfl
    have fine₁ := (honest₁.reported.mp rfl).1
    apply Calls.Prog.wp_chain (initZygoteService_wp _ honest₁.clear)
    rintro second ⟨ok, g₂⟩ vm₂ ⟨honest₂, ready₂⟩
    cases ok with
    | false => exact honest₂.breaks_off unloaded (by simp) fun _ => trivial
    | true =>
      obtain ⟨service, fileResult, constructor, rfl, rfl⟩ := ready₂ rfl
      have fine₂ := (honest₂.reported.mp rfl).1
      apply Calls.Prog.wp_chain (onVmCreated_wp runtime _ honest₂.clear (by simp))
      rintro third ⟨ok, g₃⟩ vm₃ ⟨honest₃, ready₃⟩
      cases ok with
      | false => exact honest₃.breaks_off unloaded (by simp) id
      | true =>
        obtain ⟨natives, callback, bridge₃, handler, result, constructor₃⟩ := ready₃ rfl
        obtain ⟨fine₃, sound⟩ := honest₃.reported.mp rfl
        refine ⟨honest₃.clear, ?_, fun _ => ⟨?_, ?_, ?_, ?_, callback⟩⟩
        · simpa [hadInitErrors, fine₁, fine₂, fine₃, Sound, Globals.ContentsFound] using sound
        · refine ⟨bridge, bridge₃, fun m added => ?_⟩
          rw [natives]
          exact Vm.mem_register (Vm.register_self bridge added)
        · refine ⟨service, fun m added => ?_⟩
          rw [natives]
          exact Vm.register_self service added
        · rw [handler]
          nofun
        · rw [result, constructor₃]
          exact ⟨nofun, nofun⟩

/-- **Every failure of the start is reported.** None of its calls is made with an
exception pending or with a `NULL` class, and no exception is left behind.
`hadInitErrors` is `false` exactly if no class, method or registration failed,
but for the class that only MIUI has, and the contents of an array were found,
and then everything is there that the native methods and the callback use.
`NewGlobalRef` does not fail. -/
theorem start_reported (outside : Outside R) (runtime : Runtime) (sdk : Nat) (vm : Vm R)
    (clear : vm.Clear) :
    ¬ Calls.Misuses (environment outside) vm (onVmCreatedCommon runtime sdk Globals.zero) ∧
      ∀ events g vm', Calls.Runs (environment outside) vm
        (onVmCreatedCommon runtime sdk Globals.zero) events g vm' →
        Started runtime sdk events g vm' :=
  (Calls.Prog.wp_iff _).mp (onVmCreatedCommon_wp runtime sdk clear rfl)

end

/-- Strings and the service may answer anything. -/
def anything : Outside Nat where
  chars _ _ := True
  accessible := true
  service _ _ := True
  refuses never := Bool.noConfusion never

def blank : Vm Nat := ⟨none, none, fun _ => [], fun _ => [], fun _ => 0⟩

/-- Everything is found, and the contents of an array lie at 16. -/
def obliging (vm : Vm Nat) : (c : Call Nat) → Answer c × Vm Nat
  | .lookup _ => (some 1, vm)
  | .newGlobalRef obj => (obj, vm)
  | .registerNatives clazz methods => (JNI_OK, vm.register clazz methods)
  | .deleteLocalRef _ | .logExceptionStackTrace | .releaseStringUTFChars _ | .free _
  | .releaseIntArrayElements _ | .dvmSetNativeFunc _ | .fclose => ((), vm)
  | .exceptionClear => ((), { vm with pending := none })
  | .jniThrowException e => ((), { vm with pending := some e })
  | .getStringUTFChars _ => (some [47], vm)
  | .newByteArray length =>
    (some 2, { vm with arrays := Function.update vm.arrays 2 (.replicate length.toNat (some 0)) })
  | .getPrimitiveArrayCritical array => (true, { vm with critical := some array })
  | .memcpy array content n => ((), { vm with
      arrays := Function.update vm.arrays array
        (content.cells.take n.toNat ++ (vm.arrays array).drop n.toNat) })
  | .releasePrimitiveArrayCritical _ => ((), { vm with critical := none })
  | .getIntArrayElements _ => ((116 : UInt32), vm)
  | .dvmDecodeIndirectRef _ => ((100 : UInt32), vm)
  | .accessFlags clazz => (vm.flags clazz, vm)
  | .setAccessFlags clazz flags => ((), { vm with flags := Function.update vm.flags clazz flags })
  | .dlsym _ | .fopen _ => (false, vm)
  | .fscanf => ((0, 0), vm)
  | .zygoteservice_accessFile _ _ => ((0, 0), vm)
  | .zygoteservice_statFile _ => ((0, 0, none), vm)
  | .zygoteservice_readFile _ => ((none, ENOENT, 0), vm)

theorem obliging_answers (vm : Vm Nat) (c : Call Nat) :
    (environment anything).Answers vm c (obliging vm c).1 (obliging vm c).2 := by
  cases c with
  | getStringUTFChars | zygoteservice_accessFile | zygoteservice_statFile | zygoteservice_readFile =>
    exact ⟨trivial, rfl⟩
  | accessFlags => exact ⟨rfl, rfl⟩
  | _ => rfl

/-- Where everything is found, Dalvik starts without errors. -/
theorem dalvik_started : ∃ events g vm,
    Calls.Runs (environment anything) blank (onVmCreatedCommon .dalvik 19 Globals.zero) events g vm ∧
      hadInitErrors g = false ∧ Ready .dalvik 19 g vm := by
  have runs := Calls.Prog.exec_runs obliging_answers (onVmCreatedCommon .dalvik 19 Globals.zero) blank
  have started := (start_reported anything .dalvik 19 blank ⟨rfl, rfl⟩).2 _ _ _ runs
  exact ⟨_, _, _, runs, rfl, started.ready rfl⟩

end Xposed.Jni
