import Xposed.Binder.Service
import Xposed.Jni.Init
import Xposed.Membased.Faithful

/-!
# The native methods of `ZygoteService`

`checkFileAccess`, `statFile` and `readFile` hand a name to the memory-based
service, and tell Java what became of the call: by a result, or by an exception
with the text for `errno`.
-/

namespace Xposed.Jni

open Binder (text)
open Membased (Outcome)

/-- A call from Java. `null` is `none`. -/
inductive FileCall (R : Type) where
  | checkFileAccess (filenameJ : Option R) (mode : Int32)
  | statFile (filenameJ : Option R)
  | readFile (filenameJ : Option R)

inductive Returned (R : Type) where
  | access (granted : Bool)
  | object (result : Option R)

def nullPointerException : JavaException := ⟨"java/lang/NullPointerException", []⟩

/-- The exception for `errno`. `%s` prints `(null)` for `NULL`. -/
def thrownFor (strerror : Int32 → Bytes) (errno : Int32) (filename : Option Bytes) : JavaException :=
  if errno = ENOENT then
    ⟨"java/io/FileNotFoundException",
      text "No such file or directory: " ++ filename.getD (text "(null)")⟩
  else
    ⟨"java/io/IOException",
      strerror errno ++ text " while reading " ++ filename.getD (text "(null)")⟩

section
variable {R : Type}

/-- `ScopedUtfChars filename(env, filenameJ);` -/
def scopedUtfChars (filenameJ : Option R) : Code R (Option Bytes) :=
  match filenameJ with
  | none => do
    jniThrowException nullPointerException
    return none
  | some string => getStringUTFChars string

/-- The end of `filename`'s scope. -/
def endOfScope (filenameJ : Option R) (filename : Option Bytes) : Code R Unit :=
  match filenameJ, filename with
  | some string, some _ => releaseStringUTFChars string
  | _, _ => return ()

/-- `jniThrowExceptionFmt(…); return NULL;` -/
def throwErrno (strerror : Int32 → Bytes) (errno : Int32) (filenameJ : Option R)
    (filename : Option Bytes) : Code R (Returned R) := do
  jniThrowException (thrownFor strerror errno filename)
  endOfScope filenameJ filename
  return .object none

def ZygoteService.checkFileAccess (filenameJ : Option R) (mode : Int32) : Code R (Returned R) := do
  let filename ← scopedUtfChars filenameJ
  let out ← zygoteservice_accessFile filename mode
  endOfScope filenameJ filename
  return .access (out.1 == 0)

def ZygoteService.statFile (strerror : Int32 → Bytes) (g : Globals R) (filenameJ : Option R) :
    Code R (Returned R) := do
  let filename ← scopedUtfChars filenameJ
  let (result, errno, st) ← zygoteservice_statFile filename
  if result ≠ 0 then throwErrno strerror errno filenameJ filename
  else
    let ret ← newObject g.classFileResult g.constructorFileResult
      [st.map (·.st_size), st.map (·.st_mtime)]
    endOfScope filenameJ filename
    return .object ret

/-- The content as a Java array. -/
def toByteArray (content : HeapBlock) (bytesRead : Int) : Code R (Option R) := do
  match ← newByteArray bytesRead with
  | none =>
    free content
    return none
  | some ret =>
    if ← getPrimitiveArrayCritical ret then
      memcpy ret content bytesRead
      releasePrimitiveArrayCritical ret
      free content
      return some ret
    else
      free content
      return some ret

def ZygoteService.readFile (strerror : Int32 → Bytes) (filenameJ : Option R) : Code R (Returned R) := do
  let filename ← scopedUtfChars filenameJ
  let (content, errno, bytesRead) ← zygoteservice_readFile filename
  match content with
  | none => throwErrno strerror errno filenameJ filename
  | some content =>
    let ret ← toByteArray content bytesRead
    endOfScope filenameJ filename
    return .object ret

/-- Without SELinux, there is no service to ask. -/
def FileCall.run (XPOSED_WITH_SELINUX : Bool) (strerror : Int32 → Bytes) (g : Globals R) :
    FileCall R → Code R (Returned R)
  | .checkFileAccess filenameJ mode =>
    if XPOSED_WITH_SELINUX then ZygoteService.checkFileAccess filenameJ mode
    else return .access false
  | .statFile filenameJ =>
    if XPOSED_WITH_SELINUX then ZygoteService.statFile strerror g filenameJ
    else return .object none
  | .readFile filenameJ =>
    if XPOSED_WITH_SELINUX then ZygoteService.readFile strerror filenameJ
    else return .object none

/-! ## When the calls are allowed -/

/-- The name that `ScopedUtfChars` may get from a string. -/
def Passed (outside : Outside R) (filenameJ : Option R) (filename : Option Bytes) : Prop :=
  match filenameJ with
  | none => filename = none
  | some string => outside.chars string filename

/-- The VM behind `ScopedUtfChars`. -/
def Vm.Scoped (vm : Vm R) (filename : Option Bytes) (vm' : Vm R) : Prop :=
  match filename with
  | some _ => vm' = vm
  | none => ∃ e, vm' = vm.threw e

/-- No content has less bytes than `bytesRead` says. -/
def Fits (outside : Outside R) (filename : Option Bytes) : Prop :=
  ∀ content errno bytesRead, outside.service (.readFile (filename.getD []) (some 0))
    (.readFile (some content) errno (some bytesRead)) →
    0 ≤ bytesRead ∧ bytesRead ≤ content.cells.length

def FileCall.filenameJ : FileCall R → Option R
  | .checkFileAccess filenameJ _ | .statFile filenameJ | .readFile filenameJ => filenameJ

/-- The name can be given to the service. -/
def FileCall.Takes (outside : Outside R) (filename : Option Bytes) : FileCall R → Prop
  | .checkFileAccess _ _ | .statFile _ => outside.accessible = true → filename ≠ none
  | .readFile _ => (outside.accessible = true → filename ≠ none) ∧ Fits outside filename

variable [DecidableEq R] {outside : Outside R} {vm : Vm R}

/-- What `ScopedUtfChars` calls, with the answers. -/
def scopedEvents (filenameJ : Option R) (filename : Option Bytes) : Events R :=
  match filenameJ with
  | none => [⟨.jniThrowException nullPointerException, ()⟩]
  | some string => [⟨.getStringUTFChars string, filename⟩]

theorem scopedUtfChars_wp {α : Type} {filenameJ : Option R} {f : Option Bytes → Code R α}
    {Q : Events R → α → Vm R → Prop} (clear : vm.Clear)
    (next : ∀ filename vm', Passed outside filenameJ filename → vm.Scoped filename vm' →
      (f filename).wp (environment outside)
        (fun later => Q (scopedEvents filenameJ filename ++ later)) vm') :
    (scopedUtfChars filenameJ >>= f).wp (environment outside) Q vm := by
  cases filenameJ with
  | none =>
    refine ⟨clear.2, fun _ vm' answers => ?_⟩
    cases answers
    exact next none _ rfl ⟨_, rfl⟩
  | some string =>
    refine ⟨clear, ?_⟩
    rintro (_ | path) vm' ⟨passed, answers⟩
    · exact next none _ passed answers
    · exact next (some path) _ passed answers

/-- The other way round: what is known of code that asks for a name first. -/
theorem scopedUtfChars_next {α : Type} {filenameJ : Option R} {f : Option Bytes → Code R α}
    {Q : Events R → α → Vm R → Prop}
    (h : (scopedUtfChars filenameJ >>= f).wp (environment outside) Q vm) {filename : Option Bytes}
    (passed : Passed outside filenameJ filename) : ∃ vm', vm.Scoped filename vm' ∧
      (f filename).wp (environment outside)
        (fun later => Q (scopedEvents filenameJ filename ++ later)) vm' := by
  cases filenameJ with
  | none =>
    cases passed
    exact ⟨_, ⟨nullPointerException, rfl⟩, h.2 _ _ rfl⟩
  | some string =>
    cases filename with
    | none => exact ⟨_, ⟨nullPointerException, rfl⟩, h.2 none _ ⟨passed, nullPointerException, rfl⟩⟩
    | some path => exact ⟨vm, rfl, h.2 (some path) vm ⟨passed, rfl⟩⟩

/-- The elements of an array could be had. -/
def gotElements (events : Events R) : Bool :=
  events.any fun
    | ⟨.getPrimitiveArrayCritical _, (there : Bool)⟩ => there
    | _ => false

theorem endOfScope_wp {α : Type} {filenameJ : Option R} {filename : Option Bytes}
    {f : Unit → Code R α} {Q : Events R → α → Vm R → Prop} (held : vm.critical = none)
    (next : ∀ events, gotElements events = false →
      (f ()).wp (environment outside) (fun later => Q (events ++ later)) vm) :
    (endOfScope filenameJ filename >>= f).wp (environment outside) Q vm := by
  unfold endOfScope
  split
  · refine ⟨held, fun _ vm' answers => ?_⟩
    cases answers
    exact next [_] rfl
  · exact next [] rfl

theorem throwErrno_wp {strerror : Int32 → Bytes} {errno : Int32} {filenameJ : Option R}
    {filename : Option Bytes} {Q : Events R → Returned R → Vm R → Prop} (held : vm.critical = none)
    (next : ∀ events, Q events (.object none) (vm.threw (thrownFor strerror errno filename))) :
    (throwErrno strerror errno filenameJ filename).wp (environment outside) Q vm := by
  refine ⟨held, fun _ vm' answers => ?_⟩
  cases answers
  have still : (vm.threw (thrownFor strerror errno filename)).critical = none := held
  apply endOfScope_wp still
  exact fun _ _ => next _

/-- No array is held any more, and no method has become native. -/
structure Vm.Settled (vm vm' : Vm R) : Prop where
  held : vm'.critical = none
  natives : vm'.natives = vm.natives

omit [DecidableEq R] in
theorem Vm.Scoped.settled {filename : Option Bytes} {vm' : Vm R} (h : vm.Scoped filename vm')
    (clear : vm.Clear) : vm.Settled vm' := by
  cases filename with
  | none =>
    obtain ⟨e, rfl⟩ := h
    exact ⟨clear.2, rfl⟩
  | some path =>
    cases h
    exact ⟨clear.2, rfl⟩

theorem checkFileAccess_wp {filenameJ : Option R} (mode : Int32) (clear : vm.Clear)
    (takes : ∀ filename, Passed outside filenameJ filename → outside.accessible = true →
      filename ≠ none) :
    (ZygoteService.checkFileAccess filenameJ mode).wp (environment outside) (fun _ ret vm' =>
      vm.Settled vm' ∧ ∃ filename result errno, Passed outside filenameJ filename ∧
        outside.service (.accessFile (filename.getD []) mode) (.accessFile result errno) ∧
        ret = .access (result == 0)) vm := by
  apply scopedUtfChars_wp clear
  intro filename vm' passed named
  have settled := named.settled clear
  refine ⟨⟨settled.held, takes filename passed⟩, ?_⟩
  rintro ⟨result, errno⟩ _ ⟨served, rfl⟩
  apply endOfScope_wp settled.held
  exact fun _ _ => ⟨settled, filename, result, errno, passed, served, rfl⟩

/-- How `toByteArray` ends. Without the elements of the new array, its bytes stay
zero, and nobody is told. -/
structure ToArray (content : HeapBlock) (bytesRead : Int) (events : Events R) (ret : Option R)
    (vm : Vm R) : Prop where
  fails : ret = none ↔ vm.pending ≠ none
  bytes : ∀ array, ret = some array → vm.arrays array =
    if gotElements events then content.cells.take bytesRead.toNat
    else List.replicate bytesRead.toNat (some 0)

theorem toByteArray_wp {content : HeapBlock} {bytesRead : Int} (clear : vm.Clear)
    (low : 0 ≤ bytesRead) (fits : bytesRead ≤ content.cells.length) :
    (toByteArray content bytesRead).wp (environment outside) (fun events ret vm' =>
      vm.Settled vm' ∧ ToArray content bytesRead events ret vm') vm := by
  refine ⟨clear, ?_⟩
  rintro (_ | array) vm' answers
  · obtain ⟨e, rfl⟩ := answers
    refine ⟨trivial, fun _ vm' answers => ?_⟩
    cases answers
    exact ⟨⟨clear.2, rfl⟩, by simp, nofun⟩
  · cases answers
    refine ⟨clear, fun (there : Bool) vm' answers => ?_⟩
    cases answers
    cases there with
    | false =>
      refine ⟨trivial, fun _ vm' answers => ?_⟩
      cases answers
      refine ⟨⟨clear.2, rfl⟩, by simp [clear.1], ?_⟩
      rintro _ ⟨⟩
      simp [gotElements]
    | true =>
      have room : bytesRead ≤ (List.replicate bytesRead.toNat (some (0 : UInt8))).length := by
        rw [List.length_replicate]
        exact Int.self_le_toNat bytesRead
      refine ⟨⟨rfl, low, fits, by simpa only [ite_true, Function.update_self] using room⟩,
        fun _ vm' answers => ?_⟩
      cases answers
      refine ⟨rfl, fun _ vm' answers => ?_⟩
      cases answers
      refine ⟨trivial, fun _ vm' answers => ?_⟩
      cases answers
      refine ⟨⟨rfl, rfl⟩, by simp [clear.1], ?_⟩
      rintro _ ⟨⟩
      simp [gotElements]

/-- What Java gets for the outcome of `stat`. -/
structure StatTold (strerror : Int32 → Bytes) (g : Globals R) (filename : Option Bytes)
    (result errno : Int32) (st : Option Stat) (events : Events R) (ret : Returned R) (vm : Vm R) :
    Prop where
  fails : result ≠ 0 → ret = .object none ∧ vm.pending = some (thrownFor strerror errno filename)
  gives : result = 0 → ∃ object, ret = .object object ∧ (object = none ↔ vm.pending ≠ none) ∧
    ⟨.lookup (.newObject g.classFileResult g.constructorFileResult
      [st.map (·.st_size), st.map (·.st_mtime)]), object⟩ ∈ events

theorem statFile_wp (strerror : Int32 → Bytes) {g : Globals R} {filenameJ : Option R}
    (clear : vm.Clear) (ready : g.classFileResult ≠ none ∧ g.constructorFileResult ≠ none)
    (takes : ∀ filename, Passed outside filenameJ filename → outside.accessible = true →
      filename ≠ none) :
    (ZygoteService.statFile strerror g filenameJ).wp (environment outside) (fun events ret vm' =>
      vm.Settled vm' ∧ ∃ filename result errno st, Passed outside filenameJ filename ∧
        outside.service (.statFile (filename.getD [])) (.statFile result errno st) ∧
        StatTold strerror g filename result errno st events ret vm') vm := by
  apply scopedUtfChars_wp clear
  intro filename vm' passed named
  have settled := named.settled clear
  refine ⟨⟨settled.held, takes filename passed⟩, ?_⟩
  rintro ⟨result, errno, st⟩ _ ⟨served, rfl⟩
  dsimp only [Calls.Prog.bind]
  split
  · rename_i failed
    apply throwErrno_wp settled.held
    exact fun _ => ⟨⟨settled.held, settled.natives⟩, filename, result, errno, st, passed, served,
      fun _ => ⟨rfl, rfl⟩, fun fine => absurd fine failed⟩
  · rename_i fine
    have fine : result = 0 := Decidable.not_not.mp fine
    cases filename with
    | none =>
      have inside : outside.accessible = false := by
        simpa using fun accessible => takes none passed accessible rfl
      have refused := outside.refuses inside _ _ served
      cases refused
      cases fine
    | some path =>
      cases named
      apply lookup_rule clear (by exact ready)
      · intro object
        apply endOfScope_wp settled.held
        exact fun _ _ => ⟨settled, some path, result, errno, st, passed, served,
          fun failed => absurd fine failed, fun _ => ⟨some object, rfl, by simp [clear.1], by simp⟩⟩
      · intro e
        have still : (vm.threw e).critical = none := settled.held
        apply endOfScope_wp still
        exact fun _ _ => ⟨⟨still, rfl⟩, some path, result, errno, st, passed, served,
          fun failed => absurd fine failed, fun _ => ⟨none, rfl, by simp [Vm.threw], by simp⟩⟩

/-- What Java gets for the outcome of `readFile`. -/
structure ReadTold (strerror : Int32 → Bytes) (filename : Option Bytes) (result : Option HeapBlock)
    (errno : Int32) (bytesRead : Int) (events : Events R) (ret : Returned R) (vm : Vm R) : Prop where
  fails : result = none → ret = .object none ∧
    vm.pending = some (thrownFor strerror errno filename)
  gives : ∀ content, result = some content → ∃ array, ret = .object array ∧
    ToArray content bytesRead events array vm

theorem readFile_wp (strerror : Int32 → Bytes) {filenameJ : Option R} (clear : vm.Clear)
    (takes : ∀ filename, Passed outside filenameJ filename →
      (outside.accessible = true → filename ≠ none) ∧ Fits outside filename) :
    (ZygoteService.readFile strerror filenameJ).wp (environment outside) (fun events ret vm' =>
      vm.Settled vm' ∧ ∃ filename result errno bytesRead, Passed outside filenameJ filename ∧
        outside.service (.readFile (filename.getD []) (some 0))
          (.readFile result errno (some bytesRead)) ∧
        ReadTold strerror filename result errno bytesRead events ret vm') vm := by
  apply scopedUtfChars_wp clear
  intro filename vm' passed named
  have settled := named.settled clear
  obtain ⟨given, fits⟩ := takes filename passed
  refine ⟨⟨settled.held, given⟩, ?_⟩
  rintro ⟨result, errno, bytesRead⟩ _ ⟨served, rfl⟩
  cases result with
  | none =>
    apply throwErrno_wp settled.held
    exact fun _ => ⟨⟨settled.held, settled.natives⟩, filename, none, errno, bytesRead, passed, served,
      fun _ => ⟨rfl, rfl⟩, nofun⟩
  | some content =>
    cases filename with
    | none =>
      have inside : outside.accessible = false := by
        simpa using fun accessible => given accessible rfl
      have refused := outside.refuses inside _ _ served
      cases refused
    | some path =>
      cases named
      obtain ⟨low, high⟩ := fits content errno bytesRead served
      apply Calls.Prog.wp_chain (toByteArray_wp clear low high)
      rintro events array vm' ⟨ended, made⟩
      apply endOfScope_wp ended.held
      intro later plain
      refine ⟨ended, some path, some content, errno, bytesRead, passed, served, nofun, ?_⟩
      rintro _ ⟨⟩
      refine ⟨array, rfl, made.fails, ?_⟩
      have same : gotElements (scopedEvents filenameJ (some path) ++
          ⟨.zygoteservice_readFile (some path), (some content, errno, bytesRead)⟩ ::
            (events ++ (later ++ []))) = gotElements events := by
        have before : gotElements (scopedEvents filenameJ (some path)) = false := by
          cases filenameJ <;> rfl
        unfold gotElements at *
        rw [List.append_nil, List.any_append, before, List.any_cons, List.any_append, plain]
        simp
      exact same ▸ made.bytes

omit [DecidableEq R] in
theorem fits_of_refused {filename : Option Bytes} (inside : outside.accessible = false) :
    Fits outside filename := by
  intro content errno bytesRead served
  cases outside.refuses inside _ _ served

/-- What the code of `readFile` asks of a name. -/
theorem readFile_takes {strerror : Int32 → Bytes} {filenameJ : Option R}
    (h : (ZygoteService.readFile strerror filenameJ).wp (environment outside) (fun _ _ _ => True) vm)
    {filename : Option Bytes} (passed : Passed outside filenameJ filename) :
    (outside.accessible = true → filename ≠ none) ∧ Fits outside filename := by
  obtain ⟨vm', named, allowed, next⟩ := scopedUtfChars_next h passed
  refine ⟨allowed.2, fun content errno bytesRead served => ?_⟩
  cases filename with
  | none =>
    have inside : outside.accessible = false := by
      simpa using fun accessible => allowed.2 accessible rfl
    exact fits_of_refused inside content errno bytesRead served
  | some path =>
    cases filenameJ with
    | none => cases passed
    | some string =>
      have made := (next (some content, errno, bytesRead) vm' ⟨served, rfl⟩).2 (some string) _ rfl
      obtain ⟨⟨_, low, high, _⟩, _⟩ := made.2 true _ rfl
      exact ⟨low, high⟩

/-- **Which names the native methods can take.** They never misuse JNI, the
service or memory exactly if, wherever there is a service, no string gives `NULL`
while the service is accessible, and no content is shorter than its length. -/
theorem names_taken_iff (outside : Outside R) (vm : Vm R) (clear : vm.Clear)
    (XPOSED_WITH_SELINUX : Bool) (strerror : Int32 → Bytes) (g : Globals R)
    (ready : g.classFileResult ≠ none ∧ g.constructorFileResult ≠ none) (call : FileCall R) :
    ¬ Calls.Misuses (environment outside) vm (call.run XPOSED_WITH_SELINUX strerror g) ↔
      (XPOSED_WITH_SELINUX = true → ∀ filename, Passed outside call.filenameJ filename →
        call.Takes outside filename) := by
  have safe_iff : ¬ Calls.Misuses (environment outside) vm (call.run XPOSED_WITH_SELINUX strerror g) ↔
      (call.run XPOSED_WITH_SELINUX strerror g).wp (environment outside) (fun _ _ _ => True) vm := by
    simp [Calls.Prog.wp_iff]
  rw [safe_iff]
  cases XPOSED_WITH_SELINUX with
  | false => cases call <;> simp [FileCall.run]
  | true =>
    simp only [FileCall.run, if_true, forall_const]
    cases call with
    | checkFileAccess filenameJ mode =>
      constructor
      · intro h filename passed
        obtain ⟨vm', named, allowed, next⟩ := scopedUtfChars_next h passed
        exact allowed.2
      · exact fun takes =>
          Calls.Prog.wp_mono (checkFileAccess_wp mode clear takes) fun _ _ _ _ => trivial
    | statFile filenameJ =>
      constructor
      · intro h filename passed
        obtain ⟨vm', named, allowed, next⟩ := scopedUtfChars_next h passed
        exact allowed.2
      · exact fun takes =>
          Calls.Prog.wp_mono (statFile_wp strerror clear ready takes) fun _ _ _ _ => trivial
    | readFile filenameJ =>
      exact ⟨fun h filename passed => readFile_takes h passed,
        fun takes => Calls.Prog.wp_mono (readFile_wp strerror clear takes) fun _ _ _ _ => trivial⟩

end

/-- The variables behind a start. -/
def resultKnown : Globals Nat :=
  { Globals.zero with classFileResult := some 1, constructorFileResult := some 2 }

/-- `null` is a misuse while the service is accessible. -/
theorem null_name_misused :
    Calls.Misuses (environment anything) blank
      ((FileCall.statFile none).run true (fun _ => []) resultKnown) := by
  by_contra safe
  have takes := (names_taken_iff anything blank ⟨rfl, rfl⟩ true (fun _ => []) resultKnown
    ⟨nofun, nofun⟩ (.statFile none)).mp safe rfl none rfl
  exact takes rfl rfl

/-! ## What Java is told -/

section
variable {R U : Type} [Membased.Abi U]

/-- A process that has the service to itself. `libc` is what the looper's calls
may answer. -/
def sole (U : Type) [Membased.Abi U] (chars : R → Option Bytes → Prop)
    (libc : List Membased.Answer → Prop) : Outside R where
  chars := chars
  accessible := true
  service call out := ∃ (data : U) (answers : List Membased.Answer), libc answers ∧
    call.run data answers = some out
  refuses never := Bool.noConfusion never

def FileCall.asked (path : Bytes) : FileCall R → Membased.Call
  | .checkFileAccess _ mode => .accessFile path mode
  | .statFile _ => .statFile path
  | .readFile _ => .readFile path (some 0)

/-- What Java gets for a call that failed. -/
def FileCall.Refused (strerror : Int32 → Bytes) (path : Bytes) (errno : Int32) (ret : Returned R)
    (vm : Vm R) : FileCall R → Prop
  | .checkFileAccess _ _ => ret = .access false
  | .statFile _ | .readFile _ => ret = .object none ∧
    vm.pending = some (thrownFor strerror errno (some path))

/-- What Java gets for one that did not: what the system calls of the looper
produced, or an exception for want of memory. -/
def FileCall.Granted (g : Globals R) (answers : List Membased.Answer) (out : Outcome)
    (events : Events R) (ret : Returned R) (vm : Vm R) : FileCall R → Prop
  | .checkFileAccess _ _ => ret = .access true ∧ ∃ a, answers = [a] ∧ a.access = .ok ()
  | .statFile _ => ∃ a st object, answers = [a] ∧ a.stat = .ok st ∧ ret = .object object ∧
    (object = none ↔ vm.pending ≠ none) ∧
    ⟨.lookup (.newObject g.classFileResult g.constructorFileResult
      [some st.st_size, some st.st_mtime]), object⟩ ∈ events
  | .readFile _ => ∃ content errno bytesRead array,
    out = .readFile (some content) errno (some bytesRead) ∧ ret = .object array ∧
    ToArray content bytesRead events array vm

/-- A call that was made of the service, and what Java got for its outcome. -/
structure FileCall.Told (strerror : Int32 → Bytes) (g : Globals R) (call : FileCall R) (path : Bytes)
    (answers : List Membased.Answer) (out : Outcome) (events : Events R) (ret : Returned R)
    (vm : Vm R) : Prop where
  granted : out.failed = false → call.Granted g answers out events ret vm
  refused : out.failed = true → call.Refused strerror path out.errno ret vm

variable [DecidableEq R]

end

end Xposed.Jni
