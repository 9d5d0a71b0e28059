import Xposed.Jni.Files
import Xposed.Lib.Run

/-!
# The native methods after the start

Java asks `hadInitErrors` and goes on only if there were none. Then it calls the
native methods in any order, and handles the exceptions they leave.
-/

namespace Xposed.Jni

inductive JavaCall (R : Type) where
  | initXResourcesNative
  | file (call : FileCall R)

/-- What lasts from one call to the next. -/
structure Session (R : Type) where
  g : Globals R
  vm : Vm R

section
variable {R : Type}

def JavaCall.code (XPOSED_WITH_SELINUX : Bool) (strerror : Int32 → Bytes) (g : Globals R) :
    JavaCall R → Code R (Globals R)
  | .initXResourcesNative => do
    let (_, g) ← Jni.initXResourcesNative g
    return g
  | .file call => do
    let _ ← call.run XPOSED_WITH_SELINUX strerror g
    return g

/-- The names can be given to the service. -/
def JavaCall.Sound (XPOSED_WITH_SELINUX : Bool) (outside : Outside R) : JavaCall R → Prop
  | .initXResourcesNative => True
  | .file call => XPOSED_WITH_SELINUX = true → ∀ filename, Passed outside call.filenameJ filename →
    call.Takes outside filename

variable [DecidableEq R]

/-- A native method runs to its end, and Java handles its exception. -/
inductive Session.Step (outside : Outside R) (XPOSED_WITH_SELINUX : Bool) (strerror : Int32 → Bytes)
    (s : Session R) (call : JavaCall R) : Session R → Prop where
  | returned {events : Events R} {g : Globals R} {vm : Vm R}
      (runs : Calls.Runs (environment outside) s.vm (call.code XPOSED_WITH_SELINUX strerror s.g)
        events g vm) : Step outside XPOSED_WITH_SELINUX strerror s call ⟨g, { vm with pending := none }⟩

/-- The library is ready, and no exception or array is left over. -/
structure Session.Sane (runtime : Runtime) (sdk : Nat) (s : Session R) : Prop where
  clear : s.vm.Clear
  ready : Ready runtime sdk s.g s.vm
  loaded : hadInitErrors s.g = false

variable {outside : Outside R} {XPOSED_WITH_SELINUX : Bool} {strerror : Int32 → Bytes}
  {runtime : Runtime} {sdk : Nat} {s s' : Session R}

/-- The file methods end without an array held, and register nothing. -/
theorem FileCall.run_wp (call : FileCall R) (sane : s.Sane runtime sdk)
    (sound : (JavaCall.file call).Sound XPOSED_WITH_SELINUX outside) :
    (call.run XPOSED_WITH_SELINUX strerror s.g).wp (environment outside)
      (fun _ _ vm' => s.vm.Settled vm') s.vm := by
  have unchanged : s.vm.Settled s.vm := ⟨sane.clear.2, rfl⟩
  have fileResult := sane.ready.fileResult
  cases XPOSED_WITH_SELINUX with
  | false => cases call <;> exact unchanged
  | true =>
    have takes := sound rfl
    cases call with
    | checkFileAccess filenameJ mode =>
      exact Calls.Prog.wp_mono (checkFileAccess_wp mode sane.clear takes) fun _ _ _ h => h.1
    | statFile filenameJ =>
      exact Calls.Prog.wp_mono (statFile_wp strerror sane.clear fileResult takes) fun _ _ _ h => h.1
    | readFile filenameJ =>
      exact Calls.Prog.wp_mono (readFile_wp strerror sane.clear takes) fun _ _ _ h => h.1

/-- One call: nothing is misused, and the library stays ready. -/
theorem JavaCall.code_wp (call : JavaCall R) (sane : s.Sane runtime sdk)
    (sound : call.Sound XPOSED_WITH_SELINUX outside) :
    (call.code XPOSED_WITH_SELINUX strerror s.g).wp (environment outside)
      (fun _ g vm => (⟨g, { vm with pending := none }⟩ : Session R).Sane runtime sdk) s.vm := by
  cases call with
  | initXResourcesNative =>
    apply Calls.Prog.wp_chain (initXResourcesNative_wp s.g sane.clear)
    rintro events ⟨ok, _⟩ vm ⟨honest, ⟨clazz, resId, attrId, rfl⟩, natives, _⟩
    obtain ⟨⟨bridge, same, known⟩, ⟨service, files⟩, handler, fileResult, callback⟩ := sane.ready
    refine ⟨⟨rfl, honest.clear.2⟩, ⟨⟨bridge, same, fun m added => natives _ m (known m added)⟩,
      ⟨service, fun m added => natives _ m (files m added)⟩, handler, fileResult, ?_⟩, sane.loaded⟩
    cases runtime with
    | dalvik | art => exact callback
  | file call =>
    apply Calls.Prog.wp_chain (call.run_wp sane sound)
    intro events _ vm settled
    obtain ⟨⟨bridge, same, known⟩, ⟨service, files⟩, handler, fileResult, callback⟩ := sane.ready
    refine ⟨⟨rfl, settled.held⟩, ⟨⟨bridge, same, fun m added => ?_⟩,
      ⟨service, fun m added => ?_⟩, handler, fileResult, callback⟩, sane.loaded⟩
    · exact settled.natives ▸ known m added
    · exact settled.natives ▸ files m added

theorem Session.Sane.step (sane : s.Sane runtime sdk) {call : JavaCall R}
    (sound : call.Sound XPOSED_WITH_SELINUX outside)
    (step : Session.Step outside XPOSED_WITH_SELINUX strerror s call s') : s'.Sane runtime sdk := by
  cases step with
  | returned runs => exact Calls.Prog.wp_runs (call.code_wp sane sound) runs

/-- **A start without errors lasts.** Whatever native methods Java then calls,
with names that can be given to the service, everything they use stays there and
none of their calls is misused. -/
theorem session_safe (outside : Outside R) (runtime : Runtime) (sdk : Nat)
    (XPOSED_WITH_SELINUX : Bool) (strerror : Int32 → Bytes) (vm : Vm R) (clear : vm.Clear)
    (events : Events R) (first : Session R)
    (starts : Calls.Runs (environment outside) vm (onVmCreatedCommon runtime sdk Globals.zero)
      events first.g first.vm) (fine : hadInitErrors first.g = false) (s : Session R)
    (reached : Run.Reachable (Session.Step outside XPOSED_WITH_SELINUX strerror) first
      (fun _ call => call.Sound XPOSED_WITH_SELINUX outside) s) :
    s.Sane runtime sdk ∧ ∀ call : JavaCall R, call.Sound XPOSED_WITH_SELINUX outside →
      ¬ Calls.Misuses (environment outside) s.vm (call.code XPOSED_WITH_SELINUX strerror s.g) := by
  have started := Calls.Prog.wp_runs (onVmCreatedCommon_wp runtime sdk clear rfl) starts
  have sane : s.Sane runtime sdk := by
    apply reached.invariant (fun s => s.Sane runtime sdk)
    · exact ⟨started.clear, started.ready fine, fine⟩
    · exact fun _ _ _ _ sane sound step => sane.step sound step
  exact ⟨sane, fun call sound => Calls.Prog.wp_safe (call.code_wp sane sound)⟩

end

/-- Dalvik as it is when `obliging` has answered. -/
def startedSession : Session Nat :=
  let started := Calls.Prog.exec obliging blank (onVmCreatedCommon .dalvik 19 Globals.zero)
  ⟨started.2.1, started.2.2⟩

/-- Resources are hooked, and the file methods can still be called. -/
theorem session_goes_on : ∃ s : Session Nat, s.Sane .dalvik 19 ∧ s.g.classXResources ≠ none ∧
    ¬ Calls.Misuses (environment anything) s.vm
      ((JavaCall.file (.statFile (some 5))).code false (fun _ => []) s.g) := by
  have starts := Calls.Prog.exec_runs obliging_answers (onVmCreatedCommon .dalvik 19 Globals.zero) blank
  have hooks := Calls.Prog.exec_runs obliging_answers
    (JavaCall.code false (fun _ => []) startedSession.g .initXResourcesNative) startedSession.vm
  have reached : Run.Reachable (Session.Step anything false fun _ => []) startedSession
      (fun _ call => call.Sound false anything) _ :=
    .next .start (by trivial) (.returned hooks)
  have safe := session_safe anything .dalvik 19 false (fun _ => []) blank ⟨rfl, rfl⟩ _ startedSession
    starts rfl _ reached
  exact ⟨_, safe.1, nofun, safe.2 _ nofun⟩

end Xposed.Jni
