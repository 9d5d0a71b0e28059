/-!
# Runs of a labelled step relation

* `Reachable`: the states a run reaches when all its steps meet a condition;
* `Reachable.invariant`: what holds first and every step keeps, holds in all of
  them;
* `execAll`: a run on concrete labels, for a step function;
* `Keeps`, `Throughout`, `keeps_iff`: for steps that can go wrong, exactly which
  runs keep an invariant.
-/

namespace Run

section
variable {W L : Type}

/-- The states of the runs from `first` whose steps all meet `ok`. -/
inductive Reachable (step : W → L → W → Prop) (first : W) (ok : W → L → Prop) : W → Prop where
  | start : Reachable step first ok first
  | next {w v l} : Reachable step first ok w → ok w l → step w l v → Reachable step first ok v

/-- A run, as long as its steps meet `ok`. -/
def execAll (exec : W → L → Option W) (ok : W → L → Prop) [∀ w l, Decidable (ok w l)] (w : W) :
    List L → Option W
  | [] => some w
  | l :: ls => if ok w l then (exec w l).bind fun v => execAll exec ok v ls else none

variable {step : W → L → W → Prop} {first w : W} {ok : W → L → Prop}

/-- A property that holds first and is preserved by each step, given what is
already known of reachable states, holds in every reachable state. -/
theorem Reachable.invariant (Inv : W → Prop) (h : Reachable step first ok w) (base : Inv first)
    (keep : ∀ w l v, Reachable step first ok w → Inv w → ok w l → step w l v → Inv v) : Inv w := by
  induction h with
  | start => exact base
  | next reached hok step ih => exact keep _ _ _ reached ih hok step

theorem Reachable.mono {okay : W → L → Prop} (h : Reachable step first ok w)
    (imp : ∀ w l, ok w l → okay w l) : Reachable step first okay w := by
  induction h with
  | start => exact .start
  | next _ hok step ih => exact ih.next (imp _ _ hok) step

/-- The steps of a step function are steps of the relation. -/
theorem execAll_reachable {exec : W → L → Option W} [∀ w l, Decidable (ok w l)] {v : W} {ls : List L}
    (sound : ∀ {w v l}, exec w l = some v → step w l v) (h : Reachable step first ok w)
    (run : execAll exec ok w ls = some v) : Reachable step first ok v := by
  induction ls generalizing w with
  | nil =>
    cases run
    exact h
  | cons l ls ih =>
    simp only [execAll] at run
    split at run
    · obtain ⟨u, hu, rest⟩ := Option.bind_eq_some_iff.mp run
      exact ih (h.next ‹_› (sound hu)) rest
    · cases run

/-! ## Steps that can go wrong -/

/-- No step of the run goes wrong, and each of its states meets `Inv`. -/
def Keeps (exec : W → L → Option W) (Inv : W → Prop) (w : W) : List L → Prop
  | [] => Inv w
  | l :: ls => Inv w ∧ ∃ v, exec w l = some v ∧ Keeps exec Inv v ls

/-- `ok` holds of each step of the run, up to one that goes wrong. -/
def Throughout (exec : W → L → Option W) (ok : W → L → Prop) (w : W) : List L → Prop
  | [] => True
  | l :: ls => ok w l ∧ ∀ v, exec w l = some v → Throughout exec ok v ls

theorem Throughout.of_forall {exec : W → L → Option W} {ok : W → L → Prop} (all : ∀ w l, ok w l)
    (w : W) (ls : List L) : Throughout exec ok w ls := by
  induction ls generalizing w with
  | nil => trivial
  | cons l ls ih => exact ⟨all w l, fun v _ => ih v⟩

/-- What decides whether one step keeps the invariant decides it of a run. -/
theorem keeps_iff {exec : W → L → Option W} {Inv : W → Prop} {given okay : W → L → Prop}
    (one : ∀ w l, Inv w → given w l → ((∃ v, exec w l = some v ∧ Inv v) ↔ okay w l)) {ls : List L}
    (base : Inv w) (assumed : Throughout exec given w ls) :
    Keeps exec Inv w ls ↔ Throughout exec okay w ls := by
  induction ls generalizing w with
  | nil => exact iff_of_true base trivial
  | cons l ls ih =>
    obtain ⟨here, later⟩ := assumed
    constructor
    · rintro ⟨_, v, does, rest⟩
      have inv : Inv v := by
        cases ls with
        | nil => exact rest
        | cons => exact rest.1
      refine ⟨(one w l base here).mp ⟨v, does, inv⟩, fun u same => ?_⟩
      cases does.symm.trans same
      exact (ih inv (later v does)).mp rest
    · rintro ⟨fine, rest⟩
      obtain ⟨v, does, inv⟩ := (one w l base here).mpr fine
      exact ⟨base, v, does, (ih inv (later v does)).mpr (rest v does)⟩

end

end Run
