import Mathlib.Logic.Basic

/-!
# Reading with revalidation

A reader keeps the version it got last and offers it with each call; the answer
is new content with its version, or that the version is still current.

* `calls`: a run of calls, each with what the reader offered and got;
* `Truthful`: "unchanged" is answered only for a version delivered before, and
  a failed call leaves the reader's version alone;
* `truthful_of_honest`: a run of calls that are each honest is truthful.
-/

namespace Revalidation

inductive Answer where
  | unchanged
  | delivered
  | failed
  deriving DecidableEq

/-- How calls with inputs `I` answer. `version` is what a call finds in place,
if anything. -/
structure Reader (V I : Type) where
  version : I → Option V
  call : V → I → Answer × V

structure Call (V I : Type) where
  offered : V
  input : I
  answer : Answer
  kept : V

section
variable {V I : Type} (r : Reader V I)

def Reader.calls (v : V) : List I → List (Call V I)
  | [] => []
  | i :: is => ⟨v, i, (r.call v i).1, (r.call v i).2⟩ :: Reader.calls (r.call v i).2 is

/-- The call delivered version `v`. -/
def Reader.Delivers (v : V) (c : Call V I) : Prop :=
  c.answer = .delivered ∧ r.version c.input = some v

structure Reader.Truthful (run : List (Call V I)) : Prop where
  unchanged : ∀ earlier c later, run = earlier ++ c :: later → c.answer = .unchanged →
    ∃ v, r.version c.input = some v ∧ ∃ d ∈ earlier, r.Delivers v d
  failed : ∀ c ∈ run, c.answer = .failed → c.kept = c.offered

/-- One call that tells no lies about versions. -/
structure Reader.Honest (c : Call V I) : Prop where
  unchanged : c.answer = .unchanged → r.version c.input = some c.offered ∧ c.kept = c.offered
  delivered : c.answer = .delivered → r.version c.input = some c.kept
  failed : c.answer = .failed → c.kept = c.offered

variable {r}

theorem calls_offered {v : V} {is : List I} {c : Call V I} (h : c ∈ r.calls v is) :
    c.answer = (r.call c.offered c.input).1 ∧ c.kept = (r.call c.offered c.input).2 ∧
      c.input ∈ is := by
  induction is generalizing v with
  | nil => cases h
  | cons i is ih =>
    rcases List.mem_cons.mp h with rfl | later
    · exact ⟨rfl, rfl, List.mem_cons_self⟩
    · obtain ⟨answer, kept, input⟩ := ih later
      exact ⟨answer, kept, List.mem_cons_of_mem i input⟩

/-- The version a reader keeps in a run of honest calls is the one it began with
or one that has been delivered to it. -/
theorem unchanged_delivered {v₀ v : V} {is : List I} (before : List (Call V I))
    (honest : ∀ c ∈ r.calls v is, r.Honest c) (new : ∀ i ∈ is, r.version i ≠ some v₀)
    (origin : v = v₀ ∨ ∃ d ∈ before, r.Delivers v d) :
    ∀ earlier c later, r.calls v is = earlier ++ c :: later → c.answer = .unchanged →
      ∃ w, r.version c.input = some w ∧ ∃ d ∈ before ++ earlier, r.Delivers w d := by
  induction is generalizing v before with
  | nil =>
    intro earlier c later split
    simp [Reader.calls] at split
  | cons i is ih =>
    intro earlier c later split unchanged
    have now := honest _ List.mem_cons_self
    cases earlier with
    | nil =>
      obtain ⟨rfl, rfl⟩ := List.cons.inj split
      obtain ⟨current, _⟩ := now.unchanged unchanged
      rcases origin with rfl | delivered
      · exact absurd current (new i List.mem_cons_self)
      · exact ⟨v, current, by simpa using delivered⟩
    | cons e earlier =>
      obtain ⟨rfl, rest⟩ := List.cons.inj split
      -- the call at the front is one more place the kept version can come from
      have carried : ∀ e, v = v₀ ∨ ∃ d ∈ before ++ [e], r.Delivers v d := by
        intro e
        rcases origin with same | ⟨d, hd, delivers⟩
        · exact .inl same
        · exact .inr ⟨d, List.mem_append_left _ hd, delivers⟩
      have next : (r.call v i).2 = v₀ ∨
          ∃ d ∈ before ++ [⟨v, i, (r.call v i).1, (r.call v i).2⟩], r.Delivers (r.call v i).2 d := by
        cases answer : (r.call v i).1 with
        | delivered =>
          right
          exact ⟨⟨v, i, .delivered, (r.call v i).2⟩, by simp, rfl, now.delivered answer⟩
        | unchanged =>
          have same : (r.call v i).2 = v := (now.unchanged answer).2
          rw [same]
          exact carried _
        | failed =>
          have same : (r.call v i).2 = v := now.failed answer
          rw [same]
          exact carried _
      have whole := ih _ (fun c hc => honest c (List.mem_cons_of_mem _ hc))
        (fun j hj => new j (List.mem_cons_of_mem i hj)) next earlier c later rest unchanged
      simpa using whole

/-- **Honest calls make a truthful run**, from a version that no call finds. -/
theorem truthful_of_honest {v₀ : V} {is : List I} (new : ∀ i ∈ is, r.version i ≠ some v₀)
    (honest : ∀ c ∈ r.calls v₀ is, r.Honest c) : r.Truthful (r.calls v₀ is) where
  unchanged earlier c later split unchanged := by
    simpa using unchanged_delivered [] honest new (.inl rfl) earlier c later split unchanged
  failed c hc failed := (honest c hc).failed failed

end

end Revalidation
