import Mathlib.Logic.Basic
import Mathlib.Tactic.ByContra
import Xposed.Safemode.Sequence

/-!
# Events that arrive together

The same events in other batches. Both loops go on to the end of a batch, so
two presses that one wait delivers are not handled as two presses one after the
other: the first loop keeps only the last of them, and the second one still
judges those behind the fifth press.
-/

namespace Xposed.Safemode

/-- The events that the waits deliver while time remains. -/
def arrivals (expiration : Timespec) (waits : List Wait) : List Ready :=
  (waits.takeWhile (Wait.begins expiration)).flatMap Wait.ready

/-- One way of delivering events: no call fails, a wait delivers at most one
event of each device, and the clock does not go back. -/
structure Input.Delivers (e : Input) : Prop extends e.Polls where
  apart : ∀ w ∈ e.waits, (w.ready.map Ready.fd).Nodup
  opened : ∀ w ∈ e.waits, ∀ r ∈ w.ready, r.fd < e.fds.length
  clock : e.start.tv_sec ≤ e.restart.tv_sec

/-- The same devices, and the same events in the same order in each window. -/
structure SameEvents (e₁ e₂ : Input) : Prop where
  opendir : e₁.opendir = e₂.opendir
  initial : arrivals e₁.initialExpiration e₁.waits = arrivals e₂.initialExpiration e₂.waits
  further : arrivals e₁.furtherExpiration e₁.waits = arrivals e₂.furtherExpiration e₂.waits

/-- All presses in time, in their order, a key held down being the first. -/
def Input.presses (e : Input) : List Int :=
  e.held ++ (arrivals e.furtherExpiration e.waits).filterMap Ready.press

/-- The presses up to the fifth are of one key. -/
def Input.OneKey (e : Input) : Prop := ∃ K, e.presses.take 5 = List.replicate 5 K

/-! ## What the windows hold -/

theorem tdiv_le {a b c : Int} (h : a ≤ b + c * 1000000) :
    a.tdiv 1000000 ≤ b.tdiv 1000000 + c + 1 := by
  have one : Int.sign 1000000 = 1 := rfl
  rw [Int.tdiv_eq_ediv, Int.tdiv_eq_ediv, one]
  split <;> split <;> omega

/-- Time that remains of the first window remains of the second one. -/
theorem begins_further {e : Input} (clock : e.start.tv_sec ≤ e.restart.tv_sec) {w : Wait}
    (h : w.begins e.initialExpiration = true) : w.begins e.furtherExpiration = true := by
  have s := e.start.below
  have r := e.restart.nonneg
  have wider := tdiv_le (a := e.start.tv_nsec - w.now.tv_nsec)
    (b := e.restart.tv_nsec - w.now.tv_nsec) (c := 1000) (by omega)
  simp only [Wait.begins, getRemainingTime, Input.initialExpiration, Input.furtherExpiration,
    Timespec.expire, INITIAL_DELAY, DETECTION_TIMEOUT, gt_iff_lt, decide_eq_true_eq] at h ⊢
  split at h
  · omega
  · split <;> omega

theorem filterMap_arrivals (expiration : Timespec) (waits : List Wait) :
    (arrivals expiration waits).filterMap Ready.press = (batches expiration waits).flatten := by
  unfold arrivals batches
  rw [List.filterMap_flatMap, List.flatMap_def]
  rfl

theorem FirstPress.presses_eq {initial further : Timespec} {waits behind : List Wait} {w : Wait}
    (wider : ∀ v : Wait, v.begins initial = true → v.begins further = true)
    (first : FirstPress initial waits w behind) :
    (batches further waits).flatten = w.presses ++ (batches further behind).flatten := by
  obtain ⟨before, split, quiet, begun, _⟩ := first
  have all : ∀ v ∈ before, v.begins further = true := fun v hv => wider v (quiet v hv).1
  have silent : (before.map Wait.presses).flatten = [] := by
    rw [List.flatten_eq_nil_iff]
    intro b hb
    obtain ⟨v, hv, rfl⟩ := List.mem_map.mp hb
    exact (quiet v hv).2
  unfold batches
  rw [split, List.takeWhile_append_of_pos all, List.takeWhile_cons_of_pos (wider w begun)]
  simp [silent]

/-- A first press is found if the first window has a press, however it is cut. -/
theorem first_press_iff (expiration : Timespec) (waits : List Wait) :
    (∃ w behind, FirstPress expiration waits w behind) ↔
      (arrivals expiration waits).filterMap Ready.press ≠ [] := by
  rw [filterMap_arrivals]
  induction waits with
  | nil =>
    constructor
    · rintro ⟨w, behind, before, split, _⟩
      simp at split
    · intro h
      exact absurd rfl h
  | cons v rest ih =>
    by_cases begun : v.begins expiration = true
    · have shown : batches expiration (v :: rest) = v.presses :: batches expiration rest := by
        simp [batches, begun]
      rw [shown, List.flatten_cons]
      by_cases empty : v.presses = []
      · rw [empty, List.nil_append, ← ih]
        simp only [FirstPress.cons_of_empty begun empty]
      · constructor
        · intro _ h
          exact empty (List.append_eq_nil_iff.mp h).1
        · intro _
          exact ⟨v, rest, (FirstPress.cons_of_press begun empty).mpr ⟨rfl, rfl⟩⟩
    · have late : v.begins expiration = false := by simpa using begun
      constructor
      · rintro ⟨w, behind, first⟩
        exact absurd first (FirstPress.not_late late)
      · intro h
        simp [batches, late] at h

/-- The counting starts at all, however the events are cut. -/
def Input.Starts (e : Input) (skipInitialDelay : Bool) : Prop :=
  (∃ K, e.held = [K]) ∨ e.held = [] ∧ skipInitialDelay = false ∧
    (arrivals e.initialExpiration e.waits).filterMap Ready.press ≠ []

theorem starts_iff (e : Input) (skipInitialDelay : Bool) :
    e.Starts skipInitialDelay ↔ ∃ opening behind, e.Opens skipInitialDelay opening behind := by
  unfold Input.Starts
  rw [← first_press_iff]
  constructor
  · rintro (⟨K, down⟩ | ⟨down, skips, w, behind, first⟩)
    · exact ⟨[K], e.waits, .held down⟩
    · exact ⟨w.presses, behind, .pressed down skips first⟩
  · rintro ⟨opening, behind, opens⟩
    cases opens with
    | held down => exact .inl ⟨_, down⟩
    | pressed down skips first => exact .inr ⟨down, skips, _, _, first⟩

namespace SameEvents

variable {e₁ e₂ : Input} (same : SameEvents e₁ e₂)
include same

theorem fds : e₁.fds = e₂.fds := by
  unfold Input.fds
  rw [same.opendir]

theorem held : e₁.held = e₂.held := by
  unfold Input.held
  rw [same.fds]

theorem presses : e₁.presses = e₂.presses := by
  unfold Input.presses
  rw [same.held, same.further]

theorem starts (skipInitialDelay : Bool) :
    e₁.Starts skipInitialDelay ↔ e₂.Starts skipInitialDelay := by
  unfold Input.Starts
  rw [same.held, same.initial]

end SameEvents

/-! ## The opening batch -/

theorem openEntries_length (max_fds : Nat) (entries fds : List Dirent) (pressedKey : Int)
    (h : fds.length ≤ max_fds) :
    (openEntries max_fds entries fds pressedKey).1.length ≤ max_fds := by
  induction entries generalizing fds pressedKey with
  | nil => exact h
  | cons de rest ih =>
    unfold openEntries
    split
    · split
      · exact ih fds pressedKey h
      · apply ih
        rw [List.length_append, List.length_singleton]
        omega
    · exact h

theorem fds_length (e : Input) : e.fds.length ≤ MAX_DEVICES := by
  unfold Input.fds openKeyDevices
  split
  · exact Nat.zero_le _
  · exact openEntries_length MAX_DEVICES _ [] 0 (Nat.zero_le _)

/-- A batch has no more events than there are devices. -/
theorem Input.Delivers.ready_length {e : Input} (delivers : e.Delivers) {w : Wait}
    (hw : w ∈ e.waits) : w.ready.length ≤ MAX_DEVICES := by
  have inside : w.ready.map Ready.fd ⊆ List.range e.fds.length := by
    intro fd h
    obtain ⟨r, hr, rfl⟩ := List.mem_map.mp h
    exact List.mem_range.mpr (delivers.opened w hw r hr)
  have few := (delivers.apart w hw).length_le_of_subset inside
  rw [List.length_map, List.length_range] at few
  exact Nat.le_trans few (fds_length e)

theorem Input.Delivers.opening_length {e : Input} (delivers : e.Delivers)
    {skipInitialDelay : Bool} {opening : List Int} {behind : List Wait}
    (opens : e.Opens skipInitialDelay opening behind) : opening.length ≤ 4 := by
  cases opens with
  | held _ => exact Nat.le_add_left 1 3
  | @pressed w _ _ _ first =>
    obtain ⟨before, split, _⟩ := first
    have hw : w ∈ e.waits := by rw [split]; simp
    exact Nat.le_trans (List.length_filterMap_le Ready.press w.ready) (delivers.ready_length hw)

theorem Input.Delivers.presses_eq {e : Input} (delivers : e.Delivers) {skipInitialDelay : Bool}
    {opening : List Int} {behind : List Wait} (opens : e.Opens skipInitialDelay opening behind) :
    e.presses = opening ++ (batches e.furtherExpiration behind).flatten := by
  unfold Input.presses
  rw [filterMap_arrivals]
  cases opens with
  | held down => rw [down]
  | pressed down _ first =>
    rw [down, List.nil_append]
    exact first.presses_eq fun v => begins_further delivers.clock

theorem Input.Delivers.fds_ne_nil {e : Input} (delivers : e.Delivers) {skipInitialDelay : Bool}
    {opening : List Int} {behind : List Wait} (opens : e.Opens skipInitialDelay opening behind) :
    e.fds ≠ [] := by
  intro none
  cases opens with
  | held down => simp [Input.held, none] at down
  | @pressed w _ _ _ first =>
    obtain ⟨before, split, _, _, press⟩ := first
    have hw : w ∈ e.waits := by rw [split]; simp
    apply press
    unfold Wait.presses
    cases ready : w.ready with
    | nil => rfl
    | cons r rest =>
      have inside := delivers.opened w hw r (by rw [ready]; exact List.mem_cons_self)
      rw [none] at inside
      exact absurd inside (Nat.not_lt_zero _)

theorem FirstPress.unique {expiration : Timespec} {waits behind behind' : List Wait} {w w' : Wait}
    (first : FirstPress expiration waits w behind)
    (first' : FirstPress expiration waits w' behind') : w = w' ∧ behind = behind' := by
  induction waits with
  | nil =>
    obtain ⟨before, split, _⟩ := first
    simp at split
  | cons v rest ih =>
    by_cases begun : v.begins expiration = true
    · by_cases empty : v.presses = []
      · rw [FirstPress.cons_of_empty begun empty] at first first'
        exact ih first first'
      · rw [FirstPress.cons_of_press begun empty] at first first'
        obtain ⟨rfl, rfl⟩ := first
        exact ⟨first'.1.symm, first'.2.symm⟩
    · exact absurd first (FirstPress.not_late (by simpa using begun))

theorem Input.Opens.unique {e : Input} {skipInitialDelay : Bool} {opening opening' : List Int}
    {behind behind' : List Wait} (opens : e.Opens skipInitialDelay opening behind)
    (opens' : e.Opens skipInitialDelay opening' behind') :
    opening = opening' ∧ behind = behind' := by
  cases opens with
  | held down =>
    cases opens' with
    | held down' =>
      rw [down] at down'
      exact ⟨down', rfl⟩
    | pressed down' _ _ => simp [down] at down'
  | pressed down _ first =>
    cases opens' with
    | held down' => simp [down] at down'
    | pressed _ _ first' =>
      obtain ⟨rfl, rfl⟩ := first.unique first'
      exact ⟨rfl, rfl⟩

theorem Input.Opens.ne_nil {e : Input} {skipInitialDelay : Bool} {opening : List Int}
    {behind : List Wait} (opens : e.Opens skipInitialDelay opening behind) : opening ≠ [] := by
  cases opens with
  | held _ => simp
  | pressed _ _ first =>
    obtain ⟨_, _, _, _, press⟩ := first
    exact press

/-! ## When a cut matters -/

/-- The opening batch has presses of different keys, and the last of them is
then pressed four times more, with no other key up to the end of the batch that
has the fourth. -/
def Input.Mixed (e : Input) (skipInitialDelay : Bool) : Prop :=
  ∃ opening behind K, e.Opens skipInitialDelay opening behind ∧ opening.getLast? = some K ∧
    (∃ k ∈ opening, k ≠ K) ∧ Completes 4 K (batches e.furtherExpiration behind)

/-- The first five presses are of one key, but fewer than four come behind the
opening batch, or one of another key comes no later than in the batch that has
the fourth. -/
def Input.Starved (e : Input) (skipInitialDelay : Bool) : Prop :=
  ∃ opening behind K, e.Opens skipInitialDelay opening behind ∧
    e.presses.take 5 = List.replicate 5 K ∧
    ∀ entries, upTo 4 (batches e.furtherExpiration behind) = some entries → ∃ k ∈ entries, k ≠ K

theorem upTo_spec {n : Nat} {bs : List (List Int)} {entries : List Int}
    (h : upTo n bs = some entries) : entries <+: bs.flatten ∧ n ≤ entries.length := by
  induction bs generalizing n entries with
  | nil => cases h
  | cons b bs ih =>
    rw [upTo] at h
    split at h
    · rename_i enough
      rw [Option.some.injEq] at h
      subst h
      exact ⟨List.prefix_append b bs.flatten, enough⟩
    · obtain ⟨later, rest, rfl⟩ := Option.map_eq_some_iff.mp h
      obtain ⟨front, enough⟩ := ih rest
      rw [List.flatten_cons, List.length_append]
      exact ⟨(List.prefix_append_right_inj b).mpr front, by omega⟩

theorem Completes.take_eq {n : Nat} {K : Int} {bs : List (List Int)} (h : Completes n K bs) :
    bs.flatten.take n = List.replicate n K := by
  obtain ⟨entries, hbs, only⟩ := h
  obtain ⟨⟨behind, front⟩, enough⟩ := upTo_spec hbs
  rw [← front, List.take_append_of_le_length enough, List.eq_replicate_iff, List.length_take]
  exact ⟨by omega, fun k hk => only k (List.mem_of_mem_take hk)⟩

namespace Input.Delivers

variable {e : Input} (delivers : e.Delivers) {skipInitialDelay : Bool} {opening : List Int}
  {behind : List Wait} (opens : e.Opens skipInitialDelay opening behind) {K : Int}
include delivers opens

/-- A batch being shorter than five, all of the opening presses are among the
first five. -/
theorem opening_eq_of_oneKey {K' : Int} (h : e.presses.take 5 = List.replicate 5 K') :
    ∀ k ∈ opening, k = K' := by
  intro k hk
  have short := delivers.opening_length opens
  have among : k ∈ e.presses.take 5 := by
    rw [delivers.presses_eq opens, List.take_append, List.take_of_length_le (by omega)]
    exact List.mem_append_left _ hk
  rw [h] at among
  exact List.eq_of_mem_replicate among

theorem oneKey_of_completes (uniform : ∀ k ∈ opening, k = K)
    (completes : Completes 4 K (batches e.furtherExpiration behind)) : e.OneKey := by
  refine ⟨K, ?_⟩
  have four := completes.take_eq
  have short := delivers.opening_length opens
  have some := List.length_pos_iff.mpr opens.ne_nil
  rw [delivers.presses_eq opens, List.eq_replicate_iff, List.length_take, List.length_append]
  have enough := congrArg List.length four
  rw [List.length_take, List.length_replicate] at enough
  refine ⟨by omega, ?_⟩
  intro k hk
  rw [List.take_append, List.take_of_length_le (by omega)] at hk
  rcases List.mem_append.mp hk with first | later
  · exact uniform k first
  · have among : k ∈ (batches e.furtherExpiration behind).flatten.take 4 :=
      (List.take_sublist_take_left (by omega)).subset later
    rw [four] at among
    exact List.eq_of_mem_replicate among

section last

variable (last : opening.getLast? = some K)
include last

theorem detects_iff_completes :
    detectSafemodeTrigger e skipInitialDelay = true ↔
      Completes 4 K (batches e.furtherExpiration behind) := by
  rw [detects_iff delivers.toPolls]
  constructor
  · rintro ⟨_, opening', behind', K', opens', last', completes⟩
    obtain ⟨rfl, rfl⟩ := opens.unique opens'
    rw [last, Option.some.injEq] at last'
    rw [last']
    exact completes
  · intro completes
    exact ⟨delivers.fds_ne_nil opens, opening, behind, K, opens, last, completes⟩

theorem mixed_iff :
    e.Mixed skipInitialDelay ↔
      Completes 4 K (batches e.furtherExpiration behind) ∧ ¬ e.OneKey := by
  constructor
  · rintro ⟨opening', behind', K', opens', last', ⟨k, hk, other⟩, completes⟩
    obtain ⟨rfl, rfl⟩ := opens.unique opens'
    rw [last, Option.some.injEq] at last'
    subst last'
    refine ⟨completes, ?_⟩
    rintro ⟨K', alike⟩
    have uniform := delivers.opening_eq_of_oneKey opens alike
    rw [uniform k hk, uniform K (List.mem_of_getLast? last)] at other
    exact other rfl
  · rintro ⟨completes, different⟩
    refine ⟨opening, behind, K, opens, last, ?_, completes⟩
    by_contra none
    have uniform : ∀ k ∈ opening, k = K := by
      intro k hk
      by_contra other
      exact none ⟨k, hk, other⟩
    exact different (delivers.oneKey_of_completes opens uniform completes)

theorem starved_iff :
    e.Starved skipInitialDelay ↔
      e.OneKey ∧ ¬ Completes 4 K (batches e.furtherExpiration behind) := by
  constructor
  · rintro ⟨opening', behind', K', opens', alike, breaks⟩
    obtain ⟨rfl, rfl⟩ := opens.unique opens'
    refine ⟨⟨K', alike⟩, ?_⟩
    rintro ⟨entries, h, only⟩
    obtain ⟨k, hk, other⟩ := breaks entries h
    have counted := delivers.opening_eq_of_oneKey opens alike K (List.mem_of_getLast? last)
    exact other ((only k hk).trans counted)
  · rintro ⟨⟨K', alike⟩, incomplete⟩
    have counted := delivers.opening_eq_of_oneKey opens alike K (List.mem_of_getLast? last)
    subst counted
    refine ⟨opening, behind, K, opens, alike, ?_⟩
    intro entries h
    by_contra none
    refine incomplete ⟨entries, h, fun k hk => ?_⟩
    by_contra other
    exact none ⟨k, hk, other⟩

end last

end Input.Delivers

/-- Unless the counting starts, no batches matter. -/
theorem not_starts {e : Input} (polls : e.Polls) {skipInitialDelay : Bool}
    (never : ¬ e.Starts skipInitialDelay) :
    detectSafemodeTrigger e skipInitialDelay = false ∧ ¬ e.Mixed skipInitialDelay ∧
      ¬ e.Starved skipInitialDelay := by
  rw [starts_iff] at never
  refine ⟨?_, ?_, ?_⟩
  · rw [← Bool.not_eq_true, detects_iff polls]
    rintro ⟨_, opening, behind, _, opens, _⟩
    exact never ⟨opening, behind, opens⟩
  · rintro ⟨opening, behind, _, opens, _⟩
    exact never ⟨opening, behind, opens⟩
  · rintro ⟨opening, behind, _, opens, _⟩
    exact never ⟨opening, behind, opens⟩

/-- Where no wait delivers two presses, nothing is mixed or starved. -/
theorem Input.Delivers.fair_of_single {e : Input} (delivers : e.Delivers)
    (one : ∀ w ∈ e.waits, w.presses.length ≤ 1) (skipInitialDelay : Bool) :
    ¬ e.Mixed skipInitialDelay ∧ ¬ e.Starved skipInitialDelay := by
  by_cases starts : e.Starts skipInitialDelay
  · obtain ⟨opening, behind, opens⟩ := (starts_iff e _).mp starts
    have single : ∃ K, opening = [K] := by
      apply List.length_eq_one_iff.mp
      have some := List.length_pos_iff.mpr opens.ne_nil
      cases opens with
      | held _ => rfl
      | @pressed w _ _ _ first =>
        obtain ⟨before, split, _⟩ := first
        have := one w (by rw [split]; simp)
        omega
    obtain ⟨K, rfl⟩ := single
    have short : ∀ b ∈ batches e.furtherExpiration behind, b.length ≤ 1 := by
      intro b hb
      obtain ⟨w, hw, rfl⟩ := List.mem_map.mp hb
      exact one w (opens.subset w (List.takeWhile_subset _ hw))
    have decided : e.OneKey ↔ Completes 4 K (batches e.furtherExpiration behind) := by
      rw [completes_singles (by decide) short]
      unfold Input.OneKey
      rw [delivers.presses_eq opens]
      constructor
      · rintro ⟨K', alike⟩
        rw [List.singleton_append, List.take_succ_cons, List.replicate_succ, List.cons.injEq] at alike
        obtain ⟨rfl, four⟩ := alike
        exact four
      · intro four
        refine ⟨K, ?_⟩
        rw [List.singleton_append, List.take_succ_cons, four, ← List.replicate_succ]
    rw [delivers.mixed_iff opens rfl, delivers.starved_iff opens rfl, decided]
    exact ⟨fun h => h.2 h.1, fun h => h.2 h.1⟩
  · exact (not_starts delivers.toPolls starts).2

/-- Two deliveries of the same events decide alike, and only for presses of one
key, exactly if neither of them is mixed and both or none are starved. -/
theorem same_decision_iff {e₁ e₂ : Input} (skipInitialDelay : Bool) (d₁ : e₁.Delivers)
    (d₂ : e₂.Delivers) (same : SameEvents e₁ e₂) :
    (detectSafemodeTrigger e₁ skipInitialDelay = detectSafemodeTrigger e₂ skipInitialDelay ∧
      (detectSafemodeTrigger e₁ skipInitialDelay = true → e₁.OneKey) ∧
      (detectSafemodeTrigger e₂ skipInitialDelay = true → e₂.OneKey)) ↔
    ¬ e₁.Mixed skipInitialDelay ∧ ¬ e₂.Mixed skipInitialDelay ∧
      (e₁.Starved skipInitialDelay ↔ e₂.Starved skipInitialDelay) := by
  have alike : e₁.OneKey ↔ e₂.OneKey := by
    unfold Input.OneKey
    rw [same.presses]
  by_cases starts : e₁.Starts skipInitialDelay
  · obtain ⟨o₁, b₁, opens₁⟩ := (starts_iff e₁ _).mp starts
    obtain ⟨o₂, b₂, opens₂⟩ := (starts_iff e₂ _).mp ((same.starts _).mp starts)
    have last₁ := List.getLast?_eq_some_getLast opens₁.ne_nil
    have last₂ := List.getLast?_eq_some_getLast opens₂.ne_nil
    rw [d₁.mixed_iff opens₁ last₁, d₂.mixed_iff opens₂ last₂, d₁.starved_iff opens₁ last₁,
      d₂.starved_iff opens₂ last₂, Bool.eq_iff_iff, d₁.detects_iff_completes opens₁ last₁,
      d₂.detects_iff_completes opens₂ last₂, alike]
    -- what is left is about four propositions
    by_cases one : e₂.OneKey
    · simp only [one, implies_true, and_true, not_true_eq_false, and_false, not_false_eq_true,
        true_and, not_iff_not]
    · simp only [one, imp_false, not_false_eq_true, and_true, false_and]
      constructor
      · rintro ⟨_, no₁, no₂⟩
        exact ⟨no₁, no₂⟩
      · rintro ⟨no₁, no₂⟩
        exact ⟨iff_of_false no₁ no₂, no₁, no₂⟩
  · obtain ⟨f₁, m₁, s₁⟩ := not_starts d₁.toPolls starts
    obtain ⟨f₂, m₂, s₂⟩ := not_starts d₂.toPolls (fun h => starts ((same.starts _).mpr h))
    simp [f₁, f₂, m₁, m₂, s₁, s₂]

theorem Input.of_delivers {waits : List Wait} (polls : ∀ w ∈ waits, w.poll ≠ none)
    (apart : ∀ w ∈ waits, (w.ready.map Ready.fd).Nodup)
    (opened : ∀ w ∈ waits, ∀ r ∈ w.ready, r.fd < 2) : (Input.of waits).Delivers :=
  ⟨⟨rfl, fun _ _ => rfl, polls⟩, apart, opened, Int.one_nonneg⟩

/-- Volume up on both devices, five times in all. -/
def volumeTogether : Input :=
  .of [.after 1 [.key 0 115 1, .key 1 115 0], .after 2 [.key 1 115 1, .key 0 115 0],
    .after 3 [.key 0 115 1], .after 4 [.key 0 115 1, .key 1 114 0], .after 5 [.key 1 115 1]]

def volumeApart : Input :=
  .of [.after 1 [.key 0 115 1], .after 1 [.key 1 115 0], .after 2 [.key 1 115 1],
    .after 2 [.key 0 115 0], .after 3 [.key 0 115 1],
    .after 4 [.key 0 115 1], .after 4 [.key 1 114 0], .after 5 [.key 1 115 1]]

theorem volume_decides_alike :
    ¬ volumeTogether.Mixed false ∧ ¬ volumeApart.Mixed false ∧
      (volumeTogether.Starved false ↔ volumeApart.Starved false) := by
  have together : volumeTogether.Delivers := Input.of_delivers (by decide) (by decide) (by decide)
  have apart : volumeApart.Delivers := Input.of_delivers (by decide) (by decide) (by decide)
  have same : SameEvents volumeTogether volumeApart := ⟨rfl, by decide, by decide⟩
  exact (same_decision_iff false together apart same).mp
    ⟨by decide, fun _ => ⟨115, by decide⟩, fun _ => ⟨115, by decide⟩⟩

/-- Power on one device and volume up on the other one, then volume up four
times. -/
def powerAndVolume (first : List Wait) : Input :=
  .of (first ++ [.after 2 [.key 1 115 1], .after 3 [.key 1 115 1], .after 4 [.key 1 115 1],
    .after 5 [.key 1 115 1]])

def arrivingTogether : Input := powerAndVolume [.after 1 [.key 0 116 1, .key 1 115 1]]

def arrivingApart : Input := powerAndVolume [.after 1 [.key 0 116 1], .after 1 [.key 1 115 1]]

/-- The press of power goes unnoticed when it arrives together with the first
one of volume up. -/
theorem arriving_together_hides_a_press :
    arrivingTogether.Delivers ∧ arrivingApart.Delivers ∧
      SameEvents arrivingTogether arrivingApart ∧
      detectSafemodeTrigger arrivingTogether false = true ∧ ¬ arrivingTogether.OneKey ∧
      detectSafemodeTrigger arrivingApart false = false := by
  refine ⟨Input.of_delivers (by decide) (by decide) (by decide),
    Input.of_delivers (by decide) (by decide) (by decide), ⟨rfl, by decide, by decide⟩,
    by decide, ?_, by decide⟩
  rintro ⟨K, alike⟩
  have seen : arrivingTogether.presses.take 5 = [116, 115, 115, 115, 115] := by decide
  rw [seen] at alike
  simp only [List.replicate_succ, List.cons.injEq] at alike
  omega

end Xposed.Safemode
