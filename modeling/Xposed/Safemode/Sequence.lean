import Xposed.Safemode.Detection

/-!
# What triggers safemode

The two loops in terms of the presses that each wait delivers, in whatever
batches. With one event a wait, these are the presses one after the other.
-/

namespace Xposed.Safemode

def Wait.ready (w : Wait) : List Ready := w.poll.getD []

/-- The presses of physical keys that a wait delivers. -/
def Wait.presses (w : Wait) : List Int := w.ready.filterMap Ready.press

theorem press_physical {r : Ready} {k : Int} (h : r.press = some k) : k ∈ physical_keycodes := by
  unfold Ready.press at h
  split at h
  · cases h
  · split at h
    · cases h
    · split at h
      · cases h
      · exact List.mem_of_find?_eq_some h

theorem Wait.presses_physical {w : Wait} {k : Int} (h : k ∈ w.presses) : k ∈ physical_keycodes := by
  obtain ⟨r, _, hr⟩ := List.mem_filterMap.mp h
  exact press_physical hr

theorem physical_pos {k : Int} (h : k ∈ physical_keycodes) : 0 < k := by
  simp only [physical_keycodes, List.mem_cons, List.not_mem_nil, or_false] at h
  rcases h with h | h | h | h | h | h | h <;> subst h <;> decide

/-! ## The keys held down -/

/-- What `*pressedKey` says of the keys found down. -/
def pressedKeyOf : List Int → Int
  | [] => 0
  | [k] => k
  | _ => -1

theorem pressedKeyOf_append (down : List Int) (k : Int) (physical : ∀ k ∈ down, 0 < k) :
    pressedKeyOf (down ++ [k]) = if pressedKeyOf down == 0 then k else -1 := by
  cases down with
  | nil => rfl
  | cons a rest =>
    have pos := physical a List.mem_cons_self
    cases rest with
    | nil =>
      have : ¬ a = 0 := by omega
      simp [pressedKeyOf, this]
    | cons b rest => simp [pressedKeyOf]

theorem readPressed_eq (pressed : KeyBitmask) (keys down : List Int)
    (pos : ∀ k ∈ down, 0 < k) (physical : ∀ k ∈ keys, 0 < k) :
    readPressed pressed keys (pressedKeyOf down) = pressedKeyOf (down ++ keys.filter pressed) := by
  induction keys generalizing down with
  | nil => simp [readPressed]
  | cons k ks ih =>
    have pos' : ∀ x ∈ down ++ [k], 0 < x := by
      intro x hx
      rcases List.mem_append.mp hx with old | new
      · exact pos x old
      · rw [List.mem_singleton.mp new]
        exact physical k List.mem_cons_self
    have later := ih (down ++ [k]) pos' fun x hx => physical x (List.mem_cons_of_mem k hx)
    rw [pressedKeyOf_append down k pos, List.append_assoc, List.singleton_append] at later
    by_cases hk : pressed k
    · simp only [readPressed, hk, if_true, List.filter_cons_of_pos]
      split
      · rename_i none
        rwa [if_pos none] at later
      · rename_i some
        -- two keys are down, whatever the rest of the keys say
        cases down with
        | nil => simp [pressedKeyOf] at some
        | cons a rest => cases rest <;> simp [pressedKeyOf]
    · simp only [readPressed, hk, List.filter_cons_of_neg, Bool.false_eq_true, not_false_eq_true,
        if_false]
      exact ih down pos fun x hx => physical x (List.mem_cons_of_mem k hx)

theorem held_pos {fds : List Dirent} {k : Int} (h : k ∈ fds.flatMap Dirent.held) : 0 < k := by
  obtain ⟨de, _, hk⟩ := List.mem_flatMap.mp h
  exact physical_pos (List.mem_filter.mp hk).1

theorem openEntries_pressedKey (max_fds : Nat) (entries fds : List Dirent) :
    (openEntries max_fds entries fds (pressedKeyOf (fds.flatMap Dirent.held))).2 =
      pressedKeyOf ((openEntries max_fds entries fds
        (pressedKeyOf (fds.flatMap Dirent.held))).1.flatMap Dirent.held) := by
  induction entries generalizing fds with
  | nil => rfl
  | cons de rest ih =>
    unfold openEntries
    split
    · split
      · exact ih fds
      · have add := readPressed_eq de.pressed physical_keycodes (fds.flatMap Dirent.held)
          (fun _ h => held_pos h) fun _ h => physical_pos h
        have grown : fds.flatMap Dirent.held ++ physical_keycodes.filter de.pressed =
            (fds ++ [de]).flatMap Dirent.held := by simp [Dirent.held]
        rw [add, grown]
        exact ih (fds ++ [de])
    · rfl

/-- The devices that stay open. -/
def Input.fds (e : Input) : List Dirent := (openKeyDevices e.opendir).1

/-- The keys held down when the devices are opened, each on its device. -/
def Input.held (e : Input) : List Int := e.fds.flatMap Dirent.held

theorem down_pos {e : Input} {k : Int} (h : k ∈ e.held) : 0 < k := held_pos h

theorem openKeyDevices_pressedKey (e : Input) :
    (openKeyDevices e.opendir).2 = pressedKeyOf e.held := by
  unfold Input.held Input.fds openKeyDevices
  split
  · rfl
  · exact openEntries_pressedKey MAX_DEVICES _ []

/-- The key is held down on one of the devices. -/
def HeldOn (devices : List Dirent) (k : Int) : Prop := ∃ de ∈ devices, k ∈ de.held

theorem held_nodup (de : Dirent) : de.held.Nodup :=
  List.Pairwise.filter _ (by decide : physical_keycodes.Nodup)

theorem heldOn_iff {devices : List Dirent} {k : Int} :
    HeldOn devices k ↔ k ∈ devices.flatMap Dirent.held :=
  List.mem_flatMap.symm

/-- A single key is counted once for each device that it is held on. -/
theorem held_length {devices : List Dirent} {k : Int} (only : ∀ k', HeldOn devices k' → k' = k) :
    (devices.flatMap Dirent.held).length = devices.countP fun de => k ∈ de.held := by
  induction devices with
  | nil => rfl
  | cons de rest ih =>
    have first : ∀ k' ∈ de.held, k' = k := fun k' h => only k' ⟨de, List.mem_cons_self, h⟩
    have later := ih fun k' ⟨de', member, h⟩ => only k' ⟨de', List.mem_cons_of_mem de member, h⟩
    rw [List.flatMap_cons, List.length_append, later]
    have once := held_nodup de
    cases held : de.held with
    | nil => simp [held]
    | cons a more =>
      rw [held] at first once
      obtain rfl := first a List.mem_cons_self
      have alone : more = [] := by
        apply List.eq_nil_iff_forall_not_mem.mpr
        intro b member
        obtain rfl := first b (List.mem_cons_of_mem a member)
        exact (List.nodup_cons.mp once).1 member
      subst alone
      simp [held, Nat.add_comm]

theorem pressedKeyOf_several {down : List Int} (h : 1 < down.length) : pressedKeyOf down = -1 := by
  match down with
  | a :: b :: rest => rfl

/-! ## One batch -/

theorem readInitial_eq (ready : List Ready) (pressedKey : Int) :
    readInitial ready pressedKey = (ready.filterMap Ready.press).getLastD pressedKey := by
  induction ready generalizing pressedKey with
  | nil => rfl
  | cons r rest ih =>
    rw [readInitial, ih, List.filterMap_cons]
    cases r.press with
    | none => rfl
    | some k => simp only [Option.getD_some, List.getLastD_cons]

theorem readFurther_eq (pressedKey : Int) (ready : List Ready) (n : Nat) :
    readFurther pressedKey ready n =
      if ∀ k ∈ ready.filterMap Ready.press, k = pressedKey then
        some (n + (ready.filterMap Ready.press).length)
      else none := by
  induction ready generalizing n with
  | nil => simp [readFurther]
  | cons r rest ih =>
    rw [readFurther, List.filterMap_cons]
    cases r.press with
    | none => exact ih n
    | some k =>
      simp only [List.forall_mem_cons, List.length_cons]
      by_cases same : pressedKey = k
      · subst same
        simp only [beq_self_eq_true, if_true, true_and, ih]
        simp only [Nat.add_assoc, Nat.add_comm 1]
      · have other : ¬ k = pressedKey := fun h => same h.symm
        simp [same, other]

/-! ## The first loop -/

/-- The first wait that delivers a press, all of them made while time remains. -/
def FirstPress (expiration : Timespec) (waits : List Wait) (w : Wait) (behind : List Wait) : Prop :=
  ∃ before, waits = before ++ w :: behind ∧
    (∀ v ∈ before, v.begins expiration = true ∧ v.presses = []) ∧
    w.begins expiration = true ∧ w.presses ≠ []

section
variable {expiration : Timespec} {v w : Wait} {waits behind : List Wait}

theorem FirstPress.cons_iff :
    FirstPress expiration (v :: waits) w behind ↔ v.begins expiration = true ∧
      (v.presses ≠ [] ∧ w = v ∧ behind = waits ∨
        v.presses = [] ∧ FirstPress expiration waits w behind) := by
  constructor
  · rintro ⟨before, split, quiet, wbegun, wpress⟩
    cases before with
    | nil =>
      obtain ⟨rfl, rfl⟩ := List.cons.inj split
      exact ⟨wbegun, .inl ⟨wpress, rfl, rfl⟩⟩
    | cons u before =>
      obtain ⟨rfl, later⟩ := List.cons.inj split
      obtain ⟨⟨begun, empty⟩, still⟩ := List.forall_mem_cons.mp quiet
      exact ⟨begun, .inr ⟨empty, before, later, still, wbegun, wpress⟩⟩
  · rintro ⟨begun, ⟨press, rfl, rfl⟩ | ⟨empty, before, rfl, quiet, wbegun, wpress⟩⟩
    · exact ⟨[], rfl, by simp, begun, press⟩
    · have quiet := List.forall_mem_cons.mpr ⟨⟨begun, empty⟩, quiet⟩
      exact ⟨v :: before, rfl, quiet, wbegun, wpress⟩

theorem FirstPress.cons_of_empty (begun : v.begins expiration = true) (empty : v.presses = []) :
    FirstPress expiration (v :: waits) w behind ↔ FirstPress expiration waits w behind := by
  simp [cons_iff, begun, empty]

theorem FirstPress.cons_of_press (begun : v.begins expiration = true) (press : v.presses ≠ []) :
    FirstPress expiration (v :: waits) w behind ↔ w = v ∧ behind = waits := by
  simp [cons_iff, begun, press]

theorem FirstPress.not_late (late : v.begins expiration = false) :
    ¬ FirstPress expiration (v :: waits) w behind := by
  simp [cons_iff, late]

end

/-- A key is pressed: the loop ends at once. -/
theorem initialLoop_pressed (expiration : Timespec) (waits : List Wait) {pressedKey : Int}
    (h : pressedKey ≠ 0) : initialLoop expiration waits pressedKey = some (pressedKey, waits) := by
  cases waits with
  | nil => rfl
  | cons w rest => simp [initialLoop, h]

theorem Wait.poll_eq {w : Wait} (polls : w.poll ≠ none) : w.poll = some w.ready := by
  unfold Wait.ready
  cases h : w.poll with
  | none => exact absurd h polls
  | some ready => rfl

/-- What the first loop hands over: the last press of the first batch that has
one, and the waits behind that batch. -/
theorem initialLoop_iff {expiration : Timespec} {waits behind : List Wait} {K : Int}
    (polls : ∀ w ∈ waits, w.poll ≠ none) (hK : K ≠ 0) :
    initialLoop expiration waits 0 = some (K, behind) ↔
      ∃ w, FirstPress expiration waits w behind ∧ w.presses.getLast? = some K := by
  induction waits with
  | nil =>
    constructor
    · intro h
      simp only [initialLoop, Option.some.injEq, Prod.mk.injEq] at h
      exact absurd h.1.symm hK
    · rintro ⟨w, ⟨before, split, _⟩, _⟩
      simp at split
  | cons v rest ih =>
    have later := ih fun w hw => polls w (List.mem_cons_of_mem v hw)
    rw [initialLoop]
    by_cases begun : v.begins expiration = true
    · simp only [beq_self_eq_true, begun, Bool.and_self, if_true,
        Wait.poll_eq (polls v List.mem_cons_self), readInitial_eq]
      change initialLoop expiration rest (v.presses.getLastD 0) = some (K, behind) ↔ _
      by_cases empty : v.presses = []
      · rw [empty]
        simp only [FirstPress.cons_of_empty begun empty]
        exact later
      · obtain ⟨last, hlast⟩ := Option.ne_none_iff_exists'.mp (mt List.getLast?_eq_none_iff.mp empty)
        have keyed : v.presses.getLastD 0 = last := by
          rw [List.getLastD_eq_getLast?, hlast, Option.getD_some]
        have pos := physical_pos (Wait.presses_physical (List.mem_of_getLast? hlast))
        have nonzero : last ≠ 0 := by omega
        rw [keyed, initialLoop_pressed _ _ nonzero]
        simp only [FirstPress.cons_of_press begun empty]
        constructor
        · intro h
          simp only [Option.some.injEq, Prod.mk.injEq] at h
          exact ⟨v, ⟨rfl, h.2.symm⟩, h.1 ▸ hlast⟩
        · rintro ⟨w, ⟨rfl, rfl⟩, h⟩
          rw [hlast, Option.some.injEq] at h
          rw [h]
    · have late : v.begins expiration = false := by simpa using begun
      simp only [late, Bool.and_false, Bool.false_eq_true, if_false, Option.some.injEq,
        Prod.mk.injEq]
      constructor
      · rintro ⟨h, _⟩
        exact absurd h.symm hK
      · rintro ⟨w, first, _⟩
        exact absurd first (FirstPress.not_late late)

/-! ## The second loop -/

/-- The entries up to the end of the batch with the `n`-th one. `none`: there
are fewer. -/
def upTo (n : Nat) : List (List Int) → Option (List Int)
  | [] => none
  | b :: bs => if n ≤ b.length then some b else (upTo (n - b.length) bs).map (b ++ ·)

/-- The batches up to the one with the `n`-th entry have nothing but `K`. -/
def Completes (n : Nat) (K : Int) (bs : List (List Int)) : Prop :=
  ∃ entries, upTo n bs = some entries ∧ ∀ k ∈ entries, k = K

theorem Completes.not_nil {n : Nat} {K : Int} : ¬ Completes n K [] := by
  rintro ⟨entries, h, _⟩
  cases h

theorem completes_cons {n : Nat} {K : Int} {b : List Int} {bs : List (List Int)} :
    Completes n K (b :: bs) ↔
      (∀ k ∈ b, k = K) ∧ (n ≤ b.length ∨ (b.length < n ∧ Completes (n - b.length) K bs)) := by
  unfold Completes
  rw [upTo]
  by_cases enough : n ≤ b.length
  · rw [if_pos enough]
    simp only [Option.some.injEq, exists_eq_left', enough, true_or, and_true]
  · rw [if_neg enough]
    simp only [Option.map_eq_some_iff, enough, false_or]
    constructor
    · rintro ⟨_, ⟨entries, h, rfl⟩, only⟩
      refine ⟨fun k hk => only k (List.mem_append_left entries hk), by omega, entries, h, ?_⟩
      exact fun k hk => only k (List.mem_append_right b hk)
    · rintro ⟨same, _, entries, h, only⟩
      refine ⟨b ++ entries, ⟨entries, h, rfl⟩, ?_⟩
      intro k hk
      rcases List.mem_append.mp hk with first | later
      · exact same k first
      · exact only k later

/-- The batches of presses that come while time remains. -/
def batches (expiration : Timespec) (waits : List Wait) : List (List Int) :=
  (waits.takeWhile (Wait.begins expiration)).map Wait.presses

/-- A turn of the loop. -/
theorem furtherLoop_cons {expiration : Timespec} {K : Int} {v : Wait} (rest : List Wait) {n : Nat}
    (few : n < DETECTION_PRESSES) (begun : v.begins expiration = true) (polls : v.poll ≠ none) :
    furtherLoop expiration K (v :: rest) n =
      if ∀ k ∈ v.presses, k = K then furtherLoop expiration K rest (n + v.presses.length)
      else none := by
  have all : Wait.presses v = v.ready.filterMap Ready.press := rfl
  simp only [furtherLoop, few, decide_true, begun, Bool.and_self, if_true, Wait.poll_eq polls,
    readFurther_eq, all]
  by_cases same : ∀ k ∈ v.ready.filterMap Ready.press, k = K
  · simp only [if_pos same]
  · simp only [if_neg same]

/-- With enough presses the loop does not go on, whatever is left. -/
theorem furtherLoop_enough {expiration : Timespec} {K : Int} {waits : List Wait} {n : Nat}
    (enough : DETECTION_PRESSES ≤ n) : furtherLoop expiration K waits n = some n := by
  cases waits with
  | nil => rfl
  | cons v rest =>
    have stops : ¬ n < DETECTION_PRESSES := Nat.not_lt.mpr enough
    simp [furtherLoop, stops]

theorem furtherLoop_iff {expiration : Timespec} {K : Int} {waits : List Wait} {n : Nat}
    (polls : ∀ w ∈ waits, w.poll ≠ none) (few : n < DETECTION_PRESSES) :
    (∃ m, furtherLoop expiration K waits n = some m ∧ DETECTION_PRESSES ≤ m) ↔
      Completes (DETECTION_PRESSES - n) K (batches expiration waits) := by
  induction waits generalizing n with
  | nil =>
    constructor
    · rintro ⟨m, h, enough⟩
      simp only [furtherLoop, Option.some.injEq] at h
      omega
    · intro h
      exact absurd h Completes.not_nil
  | cons v rest ih =>
    have polls' : ∀ w ∈ rest, w.poll ≠ none := fun w hw => polls w (List.mem_cons_of_mem v hw)
    by_cases begun : v.begins expiration = true
    · have shown : batches expiration (v :: rest) = v.presses :: batches expiration rest := by
        simp [batches, begun]
      rw [shown, completes_cons, furtherLoop_cons rest few begun (polls v List.mem_cons_self)]
      by_cases same : ∀ k ∈ v.presses, k = K
      · simp only [if_pos same]
        by_cases more : n + v.presses.length < DETECTION_PRESSES
        · rw [ih polls' more]
          have left : DETECTION_PRESSES - (n + v.presses.length) =
            DETECTION_PRESSES - n - v.presses.length := by omega
          rw [left]
          constructor
          · intro h
            exact ⟨same, .inr ⟨by omega, h⟩⟩
          · rintro ⟨_, enough | ⟨_, h⟩⟩
            · omega
            · exact h
        · rw [furtherLoop_enough (Nat.not_lt.mp more)]
          constructor
          · intro _
            exact ⟨same, .inl (by omega)⟩
          · intro _
            exact ⟨_, rfl, by omega⟩
      · simp only [if_neg same]
        constructor
        · rintro ⟨m, h, _⟩
          cases h
        · rintro ⟨h, _⟩
          exact absurd h same
    · have late : v.begins expiration = false := by simpa using begun
      rw [furtherLoop]
      simp only [late, Bool.and_false, Bool.false_eq_true, if_false]
      constructor
      · rintro ⟨m, h, enough⟩
        rw [Option.some.injEq] at h
        omega
      · intro h
        simp only [batches, List.takeWhile_cons, late, Bool.false_eq_true, if_false,
          List.map_nil] at h
        exact absurd h Completes.not_nil

/-! ## The decision -/

/-- No call on the epoll descriptor fails. -/
structure Input.Polls (e : Input) : Prop where
  create : e.epoll_create = true
  ctl : ∀ i < e.fds.length, e.epoll_ctl i = true
  wait : ∀ w ∈ e.waits, w.poll ≠ none

/-- The presses the counting starts from, a key held down being one, and the
waits of the second loop. -/
inductive Input.Opens (e : Input) (skipInitialDelay : Bool) : List Int → List Wait → Prop where
  | held {K : Int} : e.held = [K] → Opens e skipInitialDelay [K] e.waits
  | pressed {w : Wait} {behind : List Wait} :
      e.held = [] → skipInitialDelay = false →
      FirstPress e.initialExpiration e.waits w behind →
      Opens e skipInitialDelay w.presses behind

theorem detectPresses_iff (e : Input) (pressedKey : Int) :
    detectPresses e pressedKey = true ↔
      ∃ K behind, initialLoop e.initialExpiration e.waits pressedKey = some (K, behind) ∧ K ≠ 0 ∧
        ∃ m, furtherLoop e.furtherExpiration K behind 1 = some m ∧ DETECTION_PRESSES ≤ m := by
  unfold detectPresses
  constructor
  · intro h
    split at h
    · cases h
    · rename_i K behind initial
      split at h
      · cases h
      · rename_i hK
        split at h
        · cases h
        · rename_i m further
          exact ⟨K, behind, initial, by simpa using hK, m, further, by simpa using h⟩
  · rintro ⟨K, behind, initial, hK, m, further, enough⟩
    simp [initial, hK, further, enough]

theorem FirstPress.subset {expiration : Timespec} {waits behind : List Wait} {w : Wait}
    (first : FirstPress expiration waits w behind) : ∀ v ∈ behind, v ∈ waits := by
  obtain ⟨before, split, _⟩ := first
  intro v hv
  rw [split]
  exact List.mem_append_right before (List.mem_cons_of_mem w hv)

theorem FirstPress.last_ne_zero {expiration : Timespec} {waits behind : List Wait} {w : Wait}
    {K : Int} (_ : FirstPress expiration waits w behind) (last : w.presses.getLast? = some K) :
    K ≠ 0 := by
  have pos := physical_pos (Wait.presses_physical (List.mem_of_getLast? last))
  omega

theorem Input.Opens.subset {e : Input} {skipInitialDelay : Bool} {opening : List Int}
    {behind : List Wait} (opens : e.Opens skipInitialDelay opening behind) :
    ∀ v ∈ behind, v ∈ e.waits := by
  cases opens with
  | held _ => exact fun _ hv => hv
  | pressed _ _ first => exact first.subset

/-- Which keys are held decides whether the presses are looked at. -/
theorem detectSafemodeTrigger_iff {e : Input} (polls : e.Polls) (skipInitialDelay : Bool) :
    detectSafemodeTrigger e skipInitialDelay = true ↔
      e.fds ≠ [] ∧ ¬ pressedKeyOf e.held < 0 ∧
        ¬ (pressedKeyOf e.held = 0 ∧ skipInitialDelay = true) ∧
        detectPresses e (pressedKeyOf e.held) = true := by
  have registered : (List.range e.fds.length).all e.epoll_ctl = true := by
    rw [List.all_eq_true]
    intro i hi
    exact polls.ctl i (List.mem_range.mp hi)
  rw [← openKeyDevices_pressedKey]
  change _ ↔ (openKeyDevices e.opendir).1 ≠ [] ∧ _
  unfold Input.fds at registered
  unfold detectSafemodeTrigger
  simp only [polls.create, registered]
  by_cases none : (openKeyDevices e.opendir).1 = []
  · simp [none]
  · cases skipInitialDelay <;> simp [none]

/-- The decision, for any batches: the last of the opening presses is the key
that is counted. -/
theorem detects_iff {e : Input} (polls : e.Polls) (skipInitialDelay : Bool) :
    detectSafemodeTrigger e skipInitialDelay = true ↔
      e.fds ≠ [] ∧ ∃ opening behind K, e.Opens skipInitialDelay opening behind ∧
        opening.getLast? = some K ∧ Completes 4 K (batches e.furtherExpiration behind) := by
  rw [detectSafemodeTrigger_iff polls, detectPresses_iff]
  apply and_congr_right
  intro _
  constructor
  · rintro ⟨single, skips, K, behind, initial, hK, further⟩
    cases down : e.held with
    | nil =>
      simp only [down, pressedKeyOf, true_and, Bool.not_eq_true] at skips initial
      obtain ⟨w, first, last⟩ := (initialLoop_iff polls.wait hK).mp initial
      refine ⟨w.presses, behind, K, .pressed down skips first, last, ?_⟩
      exact (furtherLoop_iff (fun v hv => polls.wait v (first.subset v hv)) (by decide)).mp further
    | cons k more =>
      cases more with
      | nil =>
        have pos : 0 < k := down_pos (by rw [down]; exact List.mem_cons_self)
        simp only [down, pressedKeyOf] at initial
        rw [initialLoop_pressed _ _ (by omega)] at initial
        simp only [Option.some.injEq, Prod.mk.injEq] at initial
        obtain ⟨rfl, rfl⟩ := initial
        refine ⟨[k], e.waits, k, .held down, rfl, ?_⟩
        exact (furtherLoop_iff polls.wait (by decide)).mp further
      | cons _ _ => simp [down, pressedKeyOf] at single
  · rintro ⟨opening, behind, K, opens, last, completes⟩
    have further := (furtherLoop_iff (n := 1) (fun v hv => polls.wait v (opens.subset v hv))
      (by decide)).mpr completes
    cases opens with
    | held down =>
      rw [List.getLast?_singleton, Option.some.injEq] at last
      subst last
      rename_i k
      have pos : 0 < k := down_pos (by rw [down]; exact List.mem_cons_self)
      have nonzero : k ≠ 0 := by omega
      simp only [down, pressedKeyOf]
      refine ⟨by omega, fun h => nonzero h.1, k, e.waits, ?_, nonzero, further⟩
      exact initialLoop_pressed _ _ nonzero
    | pressed down skips first =>
      have nonzero := first.last_ne_zero last
      simp only [down, pressedKeyOf, skips]
      refine ⟨by decide, by decide, K, behind, ?_, nonzero, further⟩
      exact (initialLoop_iff polls.wait nonzero).mpr ⟨_, first, last⟩

/-! ## One event at a time -/

/-- `K` is the one key that is held down when the devices are opened. -/
def Input.Holds (e : Input) (K : Int) : Prop := ∀ k, HeldOn e.fds k ↔ k = K

/-- The key that is counted and the waits behind the press that chose it, when
every wait delivers at most one event. -/
inductive Input.Begins (e : Input) (skipInitialDelay : Bool) : Int → List Wait → Prop where
  | held {K : Int} : e.Holds K → Begins e skipInitialDelay K e.waits
  | pressed {K : Int} {before behind : List Wait} {w : Wait} :
      (∀ k, ¬ HeldOn e.fds k) → skipInitialDelay = false → e.waits = before ++ w :: behind →
      (∀ v ∈ before, v.begins e.initialExpiration = true ∧ v.presses = []) →
      w.begins e.initialExpiration = true → w.presses = [K] →
      Begins e skipInitialDelay K behind

/-- On how many devices a key is held. -/
def Input.times (e : Input) (K : Int) : Nat := e.fds.countP fun de => K ∈ de.held

theorem Input.Holds.length {e : Input} {K : Int} (holds : e.Holds K) : e.held.length = e.times K :=
  held_length fun k h => (holds k).mp h

theorem holds_of_held {e : Input} {K : Int} (down : e.held = [K]) : e.Holds K := by
  intro k
  rw [heldOn_iff]
  change k ∈ e.held ↔ _
  rw [down, List.mem_singleton]

theorem Input.Holds.held {e : Input} {K : Int} (holds : e.Holds K) (once : e.times K ≤ 1) :
    e.held = [K] := by
  have length := holds.length
  have there : K ∈ e.held := heldOn_iff.mp ((holds K).mpr rfl)
  match down : e.held with
  | [] => simp [down] at there
  | [k] =>
    rw [down, List.mem_singleton] at there
    rw [there]
  | _ :: _ :: _ =>
    simp only [down, List.length_cons] at length
    omega

theorem nothing_held_iff {e : Input} : (∀ k, ¬ HeldOn e.fds k) ↔ e.held = [] := by
  rw [List.eq_nil_iff_forall_not_mem]
  exact forall_congr' fun k => not_congr heldOn_iff

theorem Wait.presses_short {w : Wait} (one : w.ready.length ≤ 1) : w.presses.length ≤ 1 :=
  Nat.le_trans (List.length_filterMap_le Ready.press w.ready) one

theorem FirstPress.single {expiration : Timespec} {waits behind : List Wait} {w : Wait} {K : Int}
    (one : ∀ w ∈ waits, w.ready.length ≤ 1) (first : FirstPress expiration waits w behind)
    (last : w.presses.getLast? = some K) : w.presses = [K] := by
  obtain ⟨before, split, _⟩ := first
  have short := Wait.presses_short (one w (by rw [split]; simp))
  match h : w.presses with
  | [] =>
    rw [h] at last
    cases last
  | [k] =>
    rw [h, List.getLast?_singleton] at last
    rw [Option.some.inj last]
  | _ :: _ :: _ =>
    rw [h] at short
    simp at short

theorem begins_iff_opens {e : Input} (one : ∀ w ∈ e.waits, w.ready.length ≤ 1)
    (once : ∀ K, e.Holds K → e.times K ≤ 1) (skipInitialDelay : Bool) (K : Int)
    (behind : List Wait) :
    e.Begins skipInitialDelay K behind ↔
      ∃ opening, e.Opens skipInitialDelay opening behind ∧ opening.getLast? = some K := by
  constructor
  · intro begins
    cases begins with
    | held holds => exact ⟨[K], .held (holds.held (once K holds)), rfl⟩
    | pressed down skips split quiet begun single =>
      exact ⟨_, .pressed (nothing_held_iff.mp down) skips
        ⟨_, split, quiet, begun, by simp [single]⟩, by simp [single]⟩
  · rintro ⟨opening, opens, last⟩
    cases opens with
    | held down =>
      rw [List.getLast?_singleton, Option.some.injEq] at last
      exact .held (holds_of_held (last ▸ down))
    | pressed down skips first =>
      have single := first.single one last
      obtain ⟨before, split, quiet, begun, _⟩ := first
      exact .pressed (nothing_held_iff.mpr down) skips split quiet begun single

theorem completes_singles {n : Nat} {K : Int} {bs : List (List Int)} (pos : 0 < n)
    (one : ∀ b ∈ bs, b.length ≤ 1) :
    Completes n K bs ↔ bs.flatten.take n = List.replicate n K := by
  induction bs generalizing n with
  | nil =>
    constructor
    · intro h
      exact absurd h Completes.not_nil
    · intro h
      have := congrArg List.length h
      simp only [List.flatten_nil, List.take_nil, List.length_nil, List.length_replicate] at this
      omega
  | cons b bs ih =>
    have one' : ∀ b ∈ bs, b.length ≤ 1 := fun c hc => one c (List.mem_cons_of_mem b hc)
    have short := one b List.mem_cons_self
    rw [completes_cons]
    match b, short with
    | [], _ =>
      simp only [List.length_nil, List.not_mem_nil, false_implies, implies_true, true_and,
        Nat.sub_zero, List.flatten_cons, List.nil_append, pos, ih pos one']
      constructor
      · rintro (none | h)
        · omega
        · exact h
      · exact .inr
    | [k], _ =>
      obtain ⟨n, rfl⟩ : ∃ m, n = m + 1 := ⟨n - 1, by omega⟩
      simp only [List.mem_singleton, forall_eq, List.length_singleton, List.flatten_cons,
        List.singleton_append, List.take_succ_cons, List.replicate_succ, List.cons.injEq,
        Nat.add_sub_cancel]
      apply and_congr_right
      intro _
      by_cases more : 0 < n
      · rw [ih more one']
        constructor
        · rintro (last | ⟨_, h⟩)
          · omega
          · exact h
        · intro h
          exact .inr ⟨by omega, h⟩
      · have : n = 0 := by omega
        subst this
        simp

/-- The presses that are read in the second window, where it opens at once. -/
def Input.further (e : Input) (waits : List Wait) : List Int :=
  (waits.takeWhile (Wait.begins e.furtherExpiration)).flatMap Wait.presses

/-- What triggers safemode: a device, one key held down or pressed first while
the first window is open, and four presses of it before any other in the second
one. -/
def Input.Triggers (e : Input) (skipInitialDelay : Bool) : Prop :=
  e.fds ≠ [] ∧ ∃ K behind, e.Begins skipInitialDelay K behind ∧
    (e.further behind).take 4 = List.replicate 4 K

/-- A key that is held on one device is recognised. -/
theorem detects_once {e : Input} (skipInitialDelay : Bool) (polls : e.Polls)
    (one : ∀ w ∈ e.waits, w.ready.length ≤ 1) (once : ∀ K, e.Holds K → e.times K ≤ 1) :
    detectSafemodeTrigger e skipInitialDelay = true ↔ e.Triggers skipInitialDelay := by
  rw [detects_iff polls]
  unfold Input.Triggers
  apply and_congr_right
  intro _
  have same : ∀ opening behind K, e.Opens skipInitialDelay opening behind →
      (Completes 4 K (batches e.furtherExpiration behind) ↔
        (e.further behind).take 4 = List.replicate 4 K) := by
    intro opening behind K opens
    rw [completes_singles (by decide), batches, Input.further, List.flatMap_def]
    intro b hb
    obtain ⟨w, hw, rfl⟩ := List.mem_map.mp hb
    have still := List.takeWhile_subset _ hw
    exact Wait.presses_short (one w (opens.subset w still))
  constructor
  · rintro ⟨opening, behind, K, opens, last, completes⟩
    have begins := (begins_iff_opens one once _ _ _).mpr ⟨opening, opens, last⟩
    exact ⟨K, behind, begins, (same opening behind K opens).mp completes⟩
  · rintro ⟨K, behind, begins, presses⟩
    obtain ⟨opening, opens, last⟩ := (begins_iff_opens one once _ _ _).mp begins
    exact ⟨opening, behind, K, opens, last, (same opening behind K opens).mpr presses⟩

/-- A key that is held on several devices ends the detection at once. -/
theorem detects_several {e : Input} {K : Int} (skipInitialDelay : Bool) (polls : e.Polls)
    (holds : e.Holds K) (several : 1 < e.times K) :
    detectSafemodeTrigger e skipInitialDelay = false := by
  rw [← Bool.not_eq_true, detectSafemodeTrigger_iff polls]
  rintro ⟨_, single, _⟩
  rw [pressedKeyOf_several (by rw [holds.length]; exact several)] at single
  exact single (by decide)

theorem Input.Holds.triggers_iff {e : Input} {K : Int} (holds : e.Holds K) (skipInitialDelay : Bool) :
    e.Triggers skipInitialDelay ↔ (e.further e.waits).take 4 = List.replicate 4 K := by
  constructor
  · rintro ⟨_, K', behind, begins, presses⟩
    cases begins with
    | held holds' =>
      obtain rfl : K = K' := (holds' K).mp ((holds K).mpr rfl)
      exact presses
    | pressed down => exact absurd ((holds K).mpr rfl) (down K)
  · intro presses
    obtain ⟨de, member, _⟩ := (holds K).mpr rfl
    exact ⟨List.ne_nil_of_mem member, K, e.waits, .held holds, presses⟩

/-- **The detection recognises exactly the documented sequence** when every wait
delivers at most one event, exactly unless the single key that is held down is
held on several devices and pressed four times. -/
theorem detects_documented_iff (e : Input) (skipInitialDelay : Bool) (polls : e.Polls)
    (one : ∀ w ∈ e.waits, w.ready.length ≤ 1) :
    (detectSafemodeTrigger e skipInitialDelay = true ↔ e.Triggers skipInitialDelay) ↔
      ∀ K, e.Holds K → 1 < e.times K → (e.further e.waits).take 4 ≠ List.replicate 4 K := by
  constructor
  · intro same K holds several presses
    have seen := same.mpr ((holds.triggers_iff skipInitialDelay).mpr presses)
    rw [detects_several skipInitialDelay polls holds several] at seen
    cases seen
  · intro presses
    by_cases once : ∀ K, e.Holds K → e.times K ≤ 1
    · exact detects_once skipInitialDelay polls one once
    · obtain ⟨K, holds, several⟩ : ∃ K, e.Holds K ∧ 1 < e.times K := by
        simpa using once
      rw [detects_several skipInitialDelay polls holds several, holds.triggers_iff]
      exact iff_of_false Bool.false_ne_true (presses K holds several)

/-- A device with the volume-up key, which is not held down. -/
def volumeKeys : Dirent :=
  { d_name := [101], opens := true, reports := fun k => k == KEY_VOLUMEUP,
    pressed := fun _ => false }

/-- A key event with this value on the device at place `fd`: 0 is a release, 1 a
press, 2 a repeat. -/
def Ready.key (fd : Nat) (code : UInt16) (value : Int32) : Ready := ⟨fd, some ⟨EV_KEY, code, value⟩⟩

/-- After so many seconds. -/
def Wait.after (seconds : Int) (ready : List Ready) : Wait :=
  ⟨⟨seconds, 0, by decide, by decide⟩, some ready⟩

def Input.of (waits : List Wait) : Input :=
  { opendir := some [volumeKeys, volumeKeys], epoll_create := true, epoll_ctl := fun _ => true,
    start := ⟨0, 0, by decide, by decide⟩, restart := ⟨1, 0, by decide, by decide⟩, waits }

/-- Volume up is pressed, released and then pressed four times more. -/
def fivePresses : Input :=
  .of [.after 0 [⟨0, none⟩], .after 1 [.key 0 115 1], .after 1 [.key 0 115 0],
    .after 2 [.key 0 115 1], .after 2 [.key 0 115 2], .after 3 [.key 1 115 1],
    .after 4 [.key 0 115 1], .after 5 [.key 0 115 1], .after 5 [.key 0 114 1]]

theorem five_presses_trigger : fivePresses.Triggers false := by
  have polls : fivePresses.Polls := ⟨rfl, fun _ _ => rfl, by decide⟩
  have one : ∀ w ∈ fivePresses.waits, w.ready.length ≤ 1 := by decide
  have loose : ∀ k, ¬ HeldOn fivePresses.fds k := nothing_held_iff.mpr rfl
  have documented := (detects_documented_iff fivePresses false polls one).mpr fun K holds =>
    absurd ((holds K).mpr rfl) (loose K)
  exact documented.mp (by decide)

/-- Volume up is held on two devices, and then pressed four times. -/
def heldTwice : Input :=
  { Input.of [.after 1 [.key 0 115 1], .after 2 [.key 0 115 1], .after 2 [.key 0 115 0],
      .after 3 [.key 1 115 1], .after 4 [.key 0 115 1]] with
    opendir := some (List.replicate 2 { volumeKeys with pressed := fun k => k == KEY_VOLUMEUP }) }

/-- It is the single key that is held, and the detection takes it for two. -/
theorem held_twice_missed : ¬ ∀ (e : Input) (skipInitialDelay : Bool), e.Polls →
    (∀ w ∈ e.waits, w.ready.length ≤ 1) →
      (detectSafemodeTrigger e skipInitialDelay = true ↔ e.Triggers skipInitialDelay) := by
  intro documented
  have held : heldTwice.held = [KEY_VOLUMEUP, KEY_VOLUMEUP] := by decide
  have holds : heldTwice.Holds KEY_VOLUMEUP := by
    intro k
    rw [heldOn_iff]
    change k ∈ heldTwice.held ↔ _
    rw [held]
    simp
  have seen := (documented heldTwice false ⟨rfl, fun _ _ => rfl, by decide⟩ (by decide)).mpr
    ((holds.triggers_iff false).mpr (by decide))
  exact absurd seen (by decide)

end Xposed.Safemode
