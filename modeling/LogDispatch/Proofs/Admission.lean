import LogDispatch.Rule.Admission

/-! What include and exclude rules make of the level of a route. The ranks that a route delivers are those that the
    last rules for the channel admit (`delivers_iff_admits`). More includes do not take ranks away, unless they send a
    closed route back to its level (`moreIncludes_widen`), and excludes do not add any, unless an open route has a
    level above the rank after the excluded one (`excludes_narrow_iff`). -/

namespace LogDispatch

/-! ### Verdicts of rule lists -/

/-- What a list says about a channel: the last rule for the channel decides. -/
inductive RuleSet.Says (channel : String) : RuleSet → Option Threshold → Prop
  | nothing {rules : RuleSet} : (∀ r ∈ rules, r.appliesTo channel = false) → Says channel rules none
  | last {earlier later : RuleSet} {r : Rule} : r.appliesTo channel = true →
      (∀ r' ∈ later, r'.appliesTo channel = false) → Says channel (earlier ++ r :: later) (some r.threshold)

/-- One threshold prevails over another: `always` over all, and of two ranks the one that `first` puts first. -/
def Threshold.Prevails (first : Nat → Nat → Prop) : Threshold → Threshold → Prop
  | .always, _ => True
  | .rank _, .always => False
  | .rank a, .rank b => first a b

/-- Of two thresholds of which either may be missing, the one that prevails over all there are. -/
structure Threshold.Best (first : Nat → Nat → Prop) (a b m : Option Threshold) : Prop where
  given : m = a ∨ m = b
  prevails : ∀ x, a = some x ∨ b = some x → ∃ y, m = some y ∧ y.Prevails first x

/-- What the lists for a route come to. A list of its own decides alone, else the best of what the list of the engine
    and the additive one say. -/
inductive Verdict (first : Nat → Nat → Prop) (channel : String) (engine more : RuleSet) :
    Option RuleSet → Option Threshold → Prop
  | own {rules : RuleSet} {m : Option Threshold} : rules.Says channel m →
      Verdict first channel engine more (some rules) m
  | joint {a b m : Option Threshold} : engine.Says channel a → more.Says channel b → Threshold.Best first a b m →
      Verdict first channel engine more none m

section
variable {first : Nat → Nat → Prop} {pick : Nat → Nat → Nat} {channel : String} {rules : RuleSet}
  {a b m : Option Threshold}

theorem RuleSet.says_iff : rules.Says channel m ↔ rules.threshold? channel = m := by
  unfold RuleSet.threshold?
  constructor
  · intro h
    cases h with
    | nothing hnone =>
      have hfind : rules.reverse.find? (·.appliesTo channel) = none :=
        List.find?_eq_none.mpr fun r hr => by simp [hnone r (List.mem_reverse.mp hr)]
      rw [hfind, Option.map_none]
    | @last earlier later r hr hlater =>
      have hfind : (earlier ++ r :: later).reverse.find? (·.appliesTo channel) = some r :=
        List.find?_eq_some_iff_append.mpr ⟨hr, later.reverse, earlier.reverse, by simp, fun r' hr' => by
          simp [hlater r' (List.mem_reverse.mp hr')]⟩
      rw [hfind, Option.map_some]
  · rintro rfl
    cases hfind : rules.reverse.find? (·.appliesTo channel) with
    | none =>
      rw [Option.map_none]
      exact .nothing fun r hr => by simpa using List.find?_eq_none.mp hfind r (List.mem_reverse.mpr hr)
    | some r =>
      obtain ⟨hr, later, earlier, hsplit, hlater⟩ := List.find?_eq_some_iff_append.mp hfind
      obtain rfl : rules = earlier.reverse ++ r :: later.reverse := by
        rw [← List.reverse_reverse rules, hsplit]
        simp
      rw [Option.map_some]
      exact .last hr fun r' hr' => by simpa using hlater r' (List.mem_reverse.mp hr')

theorem Threshold.Prevails.antisymm (hanti : ∀ i j, first i j → first j i → i = j) {x y : Threshold}
    (hx : x.Prevails first y) (hy : y.Prevails first x) : x = y := by
  cases x with
  | always =>
    cases y with
    | always => rfl
    | rank => exact hy.elim
  | rank i =>
    cases y with
    | always => exact hx.elim
    | rank j => rw [hanti i j hx hy]

theorem Threshold.Best.unique (hanti : ∀ i j, first i j → first j i → i = j) {m' : Option Threshold}
    (h : Best first a b m) (h' : Best first a b m') : m = m' := by
  have given : ∀ {m : Option Threshold} {x : Threshold}, Best first a b m → m = some x → a = some x ∨ b = some x := by
    intro m x h hm
    rcases h.given with rfl | rfl
    · exact .inl hm
    · exact .inr hm
  cases hm : m with
  | none =>
    cases hm' : m' with
    | none => rfl
    | some y =>
      obtain ⟨x, hx, -⟩ := h.prevails y (given h' hm')
      exact absurd (hm.symm.trans hx) nofun
  | some x =>
    obtain ⟨y, hy, hyx⟩ := h'.prevails x (given h hm)
    obtain ⟨z, hz, hzy⟩ := h.prevails y (given h' hy)
    obtain rfl := Option.some.inj (hm.symm.trans hz)
    rw [hy, hzy.antisymm hanti hyx]

/-- Merging keeps the best threshold, where `pick` takes that of two ranks which comes first. -/
theorem Threshold.best_merge (hpick : ∀ i j, pick i j = i ∧ first i j ∨ pick i j = j ∧ first j i)
    (hself : ∀ i, first i i) : Best first a b (merge pick a b) := by
  have self : ∀ x : Threshold, x.Prevails first x := by
    intro x
    cases x with
    | always => trivial
    | rank i => exact hself i
  cases a with
  | none =>
    have hb : merge pick none b = b := by cases b <;> rfl
    rw [hb]
    exact ⟨.inr rfl, fun x hx => ⟨x, hx.resolve_left nofun, self x⟩⟩
  | some x =>
    cases b with
    | none => exact ⟨.inl rfl, fun x hx => ⟨x, hx.resolve_right nofun, self x⟩⟩
    | some y =>
      cases x with
      | always => exact ⟨.inl (by cases y <;> rfl), fun z _ => ⟨.always, by cases y <;> rfl, trivial⟩⟩
      | rank i =>
        cases y with
        | always => exact ⟨.inr rfl, fun z _ => ⟨.always, rfl, trivial⟩⟩
        | rank j =>
          rcases hpick i j with ⟨hij, hfirst⟩ | ⟨hij, hfirst⟩
          · refine ⟨.inl (by rw [merge, hij]), fun z hz => ⟨.rank i, by rw [merge, hij], ?_⟩⟩
            rcases hz with hz | hz <;> obtain rfl := Option.some.inj hz
            · exact hself i
            · exact hfirst
          · refine ⟨.inr (by rw [merge, hij]), fun z hz => ⟨.rank j, by rw [merge, hij], ?_⟩⟩
            rcases hz with hz | hz <;> obtain rfl := Option.some.inj hz
            · exact hfirst
            · exact hself j

theorem Threshold.best_iff (hpick : ∀ i j, pick i j = i ∧ first i j ∨ pick i j = j ∧ first j i)
    (hself : ∀ i, first i i) (hanti : ∀ i j, first i j → first j i → i = j) :
    Best first a b m ↔ merge pick a b = m := by
  constructor
  · exact (best_merge hpick hself).unique hanti
  · rintro rfl
    exact best_merge hpick hself

theorem verdict_iff {engine more : RuleSet} {own : Option RuleSet}
    (hbest : ∀ {a b m}, Threshold.Best first a b m ↔ Threshold.merge pick a b = m) :
    Verdict first channel engine more own m ↔
      (match own with
        | some rules => rules.threshold? channel
        | none => Threshold.merge pick (engine.threshold? channel) (more.threshold? channel)) = m := by
  cases own with
  | some rules =>
    refine ⟨fun h => ?_, fun h => .own (RuleSet.says_iff.mpr h)⟩
    cases h with
    | own h => exact RuleSet.says_iff.mp h
  | none =>
    refine ⟨fun h => ?_, fun h => .joint (RuleSet.says_iff.mpr rfl) (RuleSet.says_iff.mpr rfl) (hbest.mpr h)⟩
    cases h with
    | joint ha hb h =>
      rw [RuleSet.says_iff.mp ha, RuleSet.says_iff.mp hb]
      exact hbest.mp h

end

namespace RouteFilter
variable {route : RouteFilter} {engine : GlobalFilter} {channel : String} {inc exc : Option Threshold}

theorem includeFor_iff : Verdict (· ≤ ·) channel engine.includes route.moreIncludes route.includes inc ↔
    route.includeFor engine channel = inc :=
  verdict_iff (Threshold.best_iff (fun i j => by omega) Nat.le_refl fun _ _ => Nat.le_antisymm)

theorem excludeFor_iff : Verdict (· ≥ ·) channel engine.excludes route.moreExcludes route.excludes exc ↔
    route.excludeFor engine channel = exc :=
  verdict_iff (Threshold.best_iff (fun i j => by omega) Nat.le_refl fun _ _ hij hji => Nat.le_antisymm hji hij)

/-! ### Levels -/

/-- An exclude puts the rank after the excluded one in the place of the level of an open route. -/
def raisedLevel (after : Nat → Nat) (start : Nat) : Option Threshold → Nat
  | some (.rank e) => after e
  | _ => start

/-- An include takes the level of an open route down to its rank. -/
def loweredLevel (level : Nat) : Option Threshold → Nat
  | some (.rank i) => min level i
  | _ => level

/-- A closed route is opened from the rank of an include that has one above zero, else from its own level. -/
def openedLevel (start : Nat) : Option Threshold → Nat
  | some (.rank i) => if 0 < i then i else start
  | _ => start

/-- Excludes do not let a route that was closed begin below their rank. -/
def leastLevel : Option Threshold → Nat
  | some (.rank e) => e
  | _ => 0

section
variable {start t rank levels : Nat}

theorem openLevel_eq_some_iff : openLevel start inc exc = some t ↔ inc = some .always ∧ t = 0 ∨
    inc ≠ some .always ∧ exc ≠ some .always ∧ t = loweredLevel (raisedLevel nextRank start exc) inc := by
  rcases inc with _ | _ | i
  · rcases exc with _ | _ | e <;> simp [openLevel, raisedLevel, loweredLevel, eq_comm]
  · simp [openLevel, eq_comm]
  · rcases exc with _ | _ | e <;> simp [openLevel, raisedLevel, loweredLevel, eq_comm]

theorem closedLevel_eq_some_iff : closedLevel start inc exc = some t ↔
    inc ≠ none ∧ exc ≠ some .always ∧ t = max (openedLevel start inc) (leastLevel exc) := by
  rcases inc with _ | _ | i
  · simp [closedLevel]
  · rcases exc with _ | _ | e <;> simp [closedLevel, openedLevel, leastLevel, eq_comm]
  · by_cases hi : 0 < i
    · rcases exc with _ | _ | e <;> simp [closedLevel, openedLevel, leastLevel, hi, eq_comm]
    · rcases exc with _ | _ | e <;> simp [closedLevel, openedLevel, leastLevel, hi, eq_comm]

/-- The level of a route before it is held against the levels there are. -/
def levelFor (policy : Policy) (start : Nat) (inc exc : Option Threshold) : Option Nat :=
  match policy with
  | .everything => openLevel start inc exc
  | .nothing => closedLevel start inc exc

theorem lowestRank?_eq : route.lowestRank? engine channel levels =
    (levelFor (route.policy.getD engine.policy) (route.baseLevel engine) (route.includeFor engine channel)
      (route.excludeFor engine channel)).filter (· < levels) := rfl

theorem lowestRank?_lt (h : route.lowestRank? engine channel levels = some t) : t < levels := by
  rw [lowestRank?_eq] at h
  simpa using (Option.filter_eq_some_iff.mp h).2

/-- The route delivers records of a rank for the channel. -/
def Delivers (route : RouteFilter) (engine : GlobalFilter) (channel : String) (levels rank : Nat) : Prop :=
  ∃ t, route.lowestRank? engine channel levels = some t ∧ t ≤ rank

theorem delivers_iff (hrank : rank < levels) : route.Delivers engine channel levels rank ↔
    ∃ t, levelFor (route.policy.getD engine.policy) (route.baseLevel engine) (route.includeFor engine channel)
      (route.excludeFor engine channel) = some t ∧ t ≤ rank := by
  unfold Delivers
  rw [lowestRank?_eq]
  constructor
  · rintro ⟨t, ht, hle⟩
    exact ⟨t, (Option.filter_eq_some_iff.mp ht).1, hle⟩
  · rintro ⟨t, ht, hle⟩
    exact ⟨t, Option.filter_eq_some_iff.mpr ⟨ht, by simpa using Nat.lt_of_le_of_lt hle hrank⟩, hle⟩

/-! ### Ranks that are admitted -/

/-- What the verdicts of the include and exclude lists mean for a rank, where `after` gives the rank that comes after
    an excluded one. -/
def Admits (after : Nat → Nat) (policy : Policy) (start : Nat) (inc exc : Option Threshold) (rank : Nat) : Prop :=
  match policy with
  | .everything => inc = some .always ∨ exc ≠ some .always ∧ raisedLevel after start exc ≤ rank ∨
      exc ≠ some .always ∧ ∃ i, inc = some (.rank i) ∧ i ≤ rank
  | .nothing => inc ≠ none ∧ exc ≠ some .always ∧ openedLevel start inc ≤ rank ∧
      ∀ e, exc = some (.rank e) → e ≤ rank

theorem loweredLevel_le_iff {level : Nat} (h : inc ≠ some .always) :
    loweredLevel level inc ≤ rank ↔ level ≤ rank ∨ ∃ i, inc = some (.rank i) ∧ i ≤ rank := by
  rcases inc with _ | _ | i
  · simp [loweredLevel]
  · exact absurd rfl h
  · have hmin : min level i ≤ rank ↔ level ≤ rank ∨ i ≤ rank := by omega
    simpa [loweredLevel] using hmin

theorem leastLevel_le_iff (h : exc ≠ some .always) : leastLevel exc ≤ rank ↔ ∀ e, exc = some (.rank e) → e ≤ rank := by
  rcases exc with _ | _ | e
  · simp [leastLevel]
  · exact absurd rfl h
  · simp [leastLevel]

theorem admits_iff {policy : Policy} :
    (∃ t, levelFor policy start inc exc = some t ∧ t ≤ rank) ↔ Admits nextRank policy start inc exc rank := by
  cases policy with
  | everything =>
    simp only [levelFor, openLevel_eq_some_iff, Admits]
    constructor
    · rintro ⟨t, ⟨hinc, -⟩ | ⟨hinc, hexc, rfl⟩, hle⟩
      · exact .inl hinc
      · exact .inr (((loweredLevel_le_iff hinc).mp hle).imp (⟨hexc, ·⟩) (⟨hexc, ·⟩))
    · intro h
      by_cases hinc : inc = some .always
      · exact ⟨0, .inl ⟨hinc, rfl⟩, Nat.zero_le _⟩
      · rcases h.resolve_left hinc with ⟨hexc, hle⟩ | ⟨hexc, hle⟩
        · exact ⟨_, .inr ⟨hinc, hexc, rfl⟩, (loweredLevel_le_iff hinc).mpr (.inl hle)⟩
        · exact ⟨_, .inr ⟨hinc, hexc, rfl⟩, (loweredLevel_le_iff hinc).mpr (.inr hle)⟩
  | nothing =>
    simp only [levelFor, closedLevel_eq_some_iff, Admits]
    constructor
    · rintro ⟨t, ⟨hinc, hexc, rfl⟩, hle⟩
      obtain ⟨hopened, hleast⟩ := Nat.max_le.mp hle
      exact ⟨hinc, hexc, hopened, (leastLevel_le_iff hexc).mp hleast⟩
    · rintro ⟨hinc, hexc, hopened, hleast⟩
      exact ⟨_, ⟨hinc, hexc, rfl⟩, Nat.max_le.mpr ⟨hopened, (leastLevel_le_iff hexc).mpr hleast⟩⟩

theorem nextRank_eq {rank : Nat} (h : rank + 1 < rankCount) : nextRank rank = rank + 1 := Nat.mod_eq_of_lt h

/-- Unless the greatest rank is excluded, the rank that comes after the excluded one is by one greater. -/
theorem admits_nextRank_iff {policy : Policy} (h : ∀ e, exc = some (.rank e) → e + 1 < rankCount) :
    Admits nextRank policy start inc exc rank ↔ Admits (· + 1) policy start inc exc rank := by
  have hraised : raisedLevel nextRank start exc = raisedLevel (· + 1) start exc := by
    rcases exc with _ | _ | e
    · rfl
    · rfl
    · exact nextRank_eq (h e rfl)
  unfold Admits
  rw [hraised]

/-- A route delivers just those ranks that the verdicts of its lists admit. After an excluded rank comes the one that is
    by one greater, but after the greatest of all the least. -/
theorem delivers_iff_admits (hinc : Verdict (· ≤ ·) channel engine.includes route.moreIncludes route.includes inc)
    (hexc : Verdict (· ≥ ·) channel engine.excludes route.moreExcludes route.excludes exc) :
    (∀ t, route.lowestRank? engine channel levels = some t → t < levels) ∧
    ∀ rank < levels,
      (route.Delivers engine channel levels rank ↔
        Admits nextRank (route.policy.getD engine.policy) ((route.level.or engine.floor).getD 0) inc exc rank) ∧
      ((∀ e, exc = some (.rank e) → e + 1 < rankCount) → (route.Delivers engine channel levels rank ↔
        Admits (· + 1) (route.policy.getD engine.policy) ((route.level.or engine.floor).getD 0) inc exc rank)) := by
  refine ⟨fun t => lowestRank?_lt, fun rank hrank => ?_⟩
  have hadmits : route.Delivers engine channel levels rank ↔
      Admits nextRank (route.policy.getD engine.policy) ((route.level.or engine.floor).getD 0) inc exc rank := by
    rw [delivers_iff hrank, includeFor_iff.mp hinc, excludeFor_iff.mp hexc, admits_iff]
    rfl
  exact ⟨hadmits, fun he => hadmits.trans (admits_nextRank_iff he)⟩

end

/-- An engine that excludes one channel up to a rank. -/
def excluding (rank : Nat) : GlobalFilter := { excludes := [⟨"db", .rank rank⟩] }

/-- The last of the additive excludes for a channel, at a higher rank than that of the engine, decides. -/
theorem excluded_further : ∃ inc exc, Verdict (· ≤ ·) "db" [] [] none inc ∧
    Verdict (· ≥ ·) "db" (excluding 1).excludes [⟨"d?", .rank 3⟩, ⟨"d*", .rank 2⟩] none exc ∧
    ∀ rank < 5, Delivers { moreExcludes := [⟨"d?", .rank 3⟩, ⟨"d*", .rank 2⟩] } (excluding 1) "db" 5 rank ↔ 3 ≤ rank := by
  have hinc : includeFor { moreExcludes := [⟨"d?", .rank 3⟩, ⟨"d*", .rank 2⟩] } (excluding 1) "db" = none := by decide
  have hexc : excludeFor { moreExcludes := [⟨"d?", .rank 3⟩, ⟨"d*", .rank 2⟩] } (excluding 1) "db" =
      some (.rank 2) := by decide
  refine ⟨_, _, includeFor_iff.mpr hinc, excludeFor_iff.mpr hexc, fun rank hrank => ?_⟩
  have hdelivers := ((delivers_iff_admits (includeFor_iff.mpr hinc) (excludeFor_iff.mpr hexc)).2 rank hrank).1
  rw [hdelivers]
  constructor
  · rintro (h | ⟨-, hle⟩ | ⟨-, i, h, -⟩)
    · cases h
    · exact hle
    · cases h
  · exact fun hle => .inr (.inl ⟨nofun, hle⟩)

/-- The greatest of all ranks excludes nothing. -/
theorem greatest_rank_excluded : ¬∀ (route : RouteFilter) (engine : GlobalFilter) (channel : String) (levels rank : Nat)
    (inc exc : Option Threshold), Verdict (· ≤ ·) channel engine.includes route.moreIncludes route.includes inc →
    Verdict (· ≥ ·) channel engine.excludes route.moreExcludes route.excludes exc → rank < levels →
    (route.Delivers engine channel levels rank ↔
      Admits (· + 1) (route.policy.getD engine.policy) ((route.level.or engine.floor).getD 0) inc exc rank) := by
  intro hall
  have hexc : excludeFor {} (excluding (rankCount - 1)) "db" = some (.rank (rankCount - 1)) := by decide
  have hdelivers : Delivers {} (excluding (rankCount - 1)) "db" 5 0 := ⟨0, by decide, Nat.le_refl 0⟩
  have hadmits := (hall _ _ _ _ _ none _ (includeFor_iff.mpr rfl) (excludeFor_iff.mpr hexc) (by decide)).mp hdelivers
  rcases hadmits with hinc | ⟨-, hle⟩ | ⟨-, i, hinc, -⟩
  · cases hinc
  · exact absurd hle (by decide)
  · cases hinc

/-! ### More includes -/

/-- An include that names no rank above zero comes to one that does, and takes its place. -/
def FallsBack (a b : Option Threshold) : Prop :=
  (∃ i, 0 < i ∧ a = some (.rank i)) ∧ (b = some .always ∨ b = some (.rank 0))

section
variable {a b : Option Threshold} {start level t levels : Nat}

theorem mergeInclude_always : Threshold.mergeInclude (some .always) b = some .always := by
  rcases b with _ | _ | j <;> rfl

theorem loweredLevel_mergeInclude_le : loweredLevel level (Threshold.mergeInclude a b) ≤ loweredLevel level a ∨
    Threshold.mergeInclude a b = some .always := by
  rcases a with _ | _ | i
  · rcases b with _ | _ | j
    · exact .inl (Nat.le_refl _)
    · exact .inr rfl
    · exact .inl (Nat.min_le_left ..)
  · exact .inr mergeInclude_always
  · rcases b with _ | _ | j
    · exact .inl (Nat.le_refl _)
    · exact .inr rfl
    · exact .inl (by simp only [Threshold.mergeInclude, Threshold.merge, loweredLevel]; omega)

theorem openLevel_mergeInclude (h : openLevel start a exc = some t) :
    ∃ u, openLevel start (Threshold.mergeInclude a b) exc = some u ∧ u ≤ t := by
  by_cases hmerge : Threshold.mergeInclude a b = some .always
  · exact ⟨0, openLevel_eq_some_iff.mpr (.inl ⟨hmerge, rfl⟩), Nat.zero_le t⟩
  · rcases openLevel_eq_some_iff.mp h with ⟨rfl, -⟩ | ⟨-, hexc, rfl⟩
    · exact absurd mergeInclude_always hmerge
    · exact ⟨_, openLevel_eq_some_iff.mpr (.inr ⟨hmerge, hexc, rfl⟩), loweredLevel_mergeInclude_le.resolve_right hmerge⟩

theorem mergeInclude_ne_none (h : a ≠ none) : Threshold.mergeInclude a b ≠ none := by
  rcases a with _ | _ | i
  · exact absurd rfl h
  · rw [mergeInclude_always]
    nofun
  · rcases b with _ | _ | j <;> nofun

theorem openedLevel_mergeInclude (h : a ≠ none) : openedLevel start (Threshold.mergeInclude a b) ≤ openedLevel start a ∨
    FallsBack a b ∧ openedLevel start (Threshold.mergeInclude a b) = start := by
  rcases a with _ | _ | i
  · exact absurd rfl h
  · rw [mergeInclude_always]
    exact .inl (Nat.le_refl _)
  · by_cases hi : 0 < i
    · rcases b with _ | _ | j
      · exact .inl (Nat.le_refl _)
      · exact .inr ⟨⟨⟨i, hi, rfl⟩, .inl rfl⟩, rfl⟩
      · by_cases hj : 0 < j
        · have hmin : 0 < min i j := by omega
          refine .inl ?_
          simp only [Threshold.mergeInclude, Threshold.merge, openedLevel, if_pos hmin, if_pos hi]
          exact Nat.min_le_left ..
        · obtain rfl : j = 0 := by omega
          exact .inr ⟨⟨⟨i, hi, rfl⟩, .inr rfl⟩, by simp [Threshold.mergeInclude, Threshold.merge, openedLevel]⟩
    · -- Neither of them names a rank above zero.
      obtain rfl : i = 0 := by omega
      refine .inl ?_
      rcases b with _ | _ | j
      · exact Nat.le_refl _
      · exact Nat.le_refl _
      · simp [Threshold.mergeInclude, Threshold.merge, openedLevel]

theorem openedLevel_of_fallsBack (h : FallsBack a b) : openedLevel start (Threshold.mergeInclude a b) = start := by
  obtain ⟨⟨i, -, rfl⟩, rfl | rfl⟩ := h
  · rfl
  · simp [Threshold.mergeInclude, Threshold.merge, openedLevel]

/-- More includes leave an open route at its level or take it down, and a closed one as well, unless it falls back. -/
theorem levelFor_mergeInclude {policy : Policy} (h : levelFor policy start a exc = some t) :
    (¬(policy = .nothing ∧ FallsBack a b ∧ t < start) →
      ∃ u, levelFor policy start (Threshold.mergeInclude a b) exc = some u ∧ u ≤ t) ∧
    (policy = .nothing ∧ FallsBack a b ∧ t < start →
      levelFor policy start (Threshold.mergeInclude a b) exc = some start) := by
  cases policy with
  | everything => exact ⟨fun _ => openLevel_mergeInclude h, fun hfalls => absurd hfalls.1 nofun⟩
  | nothing =>
    obtain ⟨ha, hexc, rfl⟩ := closedLevel_eq_some_iff.mp h
    have hmerge : ∀ u, u = max (openedLevel start (Threshold.mergeInclude a b)) (leastLevel exc) →
        levelFor .nothing start (Threshold.mergeInclude a b) exc = some u := fun u hu =>
      closedLevel_eq_some_iff.mpr ⟨mergeInclude_ne_none ha, hexc, hu⟩
    constructor
    · intro hfalls
      have hopened : openedLevel start (Threshold.mergeInclude a b) ≤ openedLevel start a ∨
          FallsBack a b ∧ openedLevel start (Threshold.mergeInclude a b) = start := openedLevel_mergeInclude ha
      refine ⟨_, hmerge _ rfl, ?_⟩
      rcases hopened with hle | ⟨hback, hstart⟩
      · omega
      · have hle : start ≤ max (openedLevel start a) (leastLevel exc) :=
          Nat.le_of_not_lt fun hlt => hfalls ⟨rfl, hback, hlt⟩
        omega
    · rintro ⟨-, hback, hlt⟩
      refine hmerge start ?_
      rw [openedLevel_of_fallsBack hback]
      omega

/-- The route without its additive includes. -/
def withoutMore (route : RouteFilter) : RouteFilter := { route with moreIncludes := [] }

theorem includeFor_withoutMore (hown : route.includes = none) :
    route.withoutMore.includeFor engine channel = engine.includes.threshold? channel := by
  simp only [includeFor, withoutMore, hown]
  cases engine.includes.threshold? channel <;> rfl

/-- More includes do not take ranks away from a route. Only a closed route may fall back to a level of its own that is
    greater than before, and then it has that level. -/
theorem moreIncludes_widen (hown : route.includes = none)
    (ht : route.withoutMore.lowestRank? engine channel levels = some t) :
    (¬(route.policy.getD engine.policy = .nothing ∧
        FallsBack (engine.includes.threshold? channel) (route.moreIncludes.threshold? channel) ∧
        t < route.baseLevel engine) →
      ∃ u, route.lowestRank? engine channel levels = some u ∧ u ≤ t) ∧
    (route.policy.getD engine.policy = .nothing ∧
        FallsBack (engine.includes.threshold? channel) (route.moreIncludes.threshold? channel) ∧
        t < route.baseLevel engine →
      route.lowestRank? engine channel levels =
        if route.baseLevel engine < levels then some (route.baseLevel engine) else none) := by
  have hinc : route.includeFor engine channel = Threshold.mergeInclude (engine.includes.threshold? channel)
      (route.moreIncludes.threshold? channel) := by
    rw [includeFor, hown]
  have hlevel : levelFor (route.policy.getD engine.policy) (route.baseLevel engine)
      (engine.includes.threshold? channel) (route.excludeFor engine channel) = some t := by
    rw [← includeFor_withoutMore hown]
    exact (Option.filter_eq_some_iff.mp ht).1
  obtain ⟨hwider, hback⟩ := levelFor_mergeInclude (b := route.moreIncludes.threshold? channel) hlevel
  rw [← hinc] at hwider hback
  constructor
  · intro hfalls
    exact (delivers_iff (lowestRank?_lt ht)).mpr (hwider hfalls)
  · intro hfalls
    rw [lowestRank?_eq, hback hfalls, Option.filter_some]
    simp

end

/-- A closed engine opens one channel from a rank on. -/
def including (rank : Nat) : GlobalFilter := { policy := .nothing, includes := [⟨"db", .rank rank⟩] }

/-- A route with a level of its own and more includes for the channel. -/
def opening (level : Nat) (threshold : Threshold) : RouteFilter :=
  { level := some level, moreIncludes := [⟨"db", threshold⟩] }

/-- An include for the channel from a lower rank on takes the level down to that rank. -/
theorem opened_further : ((opening 4 (.rank 1)).includes = none ∧
    (opening 4 (.rank 1)).withoutMore.lowestRank? (including 3) "db" 5 = some 3) ∧
    ∃ u, (opening 4 (.rank 1)).lowestRank? (including 3) "db" 5 = some u ∧ u ≤ 3 := by
  have ht : (opening 4 (.rank 1)).withoutMore.lowestRank? (including 3) "db" 5 = some 3 := by decide
  refine ⟨⟨rfl, ht⟩, (moreIncludes_widen rfl ht).1 ?_⟩
  rintro ⟨-, ⟨-, hback⟩, -⟩
  exact absurd hback (by decide)

/-- An include for the channel at every rank takes the level up. -/
theorem always_included_closes : ¬∀ (route : RouteFilter) (engine : GlobalFilter) (channel : String) (levels t : Nat),
    route.includes = none → route.withoutMore.lowestRank? engine channel levels = some t →
    ∃ u, route.lowestRank? engine channel levels = some u ∧ u ≤ t := by
  intro hall
  obtain ⟨u, hu, hle⟩ := hall (opening 3 .always) (including 1) "db" 5 1 rfl (by decide)
  have hthree : (opening 3 .always).lowestRank? (including 1) "db" 5 = some 3 := by decide
  obtain rfl := Option.some.inj (hu.symm.trans hthree)
  exact absurd hle (by decide)

/-! ### Excludes -/

/-- The route with its lists of excludes emptied. -/
def withoutExcludes (route : RouteFilter) : RouteFilter :=
  { route with excludes := route.excludes.map fun _ => [], moreExcludes := [] }

section
variable {start t levels : Nat}

theorem excludeFor_withoutExcludes :
    route.withoutExcludes.excludeFor { engine with excludes := [] } channel = none := by
  unfold excludeFor withoutExcludes
  cases route.excludes <;> rfl

/-- An exclude takes an open route down to the rank after its own, where neither the level of the route nor an include
    lets the route begin at or below that rank. -/
def LowersLevel (start : Nat) (inc exc : Option Threshold) : Prop :=
  ∃ e, exc = some (.rank e) ∧ nextRank e < start ∧ inc ≠ some .always ∧ ∀ i, inc = some (.rank i) → nextRank e < i

theorem openLevel_without_iff (h : openLevel start inc exc = some t) :
    (∃ u, openLevel start inc none = some u ∧ u ≤ t) ↔ ¬LowersLevel start inc exc := by
  rcases openLevel_eq_some_iff.mp h with ⟨rfl, rfl⟩ | ⟨hinc, hexc, rfl⟩
  · exact ⟨fun _ ⟨_, _, _, hinc, _⟩ => hinc rfl, fun _ => ⟨0, rfl, Nat.le_refl 0⟩⟩
  · have hopen : openLevel start inc none = some (loweredLevel start inc) :=
      openLevel_eq_some_iff.mpr (.inr ⟨hinc, nofun, rfl⟩)
    constructor
    · rintro ⟨u, hu, hle⟩ ⟨e, rfl, hstart, -, hinc'⟩
      obtain rfl := Option.some.inj (hopen.symm.trans hu)
      have hle : loweredLevel start inc ≤ nextRank e :=
        Nat.le_trans hle ((loweredLevel_le_iff hinc).mpr (.inl (Nat.le_refl _)))
      rcases (loweredLevel_le_iff hinc).mp hle with hle | ⟨i, hi, hle⟩
      · exact absurd hle (Nat.not_le_of_lt hstart)
      · exact absurd hle (Nat.not_le_of_lt (hinc' i hi))
    · intro hno
      refine ⟨_, hopen, ?_⟩
      rcases exc with _ | _ | e
      · exact Nat.le_refl _
      · exact absurd rfl hexc
      · rcases inc with _ | _ | i
        · exact Nat.le_of_not_lt fun hstart => hno ⟨e, rfl, hstart, nofun, nofun⟩
        · exact absurd rfl hinc
        · have hlow : nextRank e < start → i ≤ nextRank e := fun hstart => Nat.le_of_not_lt fun hi =>
            hno ⟨e, rfl, hstart, nofun, fun j hj => by cases hj; exact hi⟩
          simp only [raisedLevel, loweredLevel]
          omega

theorem closedLevel_without (h : closedLevel start inc exc = some t) :
    ∃ u, closedLevel start inc none = some u ∧ u ≤ t := by
  obtain ⟨hinc, -, rfl⟩ := closedLevel_eq_some_iff.mp h
  exact ⟨_, closedLevel_eq_some_iff.mpr ⟨hinc, nofun, rfl⟩, by simp only [leastLevel]; omega⟩

/-- Excludes do not add ranks to those that a route delivers, unless the route is open and they take its level down. -/
theorem excludes_narrow_iff (ht : route.lowestRank? engine channel levels = some t) :
    (∃ u, route.withoutExcludes.lowestRank? { engine with excludes := [] } channel levels = some u ∧ u ≤ t) ↔
      ¬(route.policy.getD engine.policy = .everything ∧
        LowersLevel (route.baseLevel engine) (route.includeFor engine channel) (route.excludeFor engine channel)) := by
  have hlevel := (Option.filter_eq_some_iff.mp ht).1
  have hwithout : (∃ u, route.withoutExcludes.lowestRank? { engine with excludes := [] } channel levels = some u ∧ u ≤ t) ↔
      ∃ u, levelFor (route.policy.getD engine.policy) (route.baseLevel engine) (route.includeFor engine channel) none =
        some u ∧ u ≤ t := by
    have hnone : route.withoutExcludes.excludeFor { engine with excludes := [] } channel = none :=
      excludeFor_withoutExcludes
    rw [← hnone]
    exact delivers_iff (lowestRank?_lt ht)
  rw [hwithout]
  cases hpolicy : route.policy.getD engine.policy with
  | everything =>
    rw [hpolicy] at hlevel
    simpa [levelFor] using openLevel_without_iff hlevel
  | nothing =>
    rw [hpolicy] at hlevel
    simpa [levelFor] using closedLevel_without hlevel

end

/-- What the engine excludes takes the level of a route up. -/
theorem excluded_from_level : ({ level := some 2 } : RouteFilter).lowestRank? (excluding 2) "db" 5 = some 3 ∧
    ∃ u, ({ level := some 2 } : RouteFilter).withoutExcludes.lowestRank? {} "db" 5 = some u ∧ u ≤ 3 := by
  have ht : ({ level := some 2 } : RouteFilter).lowestRank? (excluding 2) "db" 5 = some 3 := by decide
  refine ⟨ht, (excludes_narrow_iff ht).mpr ?_⟩
  rintro ⟨-, e, he, hlow, -⟩
  have hexc : excludeFor { level := some 2 } (excluding 2) "db" = some (.rank 2) := by decide
  cases hexc.symm.trans he
  exact absurd hlow (by decide)

/-- What the engine excludes takes the level of a route down. -/
theorem excluded_below_level : ¬∀ (route : RouteFilter) (engine : GlobalFilter) (channel : String) (levels t : Nat)
    (x : Threshold), route.excludeFor engine channel = some x → route.lowestRank? engine channel levels = some t →
    ∃ u, route.withoutExcludes.lowestRank? { engine with excludes := [] } channel levels = some u ∧ u ≤ t := by
  intro hall
  have hexc : excludeFor { level := some 3 } (excluding 1) "db" = some (.rank 1) := by decide
  obtain ⟨u, hu, hle⟩ := hall { level := some 3 } (excluding 1) "db" 5 2 _ hexc (by decide)
  have hthree : ({ level := some 3 } : RouteFilter).withoutExcludes.lowestRank? {} "db" 5 = some 3 := by decide
  obtain rfl := Option.some.inj (hu.symm.trans hthree)
  exact absurd hle (by decide)

end RouteFilter

end LogDispatch
