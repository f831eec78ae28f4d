import LogDispatch.Proofs.Carrying

/-! Log calls where no channels are in use. Such a call goes to one route at most: of the routes whose level lies between
    the floor and the rank of the call, to the last of those with the highest level (`flat_calls_reach_last_highest`). -/

namespace LogDispatch

namespace Generation

variable {g : Generation} {rank rank' i l : Nat} {r : Route} {rs : List Route}

/-- The level of a route where no channels are in use: its own, else the floor, else the lowest of all. -/
def flatLevel (g : Generation) (r : Route) : Nat := (r.filter.level.or g.filter.floor).getD 0

/-- The level of the route is at least the floor and at most the rank. -/
def Spans (g : Generation) (rank : Nat) (r : Route) : Prop := g.filter.floor.getD 0 ≤ g.flatLevel r ∧ g.flatLevel r ≤ rank

/-- The route at the place spans the rank; the others that do so have lower levels, or the same one and come before. -/
structure Leads (g : Generation) (rank : Nat) (rs : List Route) (i : Nat) (r : Route) : Prop where
  place : rs[i]? = some r
  spans : g.Spans rank r
  best : ∀ j r', rs[j]? = some r' → g.Spans rank r' → g.flatLevel r' < g.flatLevel r ∨ g.flatLevel r' = g.flatLevel r ∧ j ≤ i

theorem Leads.unique {i' : Nat} {r' : Route} (h : g.Leads rank rs i r) (h' : g.Leads rank rs i' r') : i = i' := by
  obtain ⟨hr, hspans, hbest⟩ := h
  obtain ⟨hr', hspans', hbest'⟩ := h'
  have hle := hbest i' r' hr' hspans'
  have hge := hbest' i r hr hspans
  omega

theorem Leads.of_none (hspans : g.Spans rank r) (hnone : ∀ r' ∈ rs, ¬g.Spans rank r') : g.Leads rank (r :: rs) 0 r := by
  refine ⟨rfl, hspans, fun j r' hr' hspans' => ?_⟩
  cases j with
  | zero =>
    obtain rfl := Option.some.inj hr'
    exact .inr ⟨rfl, Nat.le_refl _⟩
  | succ j => exact absurd hspans' (hnone r' (List.mem_of_getElem? hr'))

/-- A higher level goes before the best of the routes that follow. -/
theorem Leads.of_lt {r₁ : Route} (h : g.Leads rank rs i r) (hspans : g.Spans rank r₁)
    (hlt : g.flatLevel r < g.flatLevel r₁) : g.Leads rank (r₁ :: rs) 0 r₁ := by
  refine ⟨rfl, hspans, fun j r' hr' hspans' => ?_⟩
  cases j with
  | zero =>
    obtain rfl := Option.some.inj hr'
    exact .inr ⟨rfl, Nat.le_refl _⟩
  | succ j =>
    have hbest := h.best j r' hr' hspans'
    exact .inl (by omega)

theorem Leads.of_le {r₁ : Route} (h : g.Leads rank rs i r) (hle : g.Spans rank r₁ → g.flatLevel r₁ ≤ g.flatLevel r) :
    g.Leads rank (r₁ :: rs) (i + 1) r := by
  obtain ⟨hr, hspans, hbest⟩ := h
  refine ⟨hr, hspans, fun j r' hr' hspans' => ?_⟩
  cases j with
  | zero =>
    obtain rfl := Option.some.inj hr'
    have := hle hspans'
    omega
  | succ j =>
    have := hbest j r' hr' hspans'
    omega

/-- What is found from a place on is the route that leads the rest; nothing is found only if none of the rest spans the
    rank. -/
theorem bestRoute?_spec (g : Generation) (rank index : Nat) (rs : List Route) :
    match g.bestRoute? (g.filter.floor.getD 0) rank index rs with
    | some (i, l) => ∃ k r, i = index + k ∧ l = g.flatLevel r ∧ g.Leads rank rs k r
    | none => ∀ r ∈ rs, ¬g.Spans rank r := by
  induction rs generalizing index with
  | nil => exact fun _ hr => absurd hr List.not_mem_nil
  | cons r₁ rs ih =>
    have ih := ih (index + 1)
    have hlevel : r₁.filter.baseLevel g.filter = g.flatLevel r₁ := rfl
    rw [bestRoute?, hlevel]
    cases hbest : g.bestRoute? (g.filter.floor.getD 0) rank (index + 1) rs with
    | none =>
      rw [hbest] at ih
      by_cases hspans : g.Spans rank r₁
      · rw [Spans] at hspans
        simp only [if_pos hspans]
        exact ⟨0, r₁, rfl, rfl, .of_none hspans ih⟩
      · have hspans' := hspans
        rw [Spans] at hspans'
        simp only [if_neg hspans']
        exact List.forall_mem_cons.mpr ⟨hspans, ih⟩
    | some best =>
      obtain ⟨i, l⟩ := best
      rw [hbest] at ih
      obtain ⟨k, r, rfl, rfl, hleads⟩ := ih
      dsimp only
      by_cases hfirst : g.filter.floor.getD 0 ≤ g.flatLevel r₁ ∧ g.flatLevel r₁ ≤ rank ∧ g.flatLevel r < g.flatLevel r₁
      · rw [if_pos hfirst]
        exact ⟨0, r₁, rfl, rfl, hleads.of_lt ⟨hfirst.1, hfirst.2.1⟩ hfirst.2.2⟩
      · rw [if_neg hfirst]
        refine ⟨k + 1, r, by omega, rfl, hleads.of_le fun hspans => ?_⟩
        exact Nat.not_lt.mp fun hlt => hfirst ⟨hspans.1, hspans.2, hlt⟩

theorem flatRoute?_spec (g : Generation) (rank : Nat) :
    match g.flatRoute? rank with
    | some i => ∃ r, g.Leads rank g.routes i r
    | none => ∀ r ∈ g.routes, ¬g.Spans rank r := by
  have hspec := bestRoute?_spec g rank 0 g.routes
  rw [flatRoute?]
  cases hbest : g.bestRoute? (g.filter.floor.getD 0) rank 0 g.routes with
  | none =>
    rw [hbest] at hspec
    exact hspec
  | some best =>
    obtain ⟨i, l⟩ := best
    rw [hbest] at hspec
    obtain ⟨k, r, rfl, -, hleads⟩ := hspec
    rw [Option.map_some, Nat.zero_add]
    exact ⟨r, hleads⟩

/-- The route of a rank is the one that leads all routes. -/
theorem flatRoute?_eq_some_iff : g.flatRoute? rank = some i ↔ ∃ r, g.Leads rank g.routes i r := by
  have hspec := flatRoute?_spec g rank
  constructor
  · intro h
    rw [h] at hspec
    exact hspec
  · rintro ⟨r, hleads⟩
    cases hroute : g.flatRoute? rank with
    | none =>
      rw [hroute] at hspec
      exact absurd hleads.spans (hspec r (List.mem_of_getElem? hleads.place))
    | some j =>
      rw [hroute] at hspec
      obtain ⟨r', hleads'⟩ := hspec
      rw [hleads'.unique hleads]

theorem flatRoute?_ne_none_iff : g.flatRoute? rank ≠ none ↔ ∃ r ∈ g.routes, g.Spans rank r := by
  have hspec := flatRoute?_spec g rank
  cases hroute : g.flatRoute? rank with
  | none =>
    rw [hroute] at hspec
    simpa using hspec
  | some i =>
    rw [hroute] at hspec
    obtain ⟨r, hleads⟩ := hspec
    simpa using ⟨r, List.mem_of_getElem? hleads.place, hleads.spans⟩

theorem Spans.mono (h : g.Spans rank r) (hle : rank ≤ rank') : g.Spans rank' r := ⟨h.1, h.2.trans hle⟩

/-- A higher rank has a route where a lower one has, and its level is no lower. -/
theorem flatRoute?_mono (hle : rank ≤ rank') (h : g.Leads rank g.routes i r) :
    ∃ i' r', g.flatRoute? rank' = some i' ∧ g.Leads rank' g.routes i' r' ∧ g.flatLevel r ≤ g.flatLevel r' := by
  obtain ⟨hr, hspans, -⟩ := h
  have hsome := flatRoute?_ne_none_iff.mpr ⟨r, List.mem_of_getElem? hr, hspans.mono hle⟩
  obtain ⟨i', hi'⟩ := Option.ne_none_iff_exists'.mp hsome
  obtain ⟨r', hleads'⟩ := flatRoute?_eq_some_iff.mp hi'
  have hbest := hleads'.best i r hr (hspans.mono hle)
  exact ⟨i', r', hi', hleads', by omega⟩

end Generation

namespace Engine
variable {e : Engine} {call : Call} {g : Generation} {level : Level} {message : Message} {rank : Nat} {text : String}

theorem admission_eq_flat (hopen : e.isClosed = false) (hsubject : call.subject = .log level message)
    (hmode : g.channelMode = false) (hrank : g.levels.resolve level = .ok rank) (htext : message.render = .ok text) :
    e.admission call g = .ok (.accept g
      (g.logDeliveries (e.channelFrame call) call.caller rank text (g.flatRoute? rank).toList) call.callback) := by
  simp only [admission, hopen, hsubject, hrank, htext, hmode, Bool.false_eq_true, if_false]
  cases call.channel <;> rfl

/-- Where no channels are in use, a rank has a route just if some route spans it, and then it is the one that leads all
    routes; a higher rank has a route too, of no lower level. A log call on an engine that is not shut down is delivered
    to the route of its rank, and to no other one. -/
theorem flat_calls_reach_last_highest : (∀ (g : Generation) (rank : Nat),
      (g.flatRoute? rank ≠ none ↔ ∃ r ∈ g.routes, g.Spans rank r) ∧
      (∀ i, g.flatRoute? rank = some i ↔ ∃ r, g.Leads rank g.routes i r) ∧
      ∀ i r rank', g.Leads rank g.routes i r → rank ≤ rank' → ∃ i' r', g.flatRoute? rank' = some i' ∧
        g.Leads rank' g.routes i' r' ∧ g.flatLevel r ≤ g.flatLevel r') ∧
    ∀ setup files config es e, Run (start setup files config) es e → setup.modules = false →
      ∀ before ev after task call g level message rank text, es = before ++ ev :: after →
      ev.op.task? = some task → ev.action? = some (.screen call g) → call.subject = .log level message →
      ev.before.isClosed = false → g.levels.resolve level = .ok rank → message.render = .ok text →
      g ∈ installs es ∧ ∃ deliveries, CarriesOut task g deliveries call.callback es e ∧
        deliveries.map (·.route) = (g.flatRoute? rank).toList ∧ deliveries.length ≤ 1 := by
  refine ⟨fun g rank => ⟨Generation.flatRoute?_ne_none_iff, fun i => Generation.flatRoute?_eq_some_iff,
    fun i r rank' hleads hle => Generation.flatRoute?_mono hle hleads⟩, ?_⟩
  rintro setup files config es e h hmodules before ev after task call g level message rank text rfl htask haction
    hsubject hopen hrank htext
  have hmode : g.channelMode = false := by
    obtain ⟨hbefore, hs, -⟩ := h.split
    obtain ⟨rest, m, hdeed⟩ := deed_of_action? hs htask haction
    have hl : Lineage ev.before (installs before) := hbefore.lineage
    have hg : g ∈ installs before := (hl.rooted _ (List.mem_of_getElem? hdeed.agenda)).1.1
    rw [(hl.sound g hg).channelMode, hbefore.setup]
    exact hmodules
  obtain ⟨hg, hcarries⟩ := h.carriesOut htask haction (admission_eq_flat hopen hsubject hmode hrank htext)
  have hroutes : ∀ (channel : Option Frame) (places : List Nat),
      (g.logDeliveries channel call.caller rank text places).map (·.route) = places := by
    intro channel places
    simp [Generation.logDeliveries, Function.comp_def]
  refine ⟨hg, _, hcarries, hroutes _ _, ?_⟩
  rw [← List.length_map (f := Delivery.route), hroutes]
  exact Option.length_toList_le

/-- Routes from several levels on; the first one is below the floor. -/
def ranked : Config :=
  { level := some "info"
    routes := some [(RouteSpec.ofTransport "low" "console").withLevel "debug",
      (RouteSpec.ofTransport "early" "console").withLevel "warn",
      (RouteSpec.ofTransport "late" "console").withLevel "warn", RouteSpec.ofTransport "floor" "console",
      (RouteSpec.ofTransport "high" "console").withLevel "error"] }

def warnCall : Call := { subject := .log (.name "warn") (.text "up"), callback := some 0 }

/-- The engine is built, and a log call begins. -/
def untilWarnCall : List Op := List.replicate 10 (.advance 0) ++ [.begin (.call warnCall)]

def warning : Engine := (plain false [] ranked).after untilWarnCall

/-- What has been done by the end of the call. -/
def warnHistory : List Event :=
  (plain false [] ranked).history untilWarnCall ++ warning.history (List.replicate 12 (.advance 1))

/-- The call is over. -/
def warned : Engine := warning.after (List.replicate 12 (.advance 1))

/-- Of two routes from `warn` on the later one gets a warning; a rank that is higher has a route as well. -/
theorem later_route_reached : ∃ (g : Generation) (deliveries : List Delivery),
    Run (plain false [] ranked) warnHistory warned ∧ CarriesOut 1 g deliveries (some 0) warnHistory warned ∧
    (attempts 1 warnHistory).map (·.route) = [2] ∧
    ∃ r i' r', g.Leads 2 g.routes 2 r ∧ g.flatRoute? 7 = some i' ∧ g.Leads 7 g.routes i' r' ∧
      g.flatLevel r ≤ g.flatLevel r' := by
  have hstate : ((plain false [] ranked).run? untilWarnCall).isSome = true ∧
      (warning.run? (List.replicate 12 (.advance 1))).isSome = true ∧
      (warning.live.map fun g => ((g.levels.resolve (.name "warn")).toOption, g.flatRoute? 2, isForbidden warnCall g)) =
        some (some 2, some 2, false) ∧
      (warning.after [.advance 1]).isClosed = false ∧ warned.agendas[1]?.map List.length = some 0 := by decide +kernel
  obtain ⟨hbegun, hrest, hlive, hopen, hend⟩ := hstate
  obtain ⟨g, hlive, hfacts⟩ := Option.map_eq_some_iff.mp hlive
  simp only [Prod.mk.injEq] at hfacts
  obtain ⟨hrank, hroute, hallowed⟩ := hfacts
  obtain ⟨before, ev, after, hes, htask, haction, hbefore⟩ :=
    history_screens warnCall _ rfl hlive hallowed hrest
  have hrun : Run (plain false [] ranked) warnHistory warned :=
    (run_history _ _ hbegun).trans (run_history _ _ hrest)
  obtain ⟨hchooses, hreaches⟩ := flat_calls_reach_last_highest
  obtain ⟨-, deliveries, hcarries, hdeliveries, -⟩ := hreaches _ _ _ _ _ hrun rfl _ _ _ 1 warnCall g _ _ _ _ hes htask
    haction rfl (hbefore ▸ hopen) (eq_ok_of_toOption hrank) rfl
  obtain ⟨-, hleads, hhigher⟩ := hchooses g 2
  obtain ⟨r, hr⟩ := (hleads 2).mp hroute
  obtain ⟨i', r', hi', hr', hle⟩ := hhigher 2 r 7 hr (by decide)
  refine ⟨g, deliveries, hrun, hcarries, ?_, r, i', r', hr, hi', hr', hle⟩
  rw [hcarries.all_tried hend, hdeliveries, hroute]
  rfl

end Engine

end LogDispatch
