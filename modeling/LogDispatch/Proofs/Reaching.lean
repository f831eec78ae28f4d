import LogDispatch.Proofs.Calls
import LogDispatch.Proofs.Fallbacks
import LogDispatch.Proofs.Levels
import LogDispatch.Proofs.Selection

/-! Which routes a log call reaches through a channel. It tries the routes whose lowest rank for the module of the
    channel is at most its own, each once and in order, whatever happens meanwhile; the levels that a channel lists
    for its routes are the lowest ones by which they are reached. -/

namespace LogDispatch

/-! ### Routes within reach -/

/-- The routes that admit records of a rank through a channel of a module. A process of the wrong role reaches
    none. -/
def Generation.reached (g : Generation) (module : String) (rank : Nat) : List Route :=
  if g.admitsRole then
    g.routes.filter fun r => (r.filter.lowestRank? g.filter module g.levels.size).any (· ≤ rank)
  else []

section
variable {g : Generation} {module name level : String} {rank : Nat} {r : Route}

theorem map_getElem?_zipIdx {α β : Type} (xs : List α) (f : α → β) (p : β → Bool) :
    ((xs.map f).zipIdx.filterMap fun (b, i) => if p b then some i else none).map (xs[·]?) =
      (xs.filter fun x => p (f x)).map some := by
  have hplace : ∀ y ∈ xs.zipIdx, (if p (f y.1) then some xs[y.2]? else none) =
      if p (f y.1) then some (some y.1) else none := by
    intro y hy
    rw [List.mem_zipIdx_iff_getElem?.mp hy]
  have hfirst : xs.zipIdx.map Prod.fst = xs := List.zipIdx_map_fst 0 xs
  calc ((xs.map f).zipIdx.filterMap fun (b, i) => if p b then some i else none).map (xs[·]?)
      = xs.zipIdx.filterMap fun y => if p (f y.1) then some xs[y.2]? else none := by
        rw [List.zipIdx_map, List.filterMap_map, List.map_filterMap]
        refine List.filterMap_congr fun y _ => ?_
        by_cases hp : p (f y.1) <;> simp [hp]
    _ = (xs.zipIdx.map Prod.fst).filterMap fun x => if p (f x) then some (some x) else none := by
        rw [List.filterMap_map]
        exact List.filterMap_congr hplace
    _ = (xs.filter fun x => p (f x)).map some := by
        rw [hfirst, ← List.filterMap_eq_map, ← List.filterMap_eq_filter, List.filterMap_filterMap]
        refine List.filterMap_congr fun x _ => ?_
        by_cases hp : p (f x) <;> simp [hp, Option.guard]

/-- The places that a table selects are those of the routes within reach. -/
theorem map_select_compute (g : Generation) (module : String) (rank : Nat) :
    ((RouteLevels.compute g module).select rank).map (g.routes[·]?) = (g.reached module rank).map some := by
  unfold RouteLevels.compute RouteLevels.select Generation.reached
  rw [map_getElem?_zipIdx]
  cases g.admitsRole <;> simp

theorem map_route_logDeliveries (channel : Option Frame) (caller : List Frame) (text : String) (places : List Nat) :
    (g.logDeliveries channel caller rank text places).map (fun d => g.routes[d.route]?) =
      places.map (g.routes[·]?) := by
  unfold Generation.logDeliveries
  rw [List.map_map]
  rfl

/-- The lowest rank that the table of a module has for a route. -/
def Generation.lowest? (g : Generation) (module : String) (r : Route) : Option Nat :=
  if g.admitsRole then r.filter.lowestRank? g.filter module g.levels.size else none

theorem mem_reached_iff : r ∈ g.reached module rank ↔
    r ∈ g.routes ∧ ∃ lowest, g.lowest? module r = some lowest ∧ lowest ≤ rank := by
  unfold Generation.reached Generation.lowest?
  cases g.admitsRole <;> simp [Option.any_eq_true]

theorem lowest?_lt {lowest : Nat} (h : g.lowest? module r = some lowest) : lowest < g.levels.size := by
  obtain ⟨-, h⟩ := Option.ite_none_right_eq_some.mp h
  simpa using (Option.filter_eq_some_iff.mp h).2

/-- The rank is the lowest one that reaches the route. -/
theorem lowest?_eq_some_iff (hr : r ∈ g.routes) : g.lowest? module r = some rank ↔
    r ∈ g.reached module rank ∧ ∀ rank', r ∈ g.reached module rank' → rank ≤ rank' := by
  constructor
  · intro h
    refine ⟨mem_reached_iff.mpr ⟨hr, rank, h, Nat.le_refl _⟩, fun rank' hrank' => ?_⟩
    obtain ⟨-, lowest, hlowest, hle⟩ := mem_reached_iff.mp hrank'
    obtain rfl := Option.some.inj (h.symm.trans hlowest)
    exact hle
  · rintro ⟨hreached, hleast⟩
    obtain ⟨-, lowest, hlowest, hle⟩ := mem_reached_iff.mp hreached
    have hge := hleast lowest (mem_reached_iff.mpr ⟨hr, lowest, hlowest, Nat.le_refl _⟩)
    rw [hlowest, Nat.le_antisymm hle hge]

/-- The table of a module names every route that some rank reaches, with the lowest such rank. -/
theorem get?_names_compute (hnodup : (g.routes.map (·.name)).Nodup) :
    ((RouteLevels.compute g module).names g).get? name = some level ↔
      ∃ r ∈ g.routes, r.name = name ∧ ∃ rank, g.levels.name? rank = some level ∧ r ∈ g.reached module rank ∧
        ∀ rank', r ∈ g.reached module rank' → rank ≤ rank' := by
  have hthresholds : (RouteLevels.compute g module).thresholds = g.routes.map (g.lowest? module) := rfl
  have hnames : (RouteLevels.compute g module).names g = .ofList (g.routes.filterMap fun r =>
      ((g.lowest? module r).bind g.levels.name?).map fun name => (r.name, name)) := by
    rw [RouteLevels.names, hthresholds, List.zip_eq_zipWith, List.zipWith_map_right, List.zipWith_self,
      List.filterMap_map]
    rfl
  rw [SortedDict.get?_eq_some_iff, hnames, SortedDict.mem_ofList (nodup_keys_filterMap _ hnodup), List.mem_filterMap]
  constructor
  · rintro ⟨r, hr, h⟩
    obtain ⟨level', hlevel, h⟩ := Option.map_eq_some_iff.mp h
    obtain ⟨rank, hrank, hname⟩ := Option.bind_eq_some_iff.mp hlevel
    obtain ⟨rfl, rfl⟩ := Prod.mk.inj h
    exact ⟨r, hr, rfl, rank, hname, (lowest?_eq_some_iff hr).mp hrank⟩
  · rintro ⟨r, hr, rfl, rank, hname, hleast⟩
    exact ⟨r, hr, by simp [(lowest?_eq_some_iff hr).mpr hleast, hname]⟩

end

/-! ### Roles and names of levels -/

/-- The role goes by a name. Where both roles have one name, the first goes by it. -/
def Role.GoesBy (names : NamePair) (name : String) : Role → Prop
  | .master => names.first = name
  | .worker => names.first ≠ name ∧ names.second = name

/-- The configuration asks for the role, by the name that it goes by; `any` asks for none. -/
def Config.Requires (config : Config) (role : Role) : Prop :=
  ∃ names name, NamePair.ofOption "roles" .roles config.roles = .ok names ∧ config.role = some name ∧
    Text.trim name ≠ "any" ∧ role.GoesBy names (Text.trim name)

theorem Role.requirement_eq_ok {names : NamePair} {name : String} {required : Option Role}
    (h : Role.requirement names name = .ok required) (role : Role) :
    required = some role ↔ Text.trim name ≠ "any" ∧ role.GoesBy names (Text.trim name) := by
  unfold requirement NamePair.pick? at h
  dsimp only at h
  split at h
  · rename_i hany
    obtain rfl := Except.ok.inj h
    exact ⟨nofun, fun hne => absurd hany hne.1⟩
  · rename_i hany
    by_cases hfirst : names.first = Text.trim name
    · rw [if_pos hfirst] at h
      obtain rfl := Except.ok.inj h
      cases role <;> simp [GoesBy, hany, hfirst]
    · rw [if_neg hfirst] at h
      by_cases hsecond : names.second = Text.trim name
      · rw [if_pos hsecond] at h
        obtain rfl := Except.ok.inj h
        cases role <;> simp [GoesBy, hany, hfirst, hsecond]
      · rw [if_neg hsecond] at h
        cases h

/-- A generation has the role that its configuration asks for. -/
theorem Draft.requiredRole_ofConfig {setup : Setup} {id : GenerationId} {config : Config} {d : Draft}
    (h : ofConfig setup id config = .ok d) (role : Role) :
    d.generation.requiredRole = some role ↔ config.Requires role := by
  unfold ofConfig at h
  obtain ⟨_, -, h⟩ := bind_eq_ok h
  obtain ⟨names, hnames, h⟩ := bind_eq_ok h
  obtain ⟨_, -, h⟩ := bind_eq_ok h
  obtain ⟨_, -, h⟩ := bind_eq_ok h
  obtain ⟨required, hrequired, h⟩ := bind_eq_ok h
  iterate 7 obtain ⟨_, -, h⟩ := bind_eq_ok h
  obtain rfl := Except.ok.inj h
  have hnames := checked_eq_ok hnames
  have hrequired := checked_eq_ok hrequired
  cases hrole : config.role with
  | none =>
    rw [hrole] at hrequired
    obtain rfl := Except.ok.inj hrequired
    exact ⟨nofun, fun ⟨_, _, _, hname, _⟩ => by cases hrole.symm.trans hname⟩
  | some name =>
    rw [hrole, whenGiven] at hrequired
    cases hasked : Role.requirement names name with
    | error =>
      rw [hasked] at hrequired
      cases hrequired
    | ok asked =>
      rw [hasked] at hrequired
      obtain rfl := Except.ok.inj hrequired
      show asked = some role ↔ _
      rw [Role.requirement_eq_ok hasked]
      refine ⟨fun h => ⟨names, name, hnames, hrole, h⟩, ?_⟩
      rintro ⟨names', name', hnames', hname', h⟩
      obtain rfl := Except.ok.inj (hnames.symm.trans hnames')
      obtain rfl := Option.some.inj (hrole.symm.trans hname')
      exact h

theorem Drafted.requiredRole_iff {setup : Setup} {config : Config} {d : Draft} (h : Drafted setup config d)
    (role : Role) : d.generation.requiredRole = some role ↔ config.Requires role := by
  induction h with
  | start h => exact Draft.requiredRole_ofConfig h role
  | attach _ _ _ _ ih => exact ih

theorem Generation.Built.requiredRole_iff {setup : Setup} {config : Config} {g : Generation}
    (h : g.Built setup config) (role : Role) : g.requiredRole = some role ↔ config.Requires role := by
  obtain ⟨hd, -⟩ := h
  exact hd.requiredRole_iff role

theorem Drafted.role_and_levels {setup : Setup} {config : Config} {d : Draft} (h : Drafted setup config d) :
    d.generation.role = setup.role ∧ d.generation.levels.names.Nodup := by
  induction h with
  | start h =>
    unfold Draft.ofConfig at h
    obtain ⟨levels, hlevels, h⟩ := bind_eq_ok h
    iterate 11 obtain ⟨_, -, h⟩ := bind_eq_ok h
    obtain rfl := Except.ok.inj h
    refine ⟨rfl, ?_⟩
    have hlevels := checked_eq_ok hlevels
    split at hlevels
    · exact LevelTable.nodup_ofNames? hlevels
    · obtain rfl := Except.ok.inj hlevels
      exact (by decide : defaultLevels.Nodup)
  | attach _ _ _ _ ih => exact ih

theorem Generation.Built.role_and_levels {setup : Setup} {config : Config} {g : Generation}
    (h : g.Built setup config) : g.role = setup.role ∧ g.levels.names.Nodup := by
  obtain ⟨hd, -⟩ := h
  exact hd.role_and_levels

/-! ### The attempts of a log call -/

namespace Engine
variable {e e' : Engine} {task : TaskId} {a : Action} {m : Move} {es : List Event} {agenda : List Action}
  {call : Call} {g : Generation} {channel : ChannelId} {rank : Nat} {text : String} {known : List Generation}

theorem admission_eq_select {level : Level} {message : Message} (hopen : e.isClosed = false)
    (hsubject : call.subject = .log level message) (hchannel : call.channel = some channel)
    (hmode : g.channelMode = true) (hrank : g.levels.resolve level = .ok rank) (htext : message.render = .ok text) :
    e.admission call g = .ok (.select call g channel rank text) := by
  simp only [admission, hopen, hsubject, hrank, htext, hchannel, hmode, Bool.false_eq_true, if_false]

/-- Whatever table a channel has, the routes are chosen by that of the call's generation. -/
theorem does_select {c : Channel} (hf : Founded e known) (hg : g ∈ known) (hc : e.channels[channel]? = some c)
    (h : Does e task (.select call g channel rank text) m) :
    Decides (m.next ++ leaving g .done) (.accepted (g.logDeliveries (e.channelFrame call) call.caller rank text
      ((RouteLevels.compute g c.module).select rank))) := by
  generalize hnext : m.next = next
  cases hnext ▸ h.next with
  | nothing hend => cases hend
  | noChannel hnone =>
    rw [hc] at hnone
    cases hnone
  | select hc' htable =>
    obtain rfl := Option.some.inj (hc.symm.trans hc')
    rw [hf.tableFor?_eq hc hg htable]
    exact .accept
  | stale hc' =>
    obtain rfl := Option.some.inj (hc.symm.trans hc')
    exact Decides.accept.refresh

/-- A call on the way to its channel has attempted nothing, or has chosen its routes and attempts them in order. -/
theorem attempts_selected {c : Channel} (ho : Orderly e) (hl : Lineage e known) (hr : Run e es e')
    (hagenda : e.agendas[task]? = some (.select call g channel rank text :: leaving g .done))
    (hc : e.channels[channel]? = some c) :
    ∃ agenda, e'.agendas[task]? = some agenda ∧ agenda.all (Action.isWithin 8) = true ∧
      ((agenda ≠ [] ∧ attempts task es = []) ∨
        (attempts task es ++ agenda.flatMap Action.deliveries).map (fun d => g.routes[d.route]?) =
          (g.reached c.module rank).map some) := by
  rcases hr.first_deed hagenda with ⟨hnone, hsame⟩ | ⟨before, ev, after, m, rfl, hnone, hbefore, -, hdeed, hafter⟩
  · refine ⟨_, hsame, ?_, .inl ⟨by simp, by simp [attempts, hnone]⟩⟩
    rw [List.all_cons, all_within_mono (by decide) (within_leaving g .done)]
    rfl
  · obtain ⟨c', hc', hmodule, -⟩ := tablesRise_run ho hl hbefore channel c hc
    have hlineage := hl.run ho hbefore
    have hg : g ∈ known ++ installs before := (hlineage.rooted _ (List.mem_of_getElem? hdeed.agenda)).1.1
    have hdecides := does_select (hlineage.toFounded.setAgenda _) hg hc' hdeed.does
    obtain ⟨agenda, hagenda', hwithin, -, hattempts⟩ := hdecides.run hafter hdeed.agenda_after
    refine ⟨agenda, hagenda', all_within_mono (by decide) hwithin, .inr ?_⟩
    have hearlier : attempts task (before ++ ev :: after) = attempts task after := by
      rw [attempts, deeds_append, hnone, deeds_cons, hdeed.deeds]
      rfl
    rw [hearlier, hattempts, hmodule, Decision.deliveries, map_route_logDeliveries, map_select_compute]

section
variable {setup : Setup} {files : File.Store} {config : Config}

/-- What a log call attempts once it has been let through. -/
theorem attempts_screened {before after : List Event} {ev : Event} {level : Level} {message : Message} {c : Channel}
    (h : Run (start setup files config) (before ++ ev :: after) e) (hmodules : setup.modules = true)
    (htask : ev.op.task? = some task) (haction : ev.action? = some (.screen call g))
    (hsubject : call.subject = .log level message) (hchannel : call.channel = some channel)
    (hc : ev.before.channels[channel]? = some c) (hopen : ev.before.isClosed = false)
    (hrank : g.levels.resolve level = .ok rank) (htext : message.render = .ok text) :
    g ∈ installs (before ++ ev :: after) ∧
    ∃ agenda, e.agendas[task]? = some agenda ∧ agenda.all (Action.isWithin 8) = true ∧
      ((agenda ≠ [] ∧ attempts task (before ++ ev :: after) = []) ∨
        (attempts task (before ++ ev :: after) ++ agenda.flatMap Action.deliveries).map (fun d => g.routes[d.route]?) =
          (g.reached c.module rank).map some) := by
  obtain ⟨hbefore, hs, hafter⟩ := h.split
  obtain ⟨rest, m, hdeed⟩ := deed_of_action? hs htask haction
  have ho := (Orderly.start setup files config).run hbefore
  have hl : Lineage ev.before (installs before) := hbefore.lineage
  have hmem := List.mem_of_getElem? hdeed.agenda
  have hg : g ∈ installs before := (hl.rooted _ hmem).1.1
  have hmode : g.channelMode = true := by
    rw [(hl.sound g hg).channelMode, hbefore.setup]
    exact hmodules
  have hadmission : (ev.before.setAgenda task rest).admission call g = .ok (.select call g channel rank text) :=
    admission_eq_select hopen hsubject hchannel hmode hrank htext
  have hnow := hdeed.agenda_after
  obtain rfl : rest = leaving g .done := (ho.arranged _ hmem).fits
  rw [does_screen hdeed.does hadmission] at hnow
  have hl' : Lineage ev.after (installs (before ++ [ev])) := (hbefore.step hs).lineage
  have hc' : ∃ c', ev.after.channels[channel]? = some c' ∧ c'.module = c.module :=
    (step_grows hs).channels channel c hc
  obtain ⟨c', hc', hmodule⟩ := hc'
  obtain ⟨agenda, hagenda, hwithin, hattempts⟩ := attempts_selected (ho.step hs) hl' hafter hnow hc'
  have hearlier : attempts task (before ++ ev :: after) = attempts task after := hbefore.attempts_after_screen hdeed
  refine ⟨?_, agenda, hagenda, hwithin, ?_⟩
  · rw [installs_append]
    exact List.mem_append_left _ hg
  · rw [hearlier, ← hmodule]
    exact hattempts

/-- An attempt hands the record to the transport of its route, unless rendering it panics. -/
theorem out_of_attempt {r : Route} {k : FanOutId} {d : Delivery} (hr : g.routes[d.route]? = some r)
    (htext : d.text = .ok text) (h : Does e task (.attempt g k d) m) :
    .out task r.transport (d.record g r text) e.acks.length ∈ m.effects := by
  cases h with
  | perform h =>
    obtain rfl := Option.some.inj h
    simp only [Engine.attempt, hr, htext]
    unfold deliver
    split
    · exact List.mem_singleton_self _
    · exact List.mem_cons_self
    · split <;> exact List.mem_singleton_self _
    · exact List.mem_singleton_self _

theorem routeLevels_eq {c : Channel} (hf : Founded e known) (hlive : e.live = some g)
    (hc : e.channels[channel]? = some c) : e.routeLevels channel = (RouteLevels.compute g c.module).names g := by
  have htable : tableFor c g = .compute g c.module := by
    unfold tableFor
    cases ht : c.tableFor? g with
    | none => rfl
    | some table => exact hf.tableFor?_eq hc (hf.live g hlive) ht
  simp only [Engine.routeLevels, hlive, hc, htable]

/-- The routes of a generation follow the configuration that it was built from, under names of their own. None of them is
    within reach if the configuration asks for a role that the process does not have; else those are whose lowest rank
    for the module is at most the rank. A log call through a channel of an engine with modules attempts one delivery to
    each route within reach of its rank, in order, and none to any other one: the attempts so far are the first of them,
    they are all once the call is over, and it can always be brought to its end. An attempt hands the record to the
    transport of its route. A channel lists the routes that some rank reaches, each with the name of the lowest. -/
theorem log_calls_reach_their_routes (h : Run (start setup files config) es e) (hmodules : setup.modules = true) :
    (∀ g ∈ installs es, (g.routes.map (·.name)).Nodup ∧ g.levels.names.Nodup ∧ ∃ config ∈ builds es,
      g.Built setup config ∧ g.routes.map (·.name) = config.titles ∧
      (∀ role, config.Requires role → role ≠ setup.role → ∀ module rank, g.reached module rank = []) ∧
      ((∀ role, config.Requires role → role = setup.role) → ∀ module rank r, r ∈ g.reached module rank ↔
        r ∈ g.routes ∧ ∃ t, r.filter.lowestRank? g.filter module g.levels.size = some t ∧ t ≤ rank)) ∧
    (∀ before ev after task call g level message channel c rank text, es = before ++ ev :: after →
      ev.op.task? = some task → ev.action? = some (.screen call g) → call.subject = .log level message →
      call.channel = some channel → ev.before.channels[channel]? = some c → ev.before.isClosed = false →
      g.levels.resolve level = .ok rank → message.render = .ok text →
      g ∈ installs es ∧
      (attempts task es).map (fun d => g.routes[d.route]?) <+: (g.reached c.module rank).map some ∧
      (e.agendas[task]? = some [] →
        (attempts task es).map (fun d => g.routes[d.route]?) = (g.reached c.module rank).map some) ∧
      ∃ es' e', Run e es' e' ∧ (∀ ev' ∈ es', ev'.op.task? = some task) ∧ e'.agendas[task]? = some []) ∧
    (∀ ev ∈ es, ∀ task g k d text, ev.op.task? = some task → ev.action? = some (.attempt g k d) →
      d.text = .ok text → ∃ r, g.routes[d.route]? = some r ∧
        .out task r.transport (d.record g r text) ev.before.acks.length ∈ ev.effects) ∧
    ∀ g channel c, e.live = some g → e.channels[channel]? = some c →
      (∀ r ∈ g.routes, (e.routeLevels channel).get? r.name ≠ none ↔
        ∃ rank < g.levels.size, r ∈ g.reached c.module rank) ∧
      ∀ name level, (e.routeLevels channel).get? name = some level ↔
        ∃ r ∈ g.routes, r.name = name ∧ ∃ rank, g.levels.name? rank = some level ∧
          r ∈ g.reached c.module rank ∧ ∀ rank', r ∈ g.reached c.module rank' → rank ≤ rank' := by
  have hl : Lineage e (installs es) := h.lineage
  refine ⟨fun g hg => ?_, ?_, ?_, ?_⟩
  · obtain ⟨config, hconfig, hbuilt⟩ := h.installs_built g hg
    obtain ⟨-, htitles, hnodup⟩ := hbuilt.wellFormed
    obtain ⟨hrole, hlevels⟩ := hbuilt.role_and_levels
    refine ⟨hnodup, hlevels, config, hconfig, hbuilt, htitles, fun role hrequired hne module rank => ?_,
      fun hright module rank r => ?_⟩
    · have hwrong : g.admitsRole = false := by
        simp only [Generation.admitsRole, (hbuilt.requiredRole_iff role).mpr hrequired, hrole]
        exact beq_eq_false_iff_ne.mpr hne
      rw [Generation.reached, hwrong]
      rfl
    · have hadmits : g.admitsRole = true := by
        unfold Generation.admitsRole
        split
        · rename_i role hrequired
          rw [hrole]
          exact beq_iff_eq.mpr (hright role ((hbuilt.requiredRole_iff role).mp hrequired))
        · rfl
      rw [mem_reached_iff, Generation.lowest?, if_pos hadmits]
  · rintro before ev after task call g level message channel c rank text rfl htask haction hsubject hchannel hc hopen
      hrank htext
    obtain ⟨hg, agenda, hagenda, hwithin, hattempts⟩ :=
      attempts_screened h hmodules htask haction hsubject hchannel hc hopen hrank htext
    refine ⟨hg, ?_, fun hend => ?_, exists_end hagenda hwithin⟩
    · rcases hattempts with ⟨-, hnone⟩ | hall
      · rw [hnone]
        exact List.nil_prefix
      · rw [← hall, List.map_append]
        exact List.prefix_append _ _
    · obtain rfl := Option.some.inj (hagenda.symm.trans hend)
      rcases hattempts with ⟨hne, -⟩ | hall
      · exact absurd rfl hne
      · simpa using hall
  · intro ev hev task g k d text htask haction htext
    obtain ⟨-, -, r, hr, -⟩ := h.attempt_chosen hev haction
    obtain ⟨before, after, rfl⟩ := List.append_of_mem hev
    obtain ⟨rest, m, hdeed⟩ := deed_of_action? h.split.2.1 htask haction
    refine ⟨r, hr, ?_⟩
    rw [hdeed.effects]
    have hout := out_of_attempt hr htext hdeed.does
    exact hout
  · intro g channel c hlive hc
    obtain ⟨config, -, hbuilt⟩ := h.installs_built g (hl.live g hlive)
    obtain ⟨-, -, hnames⟩ := hbuilt.wellFormed
    rw [routeLevels_eq hl.toFounded hlive hc]
    refine ⟨fun r hr => ?_, fun name level => get?_names_compute hnames⟩
    rw [Option.ne_none_iff_exists']
    constructor
    · rintro ⟨level, hlevel⟩
      obtain ⟨r', hr', hname, rank, -, hreached, hleast⟩ := (get?_names_compute hnames).mp hlevel
      obtain rfl := List.inj_on_of_nodup_map hnames hr' hr hname
      exact ⟨rank, lowest?_lt ((lowest?_eq_some_iff hr).mpr ⟨hreached, hleast⟩), hreached⟩
    · rintro ⟨rank, -, hreached⟩
      obtain ⟨-, lowest, hlowest, -⟩ := mem_reached_iff.mp hreached
      obtain ⟨level, hlevel⟩ : ∃ level, g.levels.name? lowest = some level :=
        ⟨_, List.getElem?_eq_getElem (lowest?_lt hlowest)⟩
      exact ⟨level, (get?_names_compute hnames).mpr ⟨r, hr, rfl, lowest, hlevel, (lowest?_eq_some_iff hr).mp hlowest⟩⟩

end

/-- Two routes, one of them for errors only. -/
def unequal : Config :=
  { modules := true
    routes := some [{ RouteSpec.ofTransport "quiet" "console" with level := some "error" },
      RouteSpec.ofTransport "loud" "console"] }

/-- The engine is built, the channel `db` is opened, and a call through it begins. -/
def untilBegun : List Op :=
  List.replicate 7 (.advance 0) ++ [.begin (.openChannel "db" none)] ++ List.replicate 4 (.advance 1) ++
    [.begin (.call infoCall)]

def begun : Engine := (plain true [] unequal).after untilBegun

/-- The call has taken up its generation. -/
def taken : Engine := begun.after [.advance 2]

def ended : Engine := (taken.after [.advance 2]).after (List.replicate 11 (.advance 2))

theorem exists_step_after {op : Op} (h : (e.step? op).isSome = true) : ∃ fx, e.step? op = some (e.after [op], fx) := by
  obtain ⟨⟨e', fx⟩, hs⟩ := Option.isSome_iff_exists.mp h
  exact ⟨fx, by simp [Engine.after, run?, hs]⟩

/-- The route for errors is not tried, and the channel says so. -/
theorem loud_route_reached_alone :
    (∃ es g, Run (plain true [] unequal) es ended ∧ g ∈ installs es ∧
      (attempts 2 es).map (fun d => g.routes[d.route]?) = (g.reached "db" 1).map some ∧
      (g.reached "db" 1).map (·.name) = ["loud"]) ∧
    (ended.routeLevels 0).entries = [("loud", "debug"), ("quiet", "error")] ∧
    ∃ g, ended.live = some g ∧ ∃ r ∈ g.routes, r.name = "quiet" ∧ ∃ rank, g.levels.name? rank = some "error" ∧
      r ∈ g.reached "db" rank ∧ ∀ rank', r ∈ g.reached "db" rank' → rank ≤ rank' := by
  have hstate : ((plain true [] unequal).run? untilBegun).isSome = true ∧
      (begun.step? (.advance 2)).isSome = true ∧ (taken.step? (.advance 2)).isSome = true ∧
      ((taken.after [.advance 2]).run? (List.replicate 11 (.advance 2))).isSome = true ∧
      begun.live.map (fun g => ((g.levels.resolve (.name "info")).toOption, (g.reached "db" 1).map (·.name))) =
        some (some 1, ["loud"]) ∧
      taken.channels.map (·.module) = ["db"] ∧ taken.isClosed = false ∧ ended.agendas[2]?.map List.length = some 0 ∧
      ended.live.isSome = true ∧ ended.channels.map (·.module) = ["db"] ∧
      (ended.routeLevels 0).entries = [("loud", "debug"), ("quiet", "error")] := by decide +kernel
  obtain ⟨hbegun, hload, hscreen, hrest, hlive, hchannels, hopen, hend, hlive', hchannels', hlevels⟩ := hstate
  obtain ⟨g, hg, hfacts⟩ := Option.map_eq_some_iff.mp hlive
  obtain ⟨hrank, hnames⟩ := Prod.mk.inj hfacts
  have hrank : g.levels.resolve (.name "info") = .ok 1 := by
    cases hresolve : g.levels.resolve (.name "info") with
    | error =>
      rw [hresolve] at hrank
      cases hrank
    | ok rank =>
      rw [hresolve] at hrank
      exact congrArg Except.ok (Option.some.inj hrank)
  -- The call takes up the generation.
  obtain ⟨fx₁, hs₁⟩ := exists_step_after hload
  have hcalling : begun.agendas[2]? = some [.load infoCall] := rfl
  have hscreening : taken.agendas[2]? = some (.screen infoCall g :: leaving g .done) := by
    rcases step_deed hs₁ hcalling with ⟨hother, -⟩ | ⟨a, rest, m, heq, hdeed⟩
    · exact absurd rfl hother
    · obtain ⟨rfl, rfl⟩ := List.cons.inj heq
      obtain ⟨g', hg', hnext⟩ := does_load hdeed.does
      obtain rfl : g' = g := Option.some.inj (hg'.symm.trans hg)
      have hnow := hdeed.agenda_after
      have hforbidden : isForbidden infoCall g' = false := by simp [isForbidden, infoCall]
      rw [hnext, hforbidden, List.append_nil] at hnow
      exact hnow
  have hbefore := (run_history _ _ hbegun).step hs₁
  -- It is screened and goes on to its end.
  obtain ⟨fx₂, hs₂⟩ := exists_step_after hscreen
  have hrun := (hbefore.step hs₂).trans (run_history _ _ hrest)
  rw [List.append_assoc, List.singleton_append] at hrun
  have channel : ∀ {e : Engine}, e.channels.map (·.module) = ["db"] →
      ∃ c, e.channels[0]? = some c ∧ c.module = "db" := by
    intro e he
    have hfirst : (e.channels.map (·.module))[0]? = some "db" := by rw [he]; rfl
    rw [List.getElem?_map] at hfirst
    exact Option.map_eq_some_iff.mp hfirst
  obtain ⟨c, hc, hmodule⟩ := channel hchannels
  obtain ⟨c', hc', hmodule'⟩ := channel hchannels'
  obtain ⟨g', hg'⟩ := Option.isSome_iff_exists.mp hlive'
  obtain ⟨-, hreaches, -, hlists⟩ := log_calls_reach_their_routes hrun rfl
  have hover : ended.agendas[2]? = some [] := by
    obtain ⟨agenda, hagenda, hlength⟩ := Option.map_eq_some_iff.mp hend
    rw [hagenda, List.length_eq_zero_iff.mp hlength]
  obtain ⟨hmem, -, hall, -⟩ := hreaches _ _ _ 2 infoCall g _ _ 0 c 1 "up" rfl rfl (action?_of_task rfl hscreening) rfl
    rfl hc hopen hrank rfl
  refine ⟨⟨_, g, hrun, hmem, by simpa only [hmodule] using hall hover, hnames⟩, hlevels, g', hg', ?_⟩
  have hquiet : (ended.routeLevels 0).get? "quiet" = some "error" := by
    rw [SortedDict.get?_eq_some_iff, hlevels]
    simp
  obtain ⟨r, hr, hname, hleast⟩ := ((hlists g' 0 c' hg' hc').2 "quiet" "error").mp hquiet
  rw [hmodule'] at hleast
  exact ⟨r, hr, hname, hleast⟩

end Engine

end LogDispatch
