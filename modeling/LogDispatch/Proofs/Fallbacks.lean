import LogDispatch.Proofs.FanOut
import LogDispatch.Proofs.WellFormed
import Mathlib.Data.List.Basic

/-! The fallbacks of calls are never taken. Every generation in use was built, so every delivery goes to a route
    that is there, in a format that is there, and messages are looked up in languages that have some. -/

namespace LogDispatch

/-- The configuration that a task is about to build a generation from. -/
def Event.built? (ev : Event) : Option Config :=
  match ev.action? with
  | some (.build config _) => some config
  | _ => none

/-- The configurations that generations were to be built from. -/
def builds (es : List Event) : List Config := es.filterMap Event.built?

theorem builds_append (es es' : List Event) : builds (es ++ es') = builds es ++ builds es' := List.filterMap_append

/-- The delivery goes to a route of the generation, in its format or in one that it lists for the event. -/
def Delivery.Chosen (g : Generation) (d : Delivery) : Prop :=
  ∃ r format, g.routes[d.route]? = some r ∧ d.format = some format ∧
    match d.event with
    | none => g.formatFor? r = some format
    | some event => ∃ name ∈ g.eventFormats r event, g.formats.get? name = some format

/-! ### What a well-formed generation has -/

namespace Generation
variable {g : Generation} {r : Route}

theorem isSome_get?_of_contains {α : Type} {d : Dict α} {key : String} (h : d.contains key = true) :
    (d.get? key).isSome = true := by
  rw [Dict.get?, Option.isSome_map, List.find?_isSome]
  exact List.any_eq_true.mp h

theorem WellFormed.formatFor? (h : g.WellFormed) (hr : r ∈ g.routes) :
    ∃ format, g.formatFor? r = some format := by
  refine Option.isSome_iff_exists.mp (isSome_get?_of_contains ?_)
  cases hformat : r.format with
  | none => exact h.defaultFormat
  | some name => exact (h.routes r hr).format name hformat

theorem WellFormed.eventFormats (h : g.WellFormed) (hr : r ∈ g.routes) {event name : String}
    (hname : name ∈ g.eventFormats r event) : ∃ format, g.formats.get? name = some format := by
  refine Option.isSome_iff_exists.mp (isSome_get?_of_contains ?_)
  have hlists : Lists g.formats.contains (r.events.getD g.events) := by
    cases hevents : r.events with
    | none => exact h.events
    | some events => exact (h.routes r hr).events events hevents
  unfold Generation.eventFormats at hname
  cases hget : (r.events.getD g.events).get? event with
  | none =>
    rw [hget] at hname
    cases hname
  | some names =>
    rw [hget] at hname
    exact (hlists _ (SortedDict.mem_of_get? hget)).2 name hname

theorem WellFormed.langFor (h : g.WellFormed) (hr : r ∈ g.routes) : g.catalog.Owns (g.langFor r) := by
  cases hlang : r.lang with
  | none => simpa [Generation.langFor, hlang] using h.lang
  | some lang => simpa [Generation.langFor, hlang] using (h.routes r hr).lang lang hlang

/-- Messages are looked up in a language that has messages of its own. -/
theorem WellFormed.message? (h : g.WellFormed) (route : Option String) :
    ∃ lang messages, g.catalog.languages.get? lang = some (.catalog messages) ∧
      ∀ key, g.message? route key = messages.get? key := by
  have hlookup : ∀ {lang}, g.catalog.Owns lang → ∃ messages,
      g.catalog.languages.get? lang = some (.catalog messages) ∧
      ∀ key, g.catalog.lookup? lang key = messages.get? key := by
    rintro lang ⟨messages, hmessages⟩
    exact ⟨messages, hmessages, fun key => by simp only [Catalog.lookup?, hmessages]⟩
  cases hroute : route.bind g.route? with
  | none => exact ⟨g.lang, by simpa only [Generation.message?, hroute] using hlookup h.lang⟩
  | some r =>
    obtain ⟨name, -, hr⟩ := Option.bind_eq_some_iff.mp hroute
    exact ⟨g.langFor r, by
      simpa only [Generation.message?, hroute] using hlookup (h.langFor (List.mem_of_find?_eq_some hr))⟩

/-- An event is announced in every format that any route lists for it. -/
theorem WellFormed.eventDeliveries (h : g.WellFormed) (caller : List Frame) (event : String) :
    (g.eventDeliveries caller event).map (fun d => (d.route, d.format)) =
      g.routes.zipIdx.flatMap fun (r, i) => (g.eventFormats r event).map fun name => (i, g.formats.get? name) := by
  unfold Generation.eventDeliveries
  rw [List.map_flatMap]
  refine List.flatMap_congr fun (r, i) hr => ?_
  have hmem : r ∈ g.routes := List.mem_of_getElem? (List.mem_zipIdx_iff_getElem?.mp hr)
  show _ = List.map (fun name => (i, g.formats.get? name)) (g.eventFormats r event)
  rw [List.map_filterMap, ← List.filterMap_eq_map]
  refine List.filterMap_congr fun name hname => ?_
  obtain ⟨format, hformat⟩ := h.eventFormats hmem hname
  simp [hformat]

theorem WellFormed.chosen_of_format (h : g.WellFormed) {d : Delivery} (hd : d.route < g.routes.length)
    (hevent : d.event = none) (hformat : d.format = g.formatAt? d.route) : d.Chosen g := by
  obtain ⟨r, hr⟩ : ∃ r, g.routes[d.route]? = some r := ⟨_, List.getElem?_eq_getElem hd⟩
  obtain ⟨format, hfor⟩ := h.formatFor? (List.mem_of_getElem? hr)
  refine ⟨r, format, hr, ?_, ?_⟩
  · simp [hformat, formatAt?, hr, hfor]
  · rw [hevent]
    exact hfor

theorem chosen_logDeliveries (h : g.WellFormed) {channel : Option Frame} {caller : List Frame} {rank : Nat}
    {text : String} {routes : List Nat} (hroutes : ∀ i ∈ routes, i < g.routes.length) :
    ∀ d ∈ g.logDeliveries channel caller rank text routes, d.Chosen g := by
  intro d hd
  obtain ⟨i, hi, rfl⟩ := List.mem_map.mp hd
  exact h.chosen_of_format (hroutes i hi) rfl rfl

theorem chosen_tagDeliveries {setup : Setup} (h : g.WellFormed) (hg : g.Sound setup) {channel : Option Frame}
    {caller : List Frame} {text : String} {tags : List String} :
    ∀ d ∈ g.tagDeliveries channel caller text tags, d.Chosen g := by
  intro d hd
  have hlt := tagDeliveries_lt hg d hd
  obtain ⟨tag, -, hd⟩ := List.mem_flatMap.mp hd
  obtain ⟨i, -, rfl⟩ := List.mem_map.mp hd
  exact h.chosen_of_format hlt rfl rfl

theorem chosen_eventDeliveries {caller : List Frame} {event : String} :
    ∀ d ∈ g.eventDeliveries caller event, d.Chosen g := by
  intro d hd
  obtain ⟨⟨r, i⟩, hr, hd⟩ := List.mem_flatMap.mp hd
  obtain ⟨name, hname, hd⟩ := List.mem_filterMap.mp hd
  obtain ⟨format, hformat, rfl⟩ := Option.map_eq_some_iff.mp hd
  exact ⟨r, format, List.mem_zipIdx_iff_getElem?.mp hr, rfl, name, hname, hformat⟩

end Generation

/-! ### What agendas are grounded in -/

/-- The draft is on the way from one of these configurations. -/
def Draft.IsFrom (setup : Setup) (configs : List Config) (d : Draft) : Prop :=
  ∃ config ∈ configs, Drafted setup config d

def Generation.IsFrom (setup : Setup) (configs : List Config) (g : Generation) : Prop :=
  ∃ config ∈ configs, g.Built setup config

/-- Drafts and generations come from configurations, and deliveries were chosen from their generation. -/
def Action.Grounded (setup : Setup) (configs : List Config) : Action → Prop
  | .make d _ => d.IsFrom setup configs
  | .awaitCreate d spec plan _ =>
    d.IsFrom setup configs ∧ (∃ todo, d.todo = spec :: todo) ∧ d.plan spec = .ok plan
  | .install g => g.IsFrom setup configs
  | .accept g deliveries _ | .fan g deliveries _ => ∀ d ∈ deliveries, d.Chosen g
  | .attempt g _ d => d.Chosen g
  | _ => True

/-- The generations that became live and the agendas are grounded in these configurations. -/
structure Engine.Grounded (e : Engine) (configs : List Config) (known : List Generation) : Prop where
  known : ∀ g ∈ known, g.IsFrom e.setup configs
  actions : ∀ agenda ∈ e.agendas, ∀ a ∈ agenda, a.Grounded e.setup configs

section
variable {setup : Setup} {configs configs' : List Config} {d : Draft} {g : Generation} {a : Action}

theorem Draft.IsFrom.attach {spec : RouteSpec} {todo : List RouteSpec} {plan : RoutePlan} (h : d.IsFrom setup configs)
    (htodo : d.todo = spec :: todo) (hplan : d.plan spec = .ok plan) (t : TransportId) :
    ({ d with todo := d.todo.drop 1 }.attach spec plan t).IsFrom setup configs := by
  obtain ⟨config, hconfig, hd⟩ := h
  refine ⟨config, hconfig, ?_⟩
  rw [htodo]
  exact hd.attach t htodo hplan

theorem Generation.IsFrom.wellFormed (h : g.IsFrom setup configs) : g.WellFormed := by
  obtain ⟨config, -, hbuilt⟩ := h
  exact hbuilt.wellFormed.1

theorem Action.Grounded.mono (h : a.Grounded setup configs) (hsub : ∀ c ∈ configs, c ∈ configs') :
    a.Grounded setup configs' := by
  have hdraft : ∀ {d : Draft}, d.IsFrom setup configs → d.IsFrom setup configs' :=
    fun ⟨c, hc, hd⟩ => ⟨c, hsub c hc, hd⟩
  cases a with
  | make => exact hdraft h
  | awaitCreate => exact ⟨hdraft h.1, h.2⟩
  | install =>
    obtain ⟨c, hc, hg⟩ := h
    exact ⟨c, hsub c hc, hg⟩
  | _ => exact h

end

namespace Engine
variable {e e' : Engine} {task : TaskId} {a : Action} {m : Move} {known : List Generation} {op : Op}
  {fx : List Effect} {es : List Event} {configs : List Config}

theorem grounded_loose {next : List Action} (h : next.all Action.isLoose = true) :
    ∀ b ∈ next, b.Grounded e.setup configs := by
  intro b hb
  have hloose := List.all_eq_true.mp h b hb
  cases b <;> trivial

theorem grounded_building (isReload : Bool) (outcome : Outcome) :
    ∀ b ∈ building isReload outcome, b.Grounded e.setup configs := by
  cases isReload <;> simp [building, Action.Grounded]

theorem grounded_abandon (d : Draft) (isReload : Bool) (outcome : Outcome) :
    ∀ b ∈ abandon d isReload outcome, b.Grounded e.setup configs := by
  intro b hb
  rcases List.mem_append.mp hb with hb | hb
  · exact grounded_loose (loose_frees _) b hb
  · exact grounded_building isReload outcome b hb

theorem chosen_admission {call : Call} {g : Generation} (hg : g.Sound e.setup) (hw : g.WellFormed)
    (h : e.admission call g = .ok a) : a.Grounded e.setup configs := by
  unfold admission at h
  split at h
  · cases h
  · split at h
    · split at h
      · cases h
      · split at h
        · cases h
        · split at h <;> obtain rfl := Except.ok.inj h
          · trivial
          · exact Generation.chosen_logDeliveries hw fun i hi => Generation.flatRoute?_lt (Option.mem_toList.mp hi)
    · split at h
      · cases h
      · obtain rfl := Except.ok.inj h
        exact Generation.chosen_tagDeliveries hw hg
    · obtain rfl := Except.ok.inj h
      exact Generation.chosen_eventDeliveries

theorem Opening.grounded {agenda : List Action} (h : Opening e agenda) :
    ∀ b ∈ agenda, b.Grounded e'.setup configs := by
  cases h <;> simp [Action.Grounded]

/-- What comes next is grounded as the action is. -/
theorem Next.grounded {next : List Action} (hn : Next e a next) (hf : Founded e known) (hk : a.Knows e known)
    (hknown : ∀ g ∈ known, g.IsFrom e.setup configs)
    (hbuild : ∀ config isReload, a = .build config isReload → config ∈ configs)
    (ha : a.Grounded e.setup configs) : ∀ b ∈ next, b.Grounded e.setup configs := by
  have chosen : ∀ {call : Call} {g : Generation} {rank : Nat} {text : String} {routes : List Nat}, g ∈ known →
      (∀ i ∈ routes, i < g.routes.length) → (e.logged call g rank text routes).Grounded e.setup configs :=
    fun hg hroutes => Generation.chosen_logDeliveries (hknown _ hg).wellFormed hroutes
  cases hn with
  | load => exact List.forall_mem_cons.mpr ⟨trivial, grounded_loose rfl⟩
  | screen hadm =>
    exact List.forall_mem_singleton.mpr (chosen_admission (hf.sound _ hk.1) (hknown _ hk.1).wellFormed hadm)
  | noChannel => exact List.forall_mem_singleton.mpr (chosen hk.1 nofun)
  | select hc htable =>
    refine List.forall_mem_singleton.mpr (chosen hk.1 fun i hi => ?_)
    rw [hf.tableFor?_eq hc hk.1 htable] at hi
    exact RouteLevels.select_compute_lt hi
  | stale =>
    exact List.forall_mem_cons.mpr ⟨trivial,
      List.forall_mem_singleton.mpr (chosen hk.1 fun i hi => RouteLevels.select_compute_lt hi)⟩
  | accept => exact List.forall_mem_singleton.mpr ha
  | unrouted => exact List.forall_mem_cons.mpr ⟨trivial, List.forall_mem_singleton.mpr ha⟩
  | fan =>
    intro b hb
    obtain ⟨d, hd, rfl⟩ := List.mem_map.mp hb
    exact ha d hd
  | @answer ack answer x =>
    cases answer.result x.route
    · exact List.forall_mem_cons.mpr ⟨trivial, List.forall_mem_cons.mpr ⟨trivial, grounded_loose rfl⟩⟩
    · exact List.forall_mem_cons.mpr ⟨trivial, grounded_loose rfl⟩
  | letGo | close => exact grounded_loose (loose_frees _)
  | refused | faulty => exact grounded_building _ _
  | check => exact List.forall_mem_singleton.mpr trivial
  | draft hd => exact List.forall_mem_singleton.mpr ⟨_, hbuild _ _ rfl, .start hd⟩
  | publish htodo =>
    obtain ⟨config, hconfig, hd⟩ := ha
    have hinstall : Generation.IsFrom e.setup configs _ := ⟨config, hconfig, hd, htodo⟩
    unfold publishing
    refine List.forall_mem_cons.mpr ⟨hinstall, ?_⟩
    split
    · exact List.forall_mem_cons.mpr ⟨trivial, List.forall_mem_cons.mpr ⟨trivial,
        List.forall_mem_cons.mpr ⟨trivial, grounded_building true .done⟩⟩⟩
    · exact grounded_building false .done
  | awaitCreate htodo hplan => exact List.forall_mem_singleton.mpr ⟨ha, ⟨_, htodo⟩, hplan⟩
  | abandon | notCreated => exact grounded_abandon _ _ _
  | attach htodo hplan => exact List.forall_mem_singleton.mpr (Draft.IsFrom.attach ha htodo hplan _)
  | created =>
    obtain ⟨hd, ⟨todo, htodo⟩, hplan⟩ := ha
    exact List.forall_mem_singleton.mpr (hd.attach htodo hplan _)
  | recalcAll =>
    intro b hb
    rcases List.mem_append.mp hb with hb | hb
    · obtain ⟨c, -, rfl⟩ := List.mem_map.mp hb
      trivial
    · rw [List.mem_singleton.mp hb]
      trivial
  | write => exact grounded_loose (by simp [Action.isLoose])
  | _ => exact grounded_loose rfl

namespace Grounded

theorem start (setup : Setup) (files : File.Store) (config : Config) : (start setup files config).Grounded [] [] where
  known _ h := absurd h List.not_mem_nil
  actions agenda h := by
    rw [List.mem_singleton.mp h]
    exact List.forall_mem_singleton.mpr trivial

theorem step (hl : Lineage e known) (h : e.Grounded configs known) (hs : e.step? op = some (e', fx)) :
    e'.Grounded (configs ++ builds [⟨e, op, e', fx⟩]) (known ++ installs [⟨e, op, e', fx⟩]) := by
  have hsub : ∀ c ∈ configs, c ∈ configs ++ builds [⟨e, op, e', fx⟩] := fun c hc => List.mem_append_left _ hc
  have hsetup : e'.setup = e.setup := (step_grows hs).setup
  have hold : ∀ g ∈ known, g.IsFrom e.setup (configs ++ builds [⟨e, op, e', fx⟩]) := by
    intro g hg
    obtain ⟨c, hc, hbuilt⟩ := h.known g hg
    exact ⟨c, hsub c hc, hbuilt⟩
  rcases step_cases hs with ⟨request, rfl, hb, -⟩ | ⟨task, a, rest, m, htask, hagenda, hdoes, rfl, -⟩
  · obtain ⟨agenda, hopen, hagendas, -⟩ := begin_cases hb
    refine ⟨?_, fun x hx => ?_⟩
    · rw [hsetup]
      simpa [installs, Event.installed?, Event.action?, Op.task?] using hold
    · rw [hagendas] at hx
      rcases List.mem_append.mp hx with hx | hx
      · rw [hsetup]
        exact fun b hb => (h.actions x hx b hb).mono hsub
      · rw [List.mem_singleton.mp hx]
        exact hopen.grounded
  · have hmem := List.mem_of_getElem? hagenda
    have haction : Event.action? ⟨e, op, m.engine.setAgenda task (m.next ++ rest), fx⟩ = some a :=
      action?_of_task htask hagenda
    have hfirst := h.actions _ hmem a List.mem_cons_self
    refine ⟨fun g hg => ?_, fun x hx => ?_⟩
    · rw [hsetup]
      rcases List.mem_append.mp hg with hg | hg
      · exact hold g hg
      · obtain rfl : a = .install g := by
          simp only [installs, List.mem_filterMap, List.mem_singleton, exists_eq_left, Event.installed?, haction] at hg
          split at hg
          · rename_i g' hg'
            obtain rfl := Option.some.inj hg
            exact Option.some.inj hg'
          · cases hg
        exact hfirst.mono hsub
    · rw [hsetup]
      have hx : x ∈ e.agendas.set task (m.next ++ rest) := by
        simpa [hdoes.agendas] using hx
      rcases List.mem_or_eq_of_mem_set hx with hx | rfl
      · exact fun b hb => (h.actions x hx b hb).mono hsub
      · intro b hb
        rcases List.mem_append.mp hb with hb | hb
        · refine hdoes.next.grounded (hl.toFounded.setAgenda rest) (knows_setAgenda (hl.rooted _ hmem).1) hold ?_
            (hfirst.mono hsub) b hb
          rintro config isReload rfl
          simp [builds, Event.built?, haction]
        · exact (h.actions _ hmem b (List.mem_cons_of_mem a hb)).mono hsub

theorem run (ho : Orderly e) (hl : Lineage e known) (h : e.Grounded configs known) (hr : Run e es e') :
    e'.Grounded (configs ++ builds es) (known ++ installs es) := by
  induction hr with
  | refl => simpa [builds, installs] using h
  | step hr hs ih =>
    have h := ih.step (hl.run ho hr) hs
    rwa [List.append_assoc, List.append_assoc, ← builds_append, ← installs_append] at h

end Grounded

section
variable {setup : Setup} {files : File.Store} {config : Config}

theorem Run.grounded (h : Run (start setup files config) es e) : e.Grounded (builds es) (installs es) := by
  simpa using (Grounded.start setup files config).run (.start setup files config) (.start setup files config) h

theorem Run.lineage (h : Run (start setup files config) es e) : Lineage e (installs es) := by
  simpa using (Lineage.start setup files config).run (.start setup files config) h

/-- Every generation that becomes live was built from the configuration of a build. -/
theorem Run.installs_built (h : Run (start setup files config) es e) :
    ∀ g ∈ installs es, ∃ config ∈ builds es, g.Built setup config := by
  have hsetup : e.setup = setup := h.setup
  rw [← hsetup]
  exact h.grounded.known

/-- An attempt goes to a route that was chosen from a generation of the run, and that has to answer. -/
theorem Run.attempt_chosen (h : Run (start setup files config) es e) {ev : Event} (hev : ev ∈ es) {g : Generation}
    {k : FanOutId} {d : Delivery} (haction : ev.action? = some (.attempt g k d)) :
    g ∈ installs es ∧ d.Chosen g ∧
      ∃ r, g.routes[d.route]? = some r ∧ ev.after.acks = ev.before.acks ++ [⟨r.name, k, false⟩] := by
  obtain ⟨before, after, rfl⟩ := List.append_of_mem hev
  obtain ⟨hbefore, hs, -⟩ := h.split
  obtain ⟨task, rest, m, hagenda, hdoes, hafter⟩ := done_of_action? hs haction
  have hmem := List.mem_of_getElem? hagenda
  have hknown := (hbefore.lineage.rooted _ hmem).1.1
  have hchosen : d.Chosen g := hbefore.grounded.actions _ hmem _ List.mem_cons_self
  have ⟨r, _, hr, _⟩ := hchosen
  refine ⟨?_, hchosen, r, hr, ?_⟩
  · rw [installs_append]
    exact List.mem_append_left _ hknown
  · have hacks := does_attempt hr hdoes
    rw [hafter]
    exact hacks

end

/-- A generation that was built from a configuration is well formed, and its routes follow the configuration under
    names of their own. In a run every generation that becomes live was built from the configuration of a build, and
    none but those is in use. So every attempt finds its route and a format and waits for an answer of the route,
    an event is announced in every format that is listed for it, and messages are looked up in languages that have
    some. -/
theorem fallbacks_unreachable {setup : Setup} {files : File.Store} {config : Config}
    (h : Run (start setup files config) es e) :
    (∀ (config : Config) (g : Generation), g.Built setup config →
      g.WellFormed ∧ g.routes.map (·.name) = config.titles ∧ (g.routes.map (·.name)).Nodup) ∧
    (∀ g ∈ installs es, ∃ config ∈ builds es, g.Built setup config) ∧
    (∀ g, e.live = some g → g ∈ installs es) ∧
    (∀ ev ∈ es, ∀ g k d, ev.action? = some (.attempt g k d) → g ∈ installs es ∧ d.Chosen g ∧
      ∃ r, g.routes[d.route]? = some r ∧ ev.after.acks = ev.before.acks ++ [⟨r.name, k, false⟩]) ∧
    ∀ g ∈ installs es,
      (∀ caller event,
        (g.eventDeliveries caller event).map (fun d => (d.route, d.format)) =
          g.routes.zipIdx.flatMap (fun (r, i) => (g.eventFormats r event).map fun name => (i, g.formats.get? name)) ∧
        ∀ d ∈ g.eventDeliveries caller event, d.Chosen g) ∧
      (∀ r ∈ g.routes, g.catalog.Owns (g.langFor r)) ∧
      ∀ route, ∃ lang messages, g.catalog.languages.get? lang = some (.catalog messages) ∧
        ∀ key, g.message? route key = messages.get? key := by
  refine ⟨fun config g hbuilt => hbuilt.wellFormed, h.installs_built, h.lineage.live,
    fun ev hev g k d haction => h.attempt_chosen hev haction, fun g hg => ?_⟩
  obtain ⟨config, -, hbuilt⟩ := h.installs_built g hg
  obtain ⟨hw, -, -⟩ := hbuilt.wellFormed
  exact ⟨fun caller event => ⟨hw.eventDeliveries caller event, Generation.chosen_eventDeliveries⟩,
    fun r hr => hw.langFor hr, hw.message?⟩

/-- The first of both routes is tried. -/
def untilTried : List Op := untilFan ++ List.replicate 2 (.advance 1)

def triesRoute : Option Action → Bool
  | some (.attempt ..) => true
  | _ => false

/-- Both routes of the configuration are there, and one of them is tried. -/
theorem tried_route_found :
    (∃ g ∈ installs ((plain false ["host"] twins).history untilTried),
      g.WellFormed ∧ g.routes.map (·.name) = ["a", "b"]) ∧
    ∃ ev ∈ (plain false ["host"] twins).history untilTried, ∃ g k d,
      ev.action? = some (.attempt g k d) ∧ d.Chosen g ∧
      ∃ r, g.routes[d.route]? = some r ∧ ev.after.acks = ev.before.acks ++ [⟨r.name, k, false⟩] := by
  have hstate : ((plain false ["host"] twins).run? untilTried).isSome = true ∧
      (installs ((plain false ["host"] twins).history untilTried)).map (fun g => g.routes.map (·.name)) =
        [["a", "b"]] ∧
      ((plain false ["host"] twins).history untilTried).any (fun ev => triesRoute ev.action?) = true := by
    decide +kernel
  obtain ⟨hrun, hinstalls, htries⟩ := hstate
  obtain ⟨hwell, hbuilt, -, htried, -⟩ := fallbacks_unreachable (run_history _ _ hrun)
  constructor
  · obtain ⟨g, hg, hnames⟩ := List.mem_map.mp (hinstalls ▸ List.mem_cons_self)
    obtain ⟨config, -, hbuilt⟩ := hbuilt g hg
    exact ⟨g, hg, (hwell config g hbuilt).1, hnames⟩
  · obtain ⟨ev, hev, haction⟩ := List.any_eq_true.mp htries
    unfold triesRoute at haction
    split at haction
    · rename_i g k d heq
      exact ⟨ev, hev, g, k, d, heq, (htried ev hev g k d heq).2⟩
    · cases haction

end Engine

end LogDispatch
