import LogDispatch.Proofs.Carrying
import LogDispatch.Proofs.Specs

/-! Calls that announce an event. For each route in order, such a call gives out the event in every format that the
    configuration lists for it there, in the order of the list, and one callback is told when all are answered
    (`events_announced_as_listed`). A route with events of its own does not look at the global ones
    (`own_events_hide_global_ones`). -/

namespace LogDispatch

/-- The formats listed for an event. -/
def SortedDict.listed (events : SortedDict Handlers) (event : String) : List String :=
  ((events.get? event).map Handlers.toList).getD []

/-- The formats in which an event is announced by a route: those that its own events list, if it has events of its own,
    else those that the global ones list. Where no events are configured, the start is announced by the start message,
    if there is such a format. -/
def Config.announced (c : Config) (known : String → Bool) (s : RouteSpec) (event : String) : List String :=
  match s.events, c.events with
  | some own, _ => own.listed event
  | none, some events => events.listed event
  | none, none => if event = "start" ∧ known startFormat = true then [startFormat] else []

/-! ### Lists of formats -/

def Handlers.nonempty? (handlers : Handlers) : Option (List String) :=
  if handlers.toList.isEmpty then none else some handlers.toList

theorem filterMapM_eq_ok {α β ε : Type} {f : α → Except ε (Option β)} {g : α → Option β} {xs : List α} {ys : List β}
    (h : xs.filterMapM f = .ok ys) (hg : ∀ x b, f x = .ok b → b = g x) : ys = xs.filterMap g := by
  induction xs generalizing ys with
  | nil => exact (Except.ok.inj h).symm
  | cons x xs ih =>
    rw [List.filterMapM_cons] at h
    obtain ⟨b, hb, h⟩ := bind_eq_ok h
    obtain rfl := hg x b hb
    rw [List.filterMap_cons]
    split at h <;> rename_i hx
    · simpa only [hx] using ih h
    · obtain ⟨rest, hrest, h⟩ := bind_eq_ok h
      obtain rfl := Except.ok.inj h
      simp only [hx, ih hrest]

/-- Events without formats are left out; looking them up gives no formats either way. -/
theorem getD_eventFormats {known : String → Bool} {events : SortedDict Handlers} {lists : SortedDict (List String)}
    (h : eventFormats known events = .ok lists) (event : String) : (lists.get? event).getD [] = events.listed event := by
  obtain ⟨entries, hentries, h⟩ := bind_eq_ok h
  obtain rfl := Except.ok.inj h
  have hlists : entries = events.entries.filterMap fun e => e.2.nonempty?.map fun names => (e.1, names) := by
    refine filterMapM_eq_ok hentries fun e b hb => ?_
    dsimp only at hb
    split at hb
    · cases hb
    · rw [← Except.ok.inj hb, Handlers.nonempty?]
      split <;> rfl
  rw [hlists, SortedDict.get?_ofList_filterMap, SortedDict.listed]
  cases events.get? event with
  | none => rfl
  | some handlers => cases hlist : handlers.toList <;> simp [Handlers.nonempty?, hlist]

section
variable {setup : Setup} {config : Config} {g : Generation} {r : Route} {s : RouteSpec} {event : String}
  {caller : List Frame} {d : Delivery}

theorem getD_globalEvents {known : String → Bool} {events : SortedDict (List String)} (hown : s.events = none)
    (h : Draft.globalEvents config known = .ok events) :
    (events.get? event).getD [] = config.announced known s event := by
  unfold Draft.globalEvents at h
  split at h <;> rename_i hevents
  · rw [getD_eventFormats h, Config.announced, hown, hevents]
  · obtain rfl := Except.ok.inj h
    rw [Config.announced, hown, hevents]
    by_cases hknown : known startFormat = true
    · by_cases hstart : event = "start"
      · simp [hknown, hstart, SortedDict.get?, SortedDict.insert, insertSorted, SortedDict.empty]
      · simp [hknown, hstart, Ne.symm hstart, SortedDict.get?, SortedDict.insert, insertSorted, SortedDict.empty]
    · simp [hknown, SortedDict.get?, SortedDict.empty]

/-- A route lists for an event what the configuration does. -/
theorem Generation.Built.eventFormats_eq (h : g.Built setup config) (hr : r.Follows g.formats.contains s) :
    g.eventFormats r event = config.announced g.formats.contains s event := by
  have hevents := hr.events
  cases hown : s.events with
  | none =>
    rw [hown] at hevents
    rw [Generation.eventFormats, ← Except.ok.inj hevents]
    exact getD_globalEvents hown h.tables.2
  | some own =>
    rw [hown, whenGiven] at hevents
    cases hlists : LogDispatch.eventFormats g.formats.contains own with
    | error fault =>
      rw [hlists] at hevents
      cases hevents
    | ok lists =>
      rw [hlists] at hevents
      rw [Generation.eventFormats, ← Except.ok.inj hevents, Config.announced, hown]
      exact getD_eventFormats hlists event

theorem Generation.Built.map_eventDeliveries (h : g.Built setup config) :
    (g.eventDeliveries caller event).map (fun d => (g.routes[d.route]?.map (·.name), d.format)) =
      config.specs.flatMap fun s => (config.announced g.formats.contains s event).map fun format =>
        (some s.title, g.formats.get? format) := by
  have hplaces := congrArg (List.map fun p => (g.routes[p.1]?.map (·.name), p.2))
    (h.wellFormed.1.eventDeliveries caller event)
  rw [List.map_map, List.map_flatMap] at hplaces
  calc (g.eventDeliveries caller event).map (fun d => (g.routes[d.route]?.map (·.name), d.format))
      = g.routes.zipIdx.flatMap fun p => (g.eventFormats p.1 event).map fun name =>
          (g.routes[p.2]?.map (·.name), g.formats.get? name) := by simpa [Function.comp_def] using hplaces
    _ = g.routes.flatMap fun r => (g.eventFormats r event).map fun name => (some r.name, g.formats.get? name) :=
        flatMap_zipIdx (f := fun (r : Route) i => (g.eventFormats r event).map fun name =>
          (g.routes[i]?.map (·.name), g.formats.get? name)) fun i r hr => by rw [hr]; rfl
    _ = config.specs.flatMap fun s => (config.announced g.formats.contains s event).map fun format =>
          (some s.title, g.formats.get? format) :=
        (flatMap_eq_of_forall₂ h.follows fun s r hr => by rw [hr.name, h.eventFormats_eq hr]).symm

/-- A delivery that announces an event is rendered in its format. -/
theorem text_eventDeliveries (h : d ∈ g.eventDeliveries caller event) :
    (∃ format, d.format = some format ∧ d.text = format.render d.scope) ∧
      d.scope.resolve? "event" = some (.text event) := by
  obtain ⟨⟨r, i⟩, -, hd⟩ := List.mem_flatMap.mp h
  obtain ⟨name, -, hd⟩ := List.mem_filterMap.mp hd
  obtain ⟨format, -, rfl⟩ := Option.map_eq_some_iff.mp hd
  exact ⟨⟨format, rfl, rfl⟩, Generation.resolve?_scopeFor rfl⟩

end

namespace Engine
variable {e : Engine} {task : TaskId} {es : List Event} {call : Call} {g : Generation} {setup : Setup}
  {files : File.Store} {config : Config} {event : String}

theorem admission_eq_event (hopen : e.isClosed = false) (hsubject : call.subject = .event event) :
    e.admission call g = .ok (.accept g (g.eventDeliveries call.caller event) call.callback) := by
  simp only [admission, hopen, hsubject, Bool.false_eq_true, if_false]

/-- A call that announces an event, on an engine that is not shut down. -/
theorem events_announced_as_listed {before after : List Event} {ev : Event}
    (h : Run (start setup files config) es e) (hes : es = before ++ ev :: after) (htask : ev.op.task? = some task)
    (haction : ev.action? = some (.screen call g)) (hsubject : call.subject = .event event)
    (hopen : ev.before.isClosed = false) :
    g ∈ installs es ∧ ∃ config ∈ builds es, g.routes.map (·.name) = config.titles ∧ config.titles.Nodup ∧
      Draft.formats setup config = .ok g.formats ∧
      ∃ deliveries, CarriesOut task g deliveries call.callback es e ∧
        deliveries.map (fun d => (g.routes[d.route]?.map (·.name), d.format)) =
          (config.specs.flatMap fun s => (config.announced g.formats.contains s event).map fun format =>
            (some s.title, g.formats.get? format)) ∧
        ∀ d ∈ deliveries, (∃ format, d.format = some format ∧ d.text = format.render d.scope) ∧
          d.scope.resolve? "event" = some (.text event) := by
  subst hes
  obtain ⟨hg, hcarries⟩ := h.carriesOut htask haction (admission_eq_event hopen hsubject)
  obtain ⟨config, hconfig, hbuilt⟩ := h.installs_built g hg
  obtain ⟨-, htitles, hnodup⟩ := hbuilt.wellFormed
  exact ⟨hg, config, hconfig, htitles, htitles ▸ hnodup, hbuilt.tables.1, _, hcarries, hbuilt.map_eventDeliveries,
    fun d hd => text_eventDeliveries hd⟩

/-- Deployments are announced in one format everywhere, but for two routes with events of their own. -/
def deploying : Config :=
  { events := some (SortedDict.empty.insert "deploy" (.one "json"))
    routes := some [
      { RouteSpec.ofTransport "own" "console" with
        events := some (SortedDict.empty.insert "deploy" (.many ["json", "text", "json"])) },
      { RouteSpec.ofTransport "silent" "console" with events := some (SortedDict.empty.insert "stop" (.one "json")) },
      RouteSpec.ofTransport "shared" "console"] }

def deployCall : Call := { subject := .event "deploy", callback := some 0 }

/-- The engine is built, and a call that announces a deployment begins. -/
def untilDeployCall : List Op := List.replicate 8 (.advance 0) ++ [.begin (.call deployCall)]

def announcing : Engine := (plain false [] deploying).after untilDeployCall

/-- What has been done by the end of the call. -/
def deployHistory : List Event :=
  (plain false [] deploying).history untilDeployCall ++ announcing.history (List.replicate 24 (.advance 1))

/-- The call is over. -/
def announced : Engine := announcing.after (List.replicate 24 (.advance 1))

/-- The deployment is announced as the route `own` says, not at all by `silent`, and in the one format elsewhere. -/
theorem own_events_hide_global_ones : ∃ (g : Generation) (deliveries : List Delivery),
    Run (plain false [] deploying) deployHistory announced ∧
    CarriesOut 1 g deliveries (some 0) deployHistory announced ∧
    (attempts 1 deployHistory).map (fun d => (g.routes[d.route]?.map (·.name), d.format)) =
      [(some "own", g.formats.get? "json"), (some "own", g.formats.get? "text"), (some "own", g.formats.get? "json"),
        (some "shared", g.formats.get? "json")] ∧
    (outs 1 deployHistory).length = 4 := by
  have hstate : ((plain false [] deploying).run? untilDeployCall).isSome = true ∧
      (announcing.run? (List.replicate 24 (.advance 1))).isSome = true ∧
      (announcing.live.map fun g => (builds deployHistory).map fun c => c.specs.map fun s =>
        (s.title, c.announced g.formats.contains s "deploy")) =
          some [[("own", ["json", "text", "json"]), ("silent", []), ("shared", ["json"])]] ∧
      (announcing.after [.advance 1]).isClosed = false ∧ announced.agendas[1]?.map List.length = some 0 ∧
      (outs 1 deployHistory).length = 4 := by decide +kernel
  obtain ⟨hbegun, hrest, hlive, hopen, hend, houts⟩ := hstate
  obtain ⟨g, hlive, hlists⟩ := Option.map_eq_some_iff.mp hlive
  obtain ⟨before, ev, after, hes, htask, haction, hbefore⟩ :=
    history_screens deployCall _ rfl hlive rfl hrest
  have hrun : Run (plain false [] deploying) deployHistory announced :=
    (run_history _ _ hbegun).trans (run_history _ _ hrest)
  obtain ⟨-, config, hconfig, -, -, -, deliveries, hcarries, hdeliveries, -⟩ :=
    events_announced_as_listed hrun hes htask haction rfl (hbefore ▸ hopen)
  have hlisted : config.specs.map (fun s => (s.title, config.announced g.formats.contains s "deploy")) =
      [("own", ["json", "text", "json"]), ("silent", []), ("shared", ["json"])] := by
    have hmem := List.mem_map_of_mem (f := fun c : Config => c.specs.map fun s =>
      (s.title, c.announced g.formats.contains s "deploy")) hconfig
    rw [hlists] at hmem
    exact List.mem_singleton.mp hmem
  refine ⟨g, deliveries, hrun, hcarries, ?_, houts⟩
  rw [hcarries.all_tried hend, hdeliveries]
  have hall := congrArg (List.flatMap fun p => p.2.map fun format => (some p.1, g.formats.get? format)) hlisted
  rw [List.flatMap_map] at hall
  exact hall

end Engine

end LogDispatch
