import LogDispatch.Proofs.Carrying
import LogDispatch.Proofs.Specs

/-! Calls with tags. For each of its tags in order, such a call tries the routes of the configuration that list the
    tag, in order and whatever their levels and rules, each as often as it lists it; the records carry the tag and no
    level, and one callback is told when all of them are answered (`tag_calls_reach_listing_routes`). A route that
    lists a tag twice is tried twice (`repeated_tag_tried_twice`). -/

namespace LogDispatch

/-- The names of the routes that list a tag, in order, each as often as it lists it. -/
def Config.listing (c : Config) (tag : String) : List String :=
  c.specs.flatMap fun s => List.replicate (s.tags.count tag) s.title

/-- What a record of a call with tags carries: one of its tags, its text, and no level. -/
structure Record.Tagged (tags : List String) (text : String) (record : Record) : Prop where
  tag : ∃ tag ∈ tags, record.tag = some tag ∧ record.scope.resolve? "tag" = some (.text tag)
  level : record.level = none
  levelName : record.levelName = none
  rank : record.scope.resolve? "level#" = some (.int (-1))
  message : record.scope.resolve? "msg" = some (.text text)

section
variable {setup : Setup} {config : Config} {g : Generation} {channel : Option Frame} {caller : List Frame}
  {text : String} {tags : List String} {d : Delivery}

/-- The places under a tag are those of the routes whose specs list it. -/
theorem Generation.Built.map_tagged (h : g.Built setup config) (tag : String) :
    (g.tagged tag).map (fun i => g.routes[i]?.map (·.name)) = (config.listing tag).map some := by
  calc (g.tagged tag).map (fun i => g.routes[i]?.map (·.name))
      = g.routes.zipIdx.flatMap fun p => List.replicate (p.1.tags.count tag) (g.routes[p.2]?.map (·.name)) := by
        rw [h.tagged_eq, List.map_flatMap]
        simp only [List.map_replicate]
    _ = g.routes.flatMap fun r => List.replicate (r.tags.count tag) (some r.name) :=
        flatMap_zipIdx (f := fun (r : Route) i => List.replicate (r.tags.count tag) (g.routes[i]?.map (·.name)))
          fun i r hr => by rw [hr]; rfl
    _ = config.specs.flatMap fun s => List.replicate (s.tags.count tag) (some s.title) :=
        (flatMap_eq_of_forall₂ h.follows fun s r hr => by rw [hr.name, hr.tags]).symm
    _ = (config.listing tag).map some := by simp [Config.listing, List.map_flatMap]

theorem Generation.Built.map_tagDeliveries (h : g.Built setup config) :
    (g.tagDeliveries channel caller text tags).map (fun d => (d.tag, g.routes[d.route]?.map (·.name))) =
      tags.flatMap fun tag => (config.listing tag).map fun name => (some tag, some name) := by
  rw [Generation.tagDeliveries, List.map_flatMap]
  refine List.flatMap_congr fun tag _ => ?_
  have hplaces := congrArg (List.map (some tag, ·)) (h.map_tagged tag)
  rw [List.map_map, List.map_map] at hplaces
  rw [List.map_map]
  exact hplaces

/-- The record of a delivery of a call with tags. -/
theorem tagged_record {r : Route} {rendered : String} (h : d ∈ g.tagDeliveries channel caller text tags) :
    (d.record g r rendered).Tagged tags text := by
  obtain ⟨tag, htag, hd⟩ := List.mem_flatMap.mp h
  obtain ⟨i, -, rfl⟩ := List.mem_map.mp hd
  refine ⟨⟨tag, htag, rfl, ?_⟩, rfl, rfl, ?_, ?_⟩
  · exact Generation.resolve?_scopeFor rfl
  · exact Generation.resolve?_scopeFor rfl
  · exact Generation.resolve?_scopeFor rfl

end

namespace Engine
variable {e : Engine} {task : TaskId} {es : List Event} {call : Call} {g : Generation} {setup : Setup}
  {files : File.Store} {config : Config}

theorem admission_eq_tags {tags : List String} {message : Message} {text : String} (hopen : e.isClosed = false)
    (hsubject : call.subject = .tags tags message) (htext : message.render = .ok text) :
    e.admission call g =
      .ok (.accept g (g.tagDeliveries (e.channelFrame call) call.caller text tags) call.callback) := by
  simp only [admission, hopen, hsubject, htext, Bool.false_eq_true, if_false]

/-- A call with tags whose message is valid, on an engine that is not shut down. -/
theorem tag_calls_reach_listing_routes {before after : List Event} {ev : Event} {tags : List String}
    {message : Message} {text : String} (h : Run (start setup files config) es e) (hes : es = before ++ ev :: after)
    (htask : ev.op.task? = some task) (haction : ev.action? = some (.screen call g))
    (hsubject : call.subject = .tags tags message) (hopen : ev.before.isClosed = false)
    (htext : message.render = .ok text) :
    g ∈ installs es ∧ (∃ config ∈ builds es, g.Built setup config ∧ g.routes.map (·.name) = config.titles ∧
      config.titles.Nodup ∧ ∃ deliveries, CarriesOut task g deliveries call.callback es e ∧
        deliveries.map (fun d => (d.tag, g.routes[d.route]?.map (·.name))) =
          tags.flatMap fun tag => (config.listing tag).map fun name => (some tag, some name)) ∧
    ∀ out ∈ outs task es, out.2.Tagged tags text := by
  subst hes
  obtain ⟨hg, hcarries⟩ := h.carriesOut htask haction (admission_eq_tags hopen hsubject htext)
  obtain ⟨config, hconfig, hbuilt⟩ := h.installs_built g hg
  obtain ⟨-, htitles, hnodup⟩ := hbuilt.wellFormed
  refine ⟨hg, ⟨config, hconfig, hbuilt, htitles, htitles ▸ hnodup, _, hcarries, hbuilt.map_tagDeliveries⟩,
    fun out hout => ?_⟩
  obtain ⟨d, hd, r, rendered, -, -, rfl⟩ := hcarries.delivery_of_out hout
  exact tagged_record hd

/-- Two routes under one tag; one of them is for errors only and lists the tag twice. -/
def repeating : Config :=
  { formats := .ofList [("brief", "$\x7bmsg\x7d")]
    format := some "brief"
    routes := some [{ RouteSpec.ofTransport "twice" "console" with level := some "error", tags := ["t", "t"] },
      (RouteSpec.ofTransport "once" "console").withTag "t"] }

def tagCall : Call := { subject := .tags ["t", "u"] (.text "up"), callback := some 0 }

/-- The engine is built, and a call with tags begins. -/
def untilTagCall : List Op := List.replicate 7 (.advance 0) ++ [.begin (.call tagCall)]

def tagging : Engine := (plain false [] repeating).after untilTagCall

/-- What has been done by the end of the call. -/
def tagHistory : List Event :=
  (plain false [] repeating).history untilTagCall ++ tagging.history (List.replicate 20 (.advance 1))

/-- The call with tags is over. -/
def tagged : Engine := tagging.after (List.replicate 20 (.advance 1))

/-- Both routes are tried, and the callback is told of one call. -/
theorem tagged_routes_tried : ∃ (g : Generation) (deliveries : List Delivery),
    Run (plain false [] repeating) tagHistory tagged ∧ CarriesOut 1 g deliveries (some 0) tagHistory tagged ∧
    (attempts 1 tagHistory).map (fun d => (d.tag, g.routes[d.route]?.map (·.name))) =
      [(some "t", some "twice"), (some "t", some "twice"), (some "t", some "once")] ∧
    (outs 1 tagHistory).length = 3 ∧ ∀ out ∈ outs 1 tagHistory, out.2.Tagged ["t", "u"] "up" := by
  have hstate : ((plain false [] repeating).run? untilTagCall).isSome = true ∧
      (tagging.run? (List.replicate 20 (.advance 1))).isSome = true ∧ tagging.live.isSome = true ∧
      (tagging.after [.advance 1]).isClosed = false ∧ tagged.agendas[1]?.map List.length = some 0 ∧
      ((builds tagHistory).all fun c => c.listing "t" == ["twice", "twice", "once"] && c.listing "u" == []) = true ∧
      (outs 1 tagHistory).length = 3 := by decide +kernel
  obtain ⟨hbegun, hrest, hlive, hopen, hend, hlisting, houts⟩ := hstate
  obtain ⟨g, hlive⟩ := Option.isSome_iff_exists.mp hlive
  obtain ⟨before, ev, after, hes, htask, haction, hbefore⟩ := history_screens tagCall _ rfl hlive rfl hrest
  have hrun : Run (plain false [] repeating) tagHistory tagged := (run_history _ _ hbegun).trans (run_history _ _ hrest)
  obtain ⟨-, ⟨config, hconfig, -, -, -, deliveries, hcarries, hdeliveries⟩, htagged⟩ :=
    tag_calls_reach_listing_routes hrun hes htask haction rfl (hbefore ▸ hopen) rfl
  obtain ⟨ht, hu⟩ : config.listing "t" = ["twice", "twice", "once"] ∧ config.listing "u" = [] := by
    simpa using List.all_eq_true.mp hlisting config hconfig
  refine ⟨g, deliveries, hrun, hcarries, ?_, houts, htagged⟩
  rw [hcarries.all_tried hend, hdeliveries]
  simp [ht, hu]

/-- Not each route that lists a tag is tried once: a route that lists it twice is tried twice. -/
theorem repeated_tag_tried_twice : (repeating.specs.filter (·.tags.contains "t")).map (·.title) = ["twice", "once"] ∧
    Run (plain false [] repeating) tagHistory tagged ∧ request? tagHistory 1 = some (.call tagCall) ∧
    tagged.isClosed = false ∧ tagged.agendas[1]?.map List.length = some 0 ∧
    (attempts 1 tagHistory).map (·.route) = [0, 0, 1] := by
  have hstate : (repeating.specs.filter (·.tags.contains "t")).map (·.title) = ["twice", "once"] ∧
      ((plain false [] repeating).run? untilTagCall).isSome = true ∧
      (tagging.run? (List.replicate 20 (.advance 1))).isSome = true ∧
      tagged.isClosed = false ∧ tagged.agendas[1]?.map List.length = some 0 ∧
      (attempts 1 tagHistory).map (·.route) = [0, 0, 1] := by decide +kernel
  obtain ⟨hlisting, hbegun, hrest, hopen, hend, hattempts⟩ := hstate
  exact ⟨hlisting, (run_history _ _ hbegun).trans (run_history _ _ hrest), rfl, hopen, hend, hattempts⟩

end Engine

end LogDispatch
