import LogDispatch.Proofs.Carrying
import LogDispatch.Proofs.Frames
import LogDispatch.Proofs.Levels

/-! What the variables of a record are. Each delivery that is on the agenda of a call carries what the call is about,
    and its scope has the frames of the call, of its caller and of its channel over that of the process
    (`Action.Stems`). This holds when the deliveries are chosen, and channels keep their frames from then on; so the
    record of a delivery gives every name the value in the first of the layers that binds it (`records_see_layers`). -/

namespace LogDispatch

/-- The delivery carries what a call is about to a route; the frame is what the call itself binds for it. -/
inductive Delivery.Carries (g : Generation) : Subject → Delivery → Frame → Prop
  | log {level : Level} {message : Message} {rank : Nat} {name text : String} {d : Delivery} :
      g.levels.resolve level = .ok rank → g.levels.name? rank = some name → message.render = .ok text →
      d.level = some rank → d.levelName = some name → Carries g (.log level message) d
        (Dict.ofList [("level#", .int rank), ("msg", .text text), ("level", .text name)])
  | tag {tags : List String} {message : Message} {tag text : String} {d : Delivery} :
      tag ∈ tags → message.render = .ok text → d.tag = some tag → Carries g (.tags tags message) d
        (Dict.ofList [("level#", .int unrankedLevel), ("tag", .text tag), ("msg", .text text)])
  | event {name : String} {d : Delivery} : d.event = some name → Carries g (.event name) d
      (Dict.ofList [("event", .text name), ("level#", .int unrankedLevel)])

/-- What a record says about a call under the names that the call itself binds. -/
def Record.States (g : Generation) (record : Record) : Subject → Prop
  | .log level message => ∃ rank name text, g.levels.resolve level = .ok rank ∧ g.levels.name? rank = some name ∧
      message.render = .ok text ∧ record.level = some rank ∧ record.levelName = some name ∧
      record.scope.resolve? "msg" = some (.text text) ∧ record.scope.resolve? "level#" = some (.int rank) ∧
      record.scope.resolve? "level" = some (.text name)
  | .tags tags message => ∃ tag ∈ tags, ∃ text, message.render = .ok text ∧ record.tag = some tag ∧
      record.scope.resolve? "msg" = some (.text text) ∧ record.scope.resolve? "level#" = some (.int unrankedLevel) ∧
      record.scope.resolve? "tag" = some (.text tag)
  | .event name => record.scope.resolve? "event" = some (.text name) ∧
      record.scope.resolve? "level#" = some (.int unrankedLevel)

/-- The record was rendered for one of the routes, in a format that was chosen for it. Each name has the value in the
    first of the layers that binds it, and the text of a template is made of these values. -/
structure Record.Sees (g : Generation) (subject : Subject) (layers : Layers) (record : Record) : Prop where
  delivery : ∃ (d : Delivery) (r : Route) (format : Format), d.Carries g subject layers.own ∧ d.Chosen g ∧
    g.routes[d.route]? = some r ∧ d.format = some format ∧ record = d.record g r record.text ∧
    format.render record.scope = .ok record.text ∧ ∀ t, format = .template t → ∀ scope : Scope,
      (∀ name ∈ t.variableNames, scope.resolve? name = layers.value? name) → t.render scope = .ok record.text
  values : ∀ name, record.scope.resolve? name = layers.value? name
  states : record.States g subject

namespace Engine

/-- The frame of the channel in the scopes of a call. Events are announced through no channel. -/
def channelLayer (e : Engine) (call : Call) : Option Frame :=
  match call.subject with
  | .event _ => none
  | _ => e.channelFrame call

/-- The delivery carries what the call is about, with the frames of the call in its scope. -/
def Sends (e : Engine) (g : Generation) (call : Call) (d : Delivery) : Prop :=
  ∃ own, d.Carries g call.subject own ∧ d.scope = g.scopeFor (e.channelLayer call) call.caller own

end Engine

/-- The layers of the records of a call: over what the process binds itself, the variables of the configuration, of the
    host, of the channel and of the caller. -/
structure Layers.Of (e : Engine) (setup : Setup) (config : Config) (call : Call) (l : Layers) : Prop where
  caller : l.caller = call.caller
  channel : l.channel = e.channelLayer call
  host : l.host = setup.vars
  configured : l.configured = config.vars
  process : ∃ roles, NamePair.ofOption "roles" .roles config.roles = .ok roles ∧
    l.process = ProcessInfo.builtins ⟨setup.role, roles, setup.workerId, setup.surroundings⟩

/-- What an action on the agenda of a call says about the call is so. -/
def Action.Stems (e : Engine) (call : Call) : Action → Prop
  | .load call' | .screen call' _ => call' = call
  | .select call' g _ rank text => call' = call ∧ ∃ level message, call.subject = .log level message ∧
      g.levels.resolve level = .ok rank ∧ message.render = .ok text
  | .accept g deliveries _ | .fan g deliveries _ => ∀ d ∈ deliveries, e.Sends g call d
  | .attempt g _ d => e.Sends g call d
  | _ => True

theorem LevelTable.lt_of_resolve {t : LevelTable} {level : Level} {rank : Nat} (h : t.resolve level = .ok rank) :
    rank < t.size := by
  cases level with
  | rank rank' =>
    obtain ⟨hlt, rfl⟩ := resolve_rank_eq_ok_iff.mp h
    exact hlt
  | name name => exact rank?_lt (resolve_name_eq_ok_iff.mp h)

theorem Layers.value?_own {l : Layers} {name : String} {value : Value} (h : l.own.get? name = some value) :
    l.value? name = some value := by
  simp [value?, h]

/-- No layer hides what the call binds itself. -/
theorem Delivery.Carries.states {g : Generation} {r : Route} {subject : Subject} {d : Delivery} {text : String}
    {layers : Layers} (h : d.Carries g subject layers.own)
    (hvalues : ∀ name, d.scope.resolve? name = layers.value? name) :
    (d.record g r text).States g subject := by
  have bound : ∀ {name value}, layers.own.get? name = some value → d.scope.resolve? name = some value :=
    fun hown => (hvalues _).trans (Layers.value?_own hown)
  generalize layers.own = own at h bound
  cases h with
  | log hrank hname htext hlevel hlevelName =>
    exact ⟨_, _, _, hrank, hname, htext, hlevel, hlevelName, bound rfl, bound rfl, bound rfl⟩
  | tag htag htext hd => exact ⟨_, htag, _, htext, hd, bound rfl, bound rfl, bound rfl⟩
  | event => exact ⟨bound rfl, bound rfl⟩

namespace Engine
variable {e e' : Engine} {task : TaskId} {a : Action} {op : Op} {fx : List Effect} {es : List Event}
  {g : Generation} {call : Call} {agenda : List Action} {rank : Nat} {text : String} {routes : List Nat}

/-! ### Deliveries of a call -/

theorem sends_logged {level : Level} {message : Message} (hsubject : call.subject = .log level message)
    (hrank : g.levels.resolve level = .ok rank) (htext : message.render = .ok text) :
    (e.logged call g rank text routes).Stems e call := by
  intro d hd
  obtain ⟨name, hname⟩ : ∃ name, g.levels.name? rank = some name :=
    ⟨_, List.getElem?_eq_getElem (LevelTable.lt_of_resolve hrank)⟩
  obtain ⟨i, -, rfl⟩ := List.mem_map.mp hd
  rw [Sends, channelLayer, hsubject, hname]
  exact ⟨_, .log hrank hname htext rfl rfl, rfl⟩

theorem sends_tagDeliveries {tags : List String} {message : Message} (hsubject : call.subject = .tags tags message)
    (htext : message.render = .ok text) :
    ∀ d ∈ g.tagDeliveries (e.channelFrame call) call.caller text tags, e.Sends g call d := by
  intro d hd
  obtain ⟨tag, htag, hd⟩ := List.mem_flatMap.mp hd
  obtain ⟨i, -, rfl⟩ := List.mem_map.mp hd
  rw [Sends, channelLayer, hsubject]
  exact ⟨_, .tag htag htext rfl, rfl⟩

theorem sends_eventDeliveries {name : String} (hsubject : call.subject = .event name) :
    ∀ d ∈ g.eventDeliveries call.caller name, e.Sends g call d := by
  intro d hd
  obtain ⟨⟨r, i⟩, -, hd⟩ := List.mem_flatMap.mp hd
  obtain ⟨format, -, hd⟩ := List.mem_filterMap.mp hd
  obtain ⟨format', -, rfl⟩ := Option.map_eq_some_iff.mp hd
  rw [Sends, channelLayer, hsubject]
  exact ⟨_, .event rfl, rfl⟩

/-- What a call that is let through goes on to stems from the call. -/
theorem stems_admission (h : e.admission call g = .ok a) : a.Stems e call := by
  unfold admission at h
  split at h
  · cases h
  · split at h
    · rename_i level message hsubject
      cases hrank : g.levels.resolve level with
      | error => simp [hrank] at h
      | ok rank =>
        cases htext : message.render with
        | error => simp [hrank, htext] at h
        | ok text =>
          simp only [hrank, htext] at h
          split at h <;> obtain rfl := Except.ok.inj h
          · exact ⟨rfl, level, message, hsubject, hrank, htext⟩
          · exact sends_logged hsubject hrank htext
    · rename_i tags message hsubject
      split at h
      · cases h
      · rename_i text htext
        obtain rfl := Except.ok.inj h
        exact sends_tagDeliveries hsubject htext
    · rename_i name hsubject
      obtain rfl := Except.ok.inj h
      exact sends_eventDeliveries hsubject

/-! ### Agendas of a call -/

theorem stems_of_foreign (h : a.isOfCall = false) : a.Stems e call := by
  cases a <;> trivial

/-- What comes of an action of a call stems from the call as well. -/
theorem Next.stems {next : List Action} (hn : Next e a next) (ha : a.Stems e call) : ∀ b ∈ next, b.Stems e call := by
  by_cases hforeign : a.isOfCall = false
  · intro b hb
    exact stems_of_foreign (by simpa using List.any_eq_false.mp (hn.isOfCall hforeign) b hb)
  · have foreign : ∀ {bs : List Action}, bs.any Action.isOfCall = false → ∀ b ∈ bs, b.Stems e call :=
      fun hbs b hb => stems_of_foreign (by simpa using List.any_eq_false.mp hbs b hb)
    have logged : ∀ {call' : Call} {g : Generation} {rank : Nat} {text : String} {routes : List Nat},
        (call' = call ∧ ∃ level message, call.subject = .log level message ∧ g.levels.resolve level = .ok rank ∧
          message.render = .ok text) → (e.logged call' g rank text routes).Stems e call := by
      rintro call' g rank text routes ⟨rfl, level, message, hsubject, hrank, htext⟩
      exact sends_logged hsubject hrank htext
    cases hn with
    | forbidden => exact foreign rfl
    | load => exact List.forall_mem_cons.mpr ⟨ha, foreign rfl⟩
    | screen hadm => exact List.forall_mem_singleton.mpr (stems_admission (ha ▸ hadm))
    | noChannel | select => exact List.forall_mem_singleton.mpr (logged ha)
    | stale => exact List.forall_mem_cons.mpr ⟨trivial, List.forall_mem_singleton.mpr (logged ha)⟩
    | accept => exact List.forall_mem_singleton.mpr ha
    | unrouted => exact List.forall_mem_cons.mpr ⟨trivial, List.forall_mem_singleton.mpr ha⟩
    | fan =>
      intro b hb
      obtain ⟨d, hd, rfl⟩ := List.mem_map.mp hb
      exact ha d hd
    | nothing => exact fun b hb => absurd hb List.not_mem_nil
    | reject => exact List.forall_mem_singleton.mpr trivial
    | alone | dropped | answered | awaitOut | send => exact foreign rfl
    | _ => exact absurd rfl hforeign

/-- The channel of a call keeps its frame. -/
theorem channelLayer_grows (hchannel : call.HasChannel e) (hg : e.Grows e') :
    e'.channelLayer call = e.channelLayer call := by
  have hframe : e'.channelFrame call = e.channelFrame call := by
    unfold channelFrame
    cases hcall : call.channel with
    | none => rfl
    | some i =>
      obtain ⟨c, hc⟩ := hchannel i hcall
      obtain ⟨c', hc', hmodule⟩ := hg.channels i c hc
      simp [hc, hc', Channel.frame, hmodule]
  rw [channelLayer, channelLayer, hframe]

theorem Sends.grows {d : Delivery} (h : e.Sends g call d) (hchannel : call.HasChannel e) (hg : e.Grows e') :
    e'.Sends g call d := by
  rwa [Sends, channelLayer_grows hchannel hg]

theorem stems_grows (h : a.Stems e call) (hchannel : call.HasChannel e) (hg : e.Grows e') : a.Stems e' call := by
  cases a with
  | accept | fan => exact fun d hd => Sends.grows (h d hd) hchannel hg
  | attempt => exact Sends.grows h hchannel hg
  | _ => exact h

theorem stems_step (hs : e.step? op = some (e', fx)) (hchannel : call.HasChannel e)
    (hagenda : e.agendas[task]? = some agenda) (ha : ∀ a ∈ agenda, a.Stems e call) :
    ∃ agenda', e'.agendas[task]? = some agenda' ∧ ∀ a ∈ agenda', a.Stems e' call := by
  have hgrows := step_grows hs
  rcases step_deed hs hagenda with ⟨-, hsame⟩ | ⟨a, rest, m, rfl, hdeed⟩
  · exact ⟨agenda, hsame, fun a h => stems_grows (ha a h) hchannel hgrows⟩
  · obtain ⟨hfirst, hrest⟩ := List.forall_mem_cons.mp ha
    refine ⟨_, hdeed.agenda_after, List.forall_mem_append.mpr ⟨fun b hb => ?_, fun b hb => ?_⟩⟩
    · have hstart : (e.setAgenda task rest).Grows e' := ⟨hgrows.setup, hgrows.nextId, hgrows.channels⟩
      exact stems_grows (hdeed.does.next.stems hfirst b hb) hchannel hstart
    · exact stems_grows (hrest b hb) hchannel hgrows

theorem stems_run (hr : Run e es e') (hchannel : call.HasChannel e) (hagenda : e.agendas[task]? = some agenda)
    (ha : ∀ a ∈ agenda, a.Stems e call) : call.HasChannel e' ∧
    ∃ agenda', e'.agendas[task]? = some agenda' ∧ ∀ a ∈ agenda', a.Stems e' call := by
  induction hr with
  | refl => exact ⟨hchannel, agenda, hagenda, ha⟩
  | step _ hs ih =>
    obtain ⟨hchannel₁, agenda₁, hagenda₁, ha₁⟩ := ih
    exact ⟨hchannel₁.mono (step_grows hs), stems_step hs hchannel₁ hagenda₁ ha₁⟩

theorem sends_run {d : Delivery} (hr : Run e es e') (hchannel : call.HasChannel e) (h : e.Sends g call d) :
    e'.Sends g call d := by
  have hboth : call.HasChannel e' ∧ e'.Sends g call d := by
    induction hr with
    | refl => exact ⟨hchannel, h⟩
    | step _ hs ih => exact ⟨ih.1.mono (step_grows hs), ih.2.grows ih.1 (step_grows hs)⟩
  exact hboth.2

section
variable {setup : Setup} {files : File.Store} {config : Config}

/-- All that is on the agenda of a call stems from it. -/
theorem Run.stems (h : Run (start setup files config) es e) (ht : request? es task = some (.call call)) :
    call.HasChannel e ∧ ∃ agenda, e.agendas[task]? = some agenda ∧ ∀ a ∈ agenda, a.Stems e call := by
  obtain ⟨earlier, later, e₁, opening, rfl, hearlier, hlater, -, hbegins, hagenda⟩ := h.begun ht
  cases hbegins with
  | call =>
    have hchannel : call.HasChannel e₁ := (hearlier.lineage.rooted _ (List.mem_of_getElem? hagenda)).1
    exact stems_run hlater hchannel hagenda (List.forall_mem_singleton.mpr rfl)

/-- What is tried carries what the call of the task is about. -/
theorem Run.sends_of_attempt (h : Run (start setup files config) es e) {ev : Event} (hev : ev ∈ es)
    (htask : ev.op.task? = some task) {k : FanOutId} {d : Delivery} (haction : ev.action? = some (.attempt g k d)) :
    ∃ call, request? es task = some (.call call) ∧ e.Sends g call d := by
  obtain ⟨before, after, rfl⟩ := List.append_of_mem hev
  obtain ⟨hbefore, hs, hafter⟩ := h.split
  obtain ⟨rest, m, hdeed⟩ := deed_of_action? hs htask haction
  obtain ⟨call, ht⟩ := hbefore.request_of_mem hdeed.agenda List.mem_cons_self rfl
  obtain ⟨hchannel, agenda, hagenda, hstems⟩ := hbefore.stems ht
  obtain rfl := Option.some.inj (hagenda.symm.trans hdeed.agenda)
  have hsends : ev.before.Sends g call d := hstems _ List.mem_cons_self
  refine ⟨call, request?_append ht, ?_⟩
  have hrest : Run ev.before (ev :: after) e := (Run.single hs).trans hafter
  exact sends_run hrest hchannel hsends

/-- A record that was given out was tried by the task that gave it. -/
theorem Run.attempt_of_out (h : Run (start setup files config) es e) {out : TransportId × Record}
    (hout : out ∈ LogDispatch.outs task es) : ∃ ev ∈ es, ∃ g k d r text, ev.op.task? = some task ∧
      ev.action? = some (.attempt g k d) ∧ g.routes[d.route]? = some r ∧ d.text = .ok text ∧
      out = (r.transport, d.record g r text) := by
  rw [h.outs] at hout
  obtain ⟨a, ha, hhanded⟩ := List.mem_filterMap.mp hout
  obtain ⟨ev, hev, hdone⟩ := List.mem_filterMap.mp ha
  obtain ⟨htask, haction⟩ := Option.ite_none_right_eq_some.mp hdone
  cases a with
  | attempt g k d =>
    obtain ⟨r, hr, hhanded⟩ := Option.bind_eq_some_iff.mp hhanded
    obtain ⟨text, htext, rfl⟩ := Option.map_eq_some_iff.mp hhanded
    exact ⟨ev, hev, g, k, d, r, text, htask, haction, hr, eq_ok_of_toOption htext, rfl⟩
  | _ => cases hhanded

/-- Every record that is given out comes from the call of its task, and is rendered with a generation that was built
    from a configuration. Under each name it sees the value in the first layer that binds the name: what the call binds
    itself, the frames of the caller from the last one on, that of the channel, the variables of the host, those of the
    configuration, where the last of several names that are the same when trimmed counts, and those of the process. So
    no other layer hides what the call binds itself. -/
theorem records_see_layers {transport : TransportId} {record : Record} (h : Run (start setup files config) es e)
    (hout : (transport, record) ∈ outs task es) :
    ∃ (call : Call) (g : Generation) (config : Config) (layers : Layers),
      request? es task = some (.call call) ∧ g ∈ installs es ∧ config ∈ builds es ∧ g.Built setup config ∧
      Layers.Of e setup config call layers ∧ record.Sees g call.subject layers ∧
      ∀ name value, configured? config.vars name = some value ↔ ∃ key json, config.vars.get? key = some json ∧
        Text.trim key = name ∧ value = Value.ofJson json ∧
        ∀ key' json', config.vars.get? key' = some json' → Text.trim key' = name → key' ≤ key := by
  obtain ⟨ev, hev, g, k, d, r, text, htask, haction, hr, htext, hpair⟩ := h.attempt_of_out hout
  obtain ⟨rfl, rfl⟩ := Prod.mk.inj hpair
  obtain ⟨call, ht, own, hcarries, hscope⟩ := h.sends_of_attempt hev htask haction
  obtain ⟨hg, hchosen, -⟩ := h.attempt_chosen hev haction
  obtain ⟨config', hconfig, hbuilt⟩ := h.installs_built g hg
  obtain ⟨roles, hroles, hlayers⟩ := hbuilt.resolve?_eq_value?
  let layers : Layers := ⟨own, call.caller, e.channelLayer call, setup.vars, config'.vars,
    ProcessInfo.builtins ⟨setup.role, roles, setup.workerId, setup.surroundings⟩⟩
  have hvalues : ∀ name, d.scope.resolve? name = layers.value? name := by
    intro name
    rw [hscope]
    exact hlayers _ _ _ name
  have ⟨_, format, _, hformat, _⟩ := hchosen
  have hrender : format.render d.scope = .ok text := by
    rwa [Delivery.text, hformat] at htext
  refine ⟨call, g, config', layers, ht, hg, hconfig, hbuilt, ⟨rfl, rfl, rfl, rfl, roles, hroles, rfl⟩,
    ⟨⟨d, r, format, hcarries, hchosen, hr, hformat, rfl, hrender, ?_⟩, hvalues, hcarries.states hvalues⟩,
    fun _ _ => configured?_eq_some_iff⟩
  rintro t rfl scope hsame
  rw [Template.render_congr fun name hname => (hsame name hname).trans (hvalues name).symm]
  exact hrender

end

/-- Variables that collide with each other when trimmed, and with those of the process, the host, the channel and the
    call. -/
def colliding : Config :=
  { modules := true
    vars := .ofList [("role", .string "config"), (" a", .string "config"), ("a", .string "later"),
      ("b", .string "config"), ("c", .string "config"), ("module", .string "config"), ("msg", .string "config")]
    formats := .ofList
      [("all", "$\x7brole\x7d $\x7ba\x7d $\x7bb\x7d $\x7bc\x7d $\x7bmodule\x7d $\x7bmsg\x7d $\x7blevel\x7d")]
    format := some "all" }

/-- A process whose host has variables of its own. -/
def hosted : Engine :=
  start
    { transports := Factory.builtins, formatters := .empty, formats := .empty
      vars := .ofList [("b", .text "host"), ("c", .text "host")], role := .master, workerId := 0, surroundings := .bare
      modules := true, terminal := false }
    { disk := { root := ⟨"/logs"⟩ } } colliding

/-- The engine is built, the channel `db` is opened, and a call goes through it whose caller binds names as well. -/
def untilRendered : List Op :=
  List.replicate 6 (.advance 0) ++ [.begin (.openChannel "db" none)] ++ List.replicate 4 (.advance 1) ++
    [.begin (.call
      { subject := .log (.name "info") (.text "up"), channel := some 0
        caller := [.ofList [("c", .text "first"), ("msg", .text "first")],
          .ofList [("c", .null), ("level", .text "last")]] })] ++
    List.replicate 6 (.advance 2)

/-- Each name is rendered from another layer; the null of the last frame of the caller hides what lies below it. -/
theorem colliding_names_rendered : Run hosted (hosted.history untilRendered) (hosted.after untilRendered) ∧
    ∃ out ∈ outs 2 (hosted.history untilRendered), out.2.text = "config later host null db up info" ∧
      ∃ (call : Call) (g : Generation) (config : Config) (layers : Layers),
        request? (hosted.history untilRendered) 2 = some (.call call) ∧
        Layers.Of (hosted.after untilRendered) hosted.setup config call layers ∧ out.2.Sees g call.subject layers := by
  have hstate : (hosted.run? untilRendered).isSome = true ∧
      (outs 2 (hosted.history untilRendered)).map (·.2.text) = ["config later host null db up info"] := by
    decide +kernel
  obtain ⟨hrun, htexts⟩ := hstate
  have h := run_history hosted untilRendered hrun
  obtain ⟨out, hout, htext⟩ := List.mem_map.mp (htexts ▸ List.mem_cons_self)
  obtain ⟨call, g, config, layers, hrequest, -, -, -, hlayers, hsees, -⟩ := records_see_layers h hout
  exact ⟨h, out, hout, htext, call, g, config, layers, hrequest, hlayers, hsees⟩

end Engine

end LogDispatch
