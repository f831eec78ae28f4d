import LogDispatch.Proofs.Gap

/-! Steps past a gap. What an engine does, it also does with its numbers moved past a gap, with the same moved
    numbers: numbers are only compared, looked up and given out in order. -/

namespace LogDispatch.Gap

open Engine

variable {gap : Gap} {e : Engine} {task : TaskId} {g : Generation}

/-! ### What a state shows -/

theorem getElem?_channels (i : ChannelId) : (gap.onEngine e).channels[i]? = e.channels[i]?.map gap.onChannel :=
  List.getElem?_map ..

theorem getElem?_transports (h : gap.Fits e) (t : TransportId) :
    (gap.onEngine e).transports[gap.onTransportId t]? = e.transports[t]?.map gap.onTransport := by
  rw [← List.getElem?_map]
  exact getElem?_spread (by simpa using h.transport) t

theorem getElem?_agendas (h : gap.Fits e) (task : TaskId) :
    (gap.onEngine e).agendas[gap.onTask task]? = e.agendas[task]?.map (·.map gap.onAction) := by
  rw [← List.getElem?_map]
  exact getElem?_spread (by simpa using h.task) task

theorem transport?_onEngine (h : gap.Fits e) (t : TransportId) :
    (gap.onEngine e).transport? (gap.onTransportId t) = (e.transport? t).map gap.onTransport :=
  getElem?_transports h t

theorem device?_onEngine (h : gap.Fits e) (t : TransportId) :
    (gap.onEngine e).device? (gap.onTransportId t) = (e.device? t).map gap.onDevice := by
  rw [device?, device?, transport?_onEngine h]
  cases e.transport? t <;> rfl

theorem liveTransport?_onEngine (route : String) :
    (gap.onEngine e).liveTransport? route = (e.liveTransport? route).map gap.onTransportId := by
  unfold liveTransport?
  have hlive : (gap.onEngine e).live = e.live.map gap.onGeneration := rfl
  rw [hlive]
  cases e.live with
  | none => rfl
  | some g =>
    simp only [Option.map_some, Option.bind_some, route?_onGeneration]
    cases g.route? route <;> rfl

theorem length_transports (h : gap.Fits e) :
    (gap.onEngine e).transports.length = gap.onTransportId e.transports.length := by
  have hfirst : gap.transport ≤ (e.transports.map gap.onTransport).length := by simpa using h.transport
  have hlength := length_spread gap.transports hfirst
  rwa [List.length_map] at hlength

theorem setAgenda_onEngine (h : gap.Fits e) (task : TaskId) (agenda : List Action) :
    (gap.onEngine e).setAgenda (gap.onTask task) (agenda.map gap.onAction) =
      gap.onEngine (e.setAgenda task agenda) := by
  have hfirst : gap.task ≤ (e.agendas.map (·.map gap.onAction)).length := by simpa using h.task
  have hset := set_spread [[]] hfirst task (agenda.map gap.onAction)
  rw [← List.map_set] at hset
  exact congrArg (fun agendas => { gap.onEngine e with agendas }) hset

theorem addTask_onEngine (h : gap.task ≤ e.agendas.length) (agenda : List Action) :
    (gap.onEngine e).addTask (agenda.map gap.onAction) = gap.onEngine (e.addTask agenda) := by
  have hfirst : gap.task ≤ (e.agendas.map (·.map gap.onAction)).length := by simpa using h
  have happend := spread_append [[]] hfirst [agenda.map gap.onAction]
  have hmap : (e.agendas ++ [agenda]).map (·.map gap.onAction) =
      e.agendas.map (·.map gap.onAction) ++ [agenda.map gap.onAction] := List.map_append
  rw [← hmap] at happend
  exact congrArg (fun agendas => { gap.onEngine e with agendas }) happend.symm

theorem setChannel_onEngine (channel : ChannelId) (c : Channel) :
    (gap.onEngine e).setChannel channel (gap.onChannel c) = gap.onEngine (e.setChannel channel c) := by
  simp only [setChannel, onEngine, List.map_set]

theorem setTransport_onEngine (h : gap.Fits e) (t : TransportId) (transport : Transport) :
    (gap.onEngine e).transports.set (gap.onTransportId t) (gap.onTransport transport) =
      (gap.onEngine { e with transports := e.transports.set t transport }).transports := by
  have hfirst : gap.transport ≤ (e.transports.map gap.onTransport).length := by simpa using h.transport
  have hset := set_spread gap.transports hfirst t (gap.onTransport transport)
  rwa [← List.map_set] at hset

theorem holds_onAction (id : GenerationId) (a : Action) : (gap.onAction a).holds (gap.onId id) = a.holds id := by
  cases a <;> first | rfl | exact gap.onId_beq

theorem isHeld_onEngine (id : GenerationId) : (gap.onEngine e).isHeld (gap.onId id) = e.isHeld id := by
  have hagendas : (gap.onEngine e).agendas.any (·.any (Action.holds (gap.onId id))) =
      e.agendas.any (·.any (Action.holds id)) := by
    show (spread gap.task [[]] (e.agendas.map (·.map gap.onAction))).any _ = _
    simp only [any_spread, List.any_map, Function.comp_def, holds_onAction]
    rfl
  unfold isHeld
  rw [hagendas]
  cases hlive : e.live with
  | none => simp [onEngine, hlive]
  | some g => simp [onEngine, hlive, onGeneration, onId_beq]

theorem contains_released (id : GenerationId) :
    (gap.onEngine e).released.contains (gap.onId id) = e.released.contains id := by
  refine Bool.eq_iff_iff.mpr ?_
  simp only [onEngine, List.contains_iff_mem, List.mem_map, onId_inj, exists_eq_right]

/-! ### Calls -/

theorem load_onEngine (call : Call) : (gap.onEngine e).load call = (e.load call).map gap.onMove := by
  unfold load
  have hlive : (gap.onEngine e).live = e.live.map gap.onGeneration := rfl
  rw [hlive, Option.map_map, Option.map_map]
  congr 1
  funext g
  have hforbidden : isForbidden call (gap.onGeneration g) = isForbidden call g := rfl
  simp only [Function.comp_apply, hforbidden]
  split <;> rfl

theorem channelFrame_onEngine (call : Call) : (gap.onEngine e).channelFrame call = e.channelFrame call := by
  unfold channelFrame
  cases call.channel with
  | none => rfl
  | some channel =>
    simp only [Option.bind_some, getElem?_channels, Option.map_map]
    rfl

theorem logged_onEngine (call : Call) (rank : Nat) (text : String) (routes : List Nat) :
    (gap.onEngine e).logged call (gap.onGeneration g) rank text routes =
      gap.onAction (e.logged call g rank text routes) := by
  simp only [logged, channelFrame_onEngine, logDeliveries_onGeneration, onAction]

theorem admission_onEngine (call : Call) :
    (gap.onEngine e).admission call (gap.onGeneration g) = (e.admission call g).map gap.onAction := by
  have hclosed : (gap.onEngine e).isClosed = e.isClosed := rfl
  have hlevels : (gap.onGeneration g).levels = g.levels := rfl
  have hmode : (gap.onGeneration g).channelMode = g.channelMode := rfl
  unfold admission
  rw [hclosed]
  split
  · rfl
  · split
    · rw [hlevels, hmode]
      split
      · rfl
      · split
        · rfl
        · split
          · rfl
          · rw [flatRoute?_onGeneration, logged_onEngine]
            rfl
    · split
      · rfl
      · rw [tagDeliveries_onGeneration, channelFrame_onEngine]
        rfl
    · rw [eventDeliveries_onGeneration]
      rfl

theorem screen_onEngine (call : Call) :
    (gap.onEngine e).screen call (gap.onGeneration g) = gap.onMove (e.screen call g) := by
  unfold screen
  rw [admission_onEngine]
  cases e.admission call g <;> rfl

theorem select_onEngine (call : Call) (channel : ChannelId) (rank : Nat) (text : String) :
    (gap.onEngine e).select call (gap.onGeneration g) channel rank text =
      gap.onMove (e.select call g channel rank text) := by
  unfold select
  rw [getElem?_channels]
  cases e.channels[channel]? with
  | none =>
    simp only [Option.map_none, logged_onEngine]
    rfl
  | some c =>
    simp only [Option.map_some, tableFor?_onChannel]
    cases c.tableFor? g with
    | none =>
      have hmodule : (gap.onChannel c).module = c.module := rfl
      have hselect : (gap.onTable (.compute g c.module)).select rank = (RouteLevels.compute g c.module).select rank := rfl
      simp only [Option.map_none, hmodule, compute_onGeneration, hselect, logged_onEngine]
      rfl
    | some table =>
      have hselect : (gap.onTable table).select rank = table.select rank := rfl
      simp only [Option.map_some, hselect, logged_onEngine]
      rfl

theorem refresh_onEngine (channel : ChannelId) (table : RouteLevels) :
    (gap.onEngine e).refresh channel (gap.onTable table) = gap.onMove (e.refresh channel table) := by
  unfold refresh
  rw [getElem?_channels]
  cases e.channels[channel]? with
  | none => rfl
  | some c =>
    simp only [Option.map_some, refresh_onChannel, setChannel_onEngine]
    rfl

theorem accept_onEngine (deliveries : List Delivery) (callback : Option CallbackId) :
    (gap.onEngine e).accept (gap.onGeneration g) deliveries callback = gap.onMove (e.accept g deliveries callback) := by
  cases deliveries <;> rfl

theorem fan_onEngine (deliveries : List Delivery) (callback : Option CallbackId) :
    (gap.onEngine e).fan (gap.onGeneration g) deliveries callback = gap.onMove (e.fan g deliveries callback) := by
  cases deliveries with
  | nil => rfl
  | cons d ds =>
    simp only [fan, onMove, List.isEmpty_cons, Bool.false_eq_true, if_false, List.map_map]
    rfl

theorem deliver_onEngine (h : gap.Fits e) (transport : TransportId) (record : Record) (ack : AckId)
    (complaint : String) :
    (gap.onEngine e).deliver (gap.onTask task) (gap.onTransportId transport) record ack complaint =
      gap.onMove (e.deliver task transport record ack complaint) := by
  unfold deliver
  rw [device?_onEngine h]
  cases e.device? transport with
  | none => rfl
  | some device =>
    cases device with
    | console | custom => rfl
    | file outlet =>
      have hsender : (gap.onOutlet outlet).sender? = outlet.sender?.map gap.onWriterId :=
        (apply_ite (Option.map gap.onWriterId) (outlet.isReleased = true) none (some outlet.writer)).symm
      simp only [Option.map_some, onDevice, hsender]
      cases outlet.sender? <;> rfl

theorem attempt_onEngine (h : gap.Fits e) (fanOut : FanOutId) (d : Delivery) :
    (gap.onEngine e).attempt (gap.onTask task) (gap.onGeneration g) fanOut d =
      gap.onMove (e.attempt task g fanOut d) := by
  unfold attempt
  rw [getElem?_routes]
  cases g.routes[d.route]? with
  | none => rfl
  | some route =>
    simp only [Option.map_some]
    cases d.text with
    | error => rfl
    | ok text =>
      exact deliver_onEngine (e := { e with acks := e.acks ++ [⟨route.name, fanOut, false⟩] })
        ⟨h.task, h.id, h.transport, h.writer⟩ ..

theorem reject_onEngine (error : LogError) (callback : Option CallbackId) :
    (gap.onEngine e).reject error callback = gap.onMove (e.reject error callback) := by
  cases callback <;> rfl

/-! ### Answers -/

theorem answer_onEngine (ack : AckId) (answer : Answer) :
    (gap.onEngine e).answer ack answer = gap.onMove (e.answer ack answer) := by
  unfold Engine.answer
  have hacks : (gap.onEngine e).acks = e.acks := rfl
  rw [hacks]
  cases e.acks[ack]? with
  | none => rfl
  | some a =>
    dsimp only
    cases a.answered with
    | true => rfl
    | false => cases answer.result a.route <;> rfl

theorem record_onEngine (fanOut : FanOutId) (error : LogError) :
    (gap.onEngine e).record fanOut error = gap.onMove (e.record fanOut error) := by
  unfold Engine.record
  have hfanOuts : (gap.onEngine e).fanOuts = e.fanOuts := rfl
  rw [hfanOuts]
  cases e.fanOuts[fanOut]? <;> rfl

theorem arrive_onEngine (fanOut : FanOutId) : (gap.onEngine e).arrive fanOut = gap.onMove (e.arrive fanOut) := by
  unfold Engine.arrive
  have hfanOuts : (gap.onEngine e).fanOuts = e.fanOuts := rfl
  rw [hfanOuts]
  cases e.fanOuts[fanOut]? with
  | none => rfl
  | some f =>
    dsimp only
    cases f.isLast <;> rfl

theorem tell_onEngine (fanOut : FanOutId) : (gap.onEngine e).tell fanOut = gap.onMove (e.tell fanOut) := by
  unfold Engine.tell
  have hfanOuts : (gap.onEngine e).fanOuts = e.fanOuts := rfl
  rw [hfanOuts]
  cases e.fanOuts[fanOut]? with
  | none => rfl
  | some f =>
    dsimp only
    cases f.completion? <;> rfl

theorem answersFor_onEngine (batch : List File.Job) (result : Except File.Disk.Fault Unit) :
    (gap.onEngine e).answersFor batch result = (e.answersFor batch result).map gap.onAction := by
  have hacks : (gap.onEngine e).acks = e.acks := rfl
  simp only [answersFor, hacks, List.map_filterMap, Option.map_map]
  rfl

theorem write_onEngine (h : gap.Fits e) (writer : WriterId) (batch : List File.Job) :
    (gap.onEngine e).write (gap.onWriterId writer) batch = gap.onMove (e.write writer batch) := by
  have hfiles : (gap.onEngine e).files = gap.onStore e.files := rfl
  simp only [Engine.write, hfiles, write_onStore h.writer, answersFor_onEngine]
  rfl

/-! ### Releases -/

theorem frees_onGeneration : frees (gap.onGeneration g).routes = (frees g.routes).map gap.onAction := by
  simp only [frees, onGeneration, List.map_map]
  rfl

theorem release_onEngine : (gap.onEngine e).release (gap.onGeneration g) = gap.onMove (e.release g) := by
  have hcontains : (gap.onEngine e).released.contains (gap.onGeneration g).id = e.released.contains g.id :=
    contains_released ..
  unfold Engine.release
  rw [hcontains]
  cases e.released.contains g.id with
  | true => rfl
  | false => exact congrArg (Move.mk _ · []) frees_onGeneration

theorem letGo_onEngine : (gap.onEngine e).letGo (gap.onGeneration g) = gap.onMove (e.letGo g) := by
  have hheld : (gap.onEngine e).isHeld (gap.onGeneration g).id = e.isHeld g.id := isHeld_onEngine ..
  unfold Engine.letGo
  rw [hheld]
  cases e.isHeld g.id with
  | true => rfl
  | false => exact release_onEngine

theorem leave_onEngine : (gap.onEngine e).leave = gap.onMove e.leave := by
  have hhandles : (gap.onEngine e).handles = e.handles := rfl
  have hlive : (gap.onEngine e).live = e.live.map gap.onGeneration := rfl
  unfold Engine.leave
  rw [hhandles, hlive]
  dsimp only
  split
  · cases e.live <;> rfl
  · rfl

theorem free_onEngine (h : gap.Fits e) (route : String) (t : TransportId) :
    (gap.onEngine e).free (gap.onTask task) route (gap.onTransportId t) = gap.onMove (e.free task route t) := by
  unfold Engine.free
  rw [transport?_onEngine h]
  cases e.transport? t with
  | none => rfl
  | some transport =>
    cases hdevice : transport.device with
    | console | custom =>
      have hset := setTransport_onEngine h t { transport with isFreed := true }
      simp only [Option.map_some, onTransport, hdevice, onDevice] at hset ⊢
      rw [hset]
      rfl
    | file outlet =>
      have hfiles : (gap.onEngine e).files = gap.onStore e.files := rfl
      have hset : (gap.onEngine e).transports.set (gap.onTransportId t)
          ⟨.file { gap.onOutlet outlet with isReleased := true }, true⟩ = _ :=
        setTransport_onEngine h t ⟨.file { outlet with isReleased := true }, true⟩
      simp only [Option.map_some, onTransport, hdevice, onDevice, hfiles, release_onStore h.writer, List.set_set, hset]
      rcases e.files.release outlet with ⟨files, closed⟩
      cases closed <;> rfl

theorem close_onEngine : (gap.onEngine e).close = gap.onMove e.close := by
  have hclosed : (gap.onEngine e).isClosed = e.isClosed := rfl
  unfold Engine.close
  rw [hclosed]
  cases e.isClosed with
  | true => rfl
  | false =>
    have hlive : (gap.onEngine e).live = e.live.map gap.onGeneration := rfl
    have hclosing : { gap.onEngine e with isClosed := true } = gap.onEngine { e with isClosed := true } := rfl
    simp only [Bool.false_eq_true, if_false]
    rw [hclosing]
    generalize { e with isClosed := true } = e'
    rw [hlive]
    cases e.live with
    | none => rfl
    | some g => exact release_onEngine

/-! ### Channels -/

theorem register_onEngine (module : String) (shownAs : Option String) :
    (gap.onEngine e).register module shownAs = (e.register module shownAs).map gap.onMove := by
  have hsetup : (gap.onEngine e).setup = e.setup := rfl
  have hlive : (gap.onEngine e).live = e.live.map gap.onGeneration := rfl
  have hlength : (gap.onEngine e).channels.length = e.channels.length := List.length_map _
  unfold Engine.register
  rw [hsetup, hlive]
  split
  · rfl
  · rw [Option.map_map, Option.map_map]
    congr 1
    funext g
    have hchannels : (gap.onEngine e).channels ++ [gap.onChannel (.ofModule g module shownAs)] =
        (e.channels ++ [Channel.ofModule g module shownAs]).map gap.onChannel := by
      rw [List.map_append]
      rfl
    simp only [Function.comp_apply, ofModule_onGeneration, hlength, hchannels]
    rfl

theorem enlist_onEngine (channel : ChannelId) : (gap.onEngine e).enlist channel = (e.enlist channel).map gap.onMove := by
  have hlocked : (gap.onEngine e).channelsLocked = e.channelsLocked := rfl
  unfold Engine.enlist
  rw [hlocked, getElem?_channels]
  cases e.channelsLocked with
  | true => rfl
  | false =>
    cases e.channels[channel]? with
    | none => rfl
    | some c => exact congrArg (fun e => some (Move.mk e [] [])) (setChannel_onEngine channel { c with isEnlisted := true })

theorem enlisted_onEngine : (gap.onEngine e).enlisted = e.enlisted := by
  simp only [enlisted, onEngine, List.zipIdx_map, List.filterMap_map]
  rfl

theorem recalcAll_onEngine : (gap.onEngine e).recalcAll (gap.onGeneration g) = (e.recalcAll g).map gap.onMove := by
  have hlocked : (gap.onEngine e).channelsLocked = e.channelsLocked := rfl
  unfold Engine.recalcAll
  rw [hlocked, enlisted_onEngine]
  cases e.channelsLocked with
  | true => rfl
  | false =>
    have hnext : e.enlisted.map (Action.recalc (gap.onGeneration g)) ++ [Action.unlockChannels] =
        (e.enlisted.map (Action.recalc g) ++ [Action.unlockChannels]).map gap.onAction := by
      rw [List.map_append, List.map_map]
      rfl
    exact congrArg (fun next => some (Move.mk _ next [])) hnext

theorem recalc_onEngine (channel : ChannelId) :
    (gap.onEngine e).recalc (gap.onGeneration g) channel = gap.onMove (e.recalc g channel) := by
  unfold Engine.recalc
  rw [getElem?_channels]
  cases e.channels[channel]? with
  | none => rfl
  | some c =>
    simp only [Option.map_some, recalc_onChannel, setChannel_onEngine]
    rfl

/-! ### Builds -/

theorem map_building (isReload : Bool) (outcome : Outcome) :
    (building isReload outcome).map gap.onAction = building isReload outcome := by
  cases isReload <;> rfl

theorem abandon_onDraft (d : Draft) (isReload : Bool) (outcome : Outcome) :
    abandon (gap.onDraft d) isReload outcome = (abandon d isReload outcome).map gap.onAction := by
  have hfrees : frees (gap.onGeneration d.generation).routes = _ := frees_onGeneration
  unfold frees at hfrees
  rw [abandon, abandon, List.map_append, map_building, ← hfrees]
  rfl

theorem publishing_onGeneration (isReload : Bool) :
    publishing (gap.onGeneration g) isReload = (publishing g isReload).map gap.onAction := by
  cases isReload <;> rfl

theorem checkReload_onEngine (config : Config) :
    (gap.onEngine e).checkReload config = gap.onMove (e.checkReload config) := by
  have hclosed : (gap.onEngine e).isClosed = e.isClosed := rfl
  have hsetup : (gap.onEngine e).setup = e.setup := rfl
  unfold Engine.checkReload
  rw [hclosed, hsetup]
  split
  · rfl
  · split <;> rfl

theorem build_onEngine (h : gap.Fits e) (config : Config) (isReload : Bool) :
    (gap.onEngine e).build config isReload = gap.onMove (e.build config isReload) := by
  have hsetup : (gap.onEngine e).setup = e.setup := rfl
  have hnext : (gap.onEngine e).nextId = gap.onId e.nextId := rfl
  have hsucc : gap.onId e.nextId + 1 = gap.onId (e.nextId + 1) := (past_succ h.id).symm
  unfold Engine.build
  rw [hsetup, hnext, hsucc, ofConfig_onId]
  cases Draft.ofConfig e.setup e.nextId config with
  | error error => exact congrArg (Move.mk _ · []) (map_building ..).symm
  | ok d => rfl

theorem made_onEngine (h : gap.Fits e) (d : Draft) (spec : RouteSpec) (plan : Draft.RoutePlan) (isReload : Bool)
    (result : Making Device) :
    (gap.onEngine e).made (gap.onDraft d) spec plan isReload (result.map (·.map gap.onDevice)) =
      gap.onMove (e.made d spec plan isReload result) := by
  rcases result with panic | error | device
  · exact congrArg (Move.mk _ · []) (abandon_onDraft ..)
  · exact congrArg (Move.mk _ · []) (abandon_onDraft ..)
  · have hfirst : gap.transport ≤ (e.transports.map gap.onTransport).length := by simpa using h.transport
    have hspread := spread_append gap.transports hfirst [gap.onTransport { device }]
    have htransports : (gap.onEngine e).transports ++ [gap.onTransport { device }] =
        (gap.onEngine { e with transports := e.transports ++ [{ device }] }).transports := by
      simp only [onEngine, List.map_append, List.map_singleton, hspread]
    have hattach : _ = gap.onDraft _ := attach_onDraft (d := { d with todo := d.todo.drop 1 }) spec plan e.transports.length
    have hlength := length_transports h
    show attach _ _ _ _ _ _ = _
    unfold Engine.attach
    rw [hlength]
    have hdraft : ({ gap.onDraft d with todo := (gap.onDraft d).todo.drop 1 } : Draft) =
        gap.onDraft { d with todo := d.todo.drop 1 } := rfl
    have hnew : ({ device := gap.onDevice device } : Transport) = gap.onTransport { device } := rfl
    rw [hdraft, hattach, hnew, htransports]
    rfl

theorem makeFile_onStore {s : File.Store} (hw : gap.writer ≤ s.writers.length) (context : Context) (table : Nat)
    (spec : RouteSpec) : Device.makeFile context (gap.onStore s) table spec =
      (Device.makeFile context s table spec).map (·.map fun r => (gap.onStore r.1, gap.onDevice r.2)) := by
  unfold Device.makeFile
  split
  · rfl
  · split
    · rfl
    · rfl
    · rw [create_onStore hw]
      rename_i options _ _ path _
      rcases s.create table ⟨path⟩ options with _ | _ | _ <;> rfl

theorem writers_makeFile {context : Context} {s files : File.Store} {table : Nat} {spec : RouteSpec} {device : Device}
    (h : Device.makeFile context s table spec = .ok (.ok (files, device))) : s.writers.length ≤ files.writers.length := by
  obtain ⟨options, path, outlet, -, -, hcreate, -⟩ := Device.makeFile_eq_ok h
  exact (File.Store.provides_create hcreate).writers

theorem makeRoute_onEngine (h : gap.Fits e) (d : Draft) (spec : RouteSpec) (plan : Draft.RoutePlan) (isReload : Bool) :
    (gap.onEngine e).makeRoute (gap.onTask task) (gap.onDraft d) spec plan isReload =
      gap.onMove (e.makeRoute task d spec plan isReload) := by
  have hsetup : (gap.onEngine e).setup = e.setup := rfl
  have hcontext : (gap.onEngine e).context (gap.onDraft d) = e.context d := rfl
  have hfiles : (gap.onEngine e).files = gap.onStore e.files := rfl
  unfold makeRoute
  rw [hsetup, hcontext, hfiles]
  cases e.setup.transports.get? spec.kind with
  | none => exact congrArg (Move.mk _ · []) (abandon_onDraft ..)
  | some factory =>
    cases factory with
    | console =>
      have hmade := made_onEngine h d spec plan isReload (Device.makeConsole (e.context d) spec)
      have hsame : (Device.makeConsole (e.context d) spec).map (·.map gap.onDevice) =
          Device.makeConsole (e.context d) spec := by
        unfold Device.makeConsole
        cases checked (Console.Settings.ofSpec (e.context d).levels spec) <;> rfl
      rwa [hsame] at hmade
    | custom =>
      simp only [liveTransport?_onEngine]
      rfl
    | file table =>
      dsimp only
      rw [makeFile_onStore h.writer]
      rcases hfile : Device.makeFile (e.context d) e.files table spec with panic | error | ⟨files, device⟩
      · exact made_onEngine h d spec plan isReload (.error panic)
      · exact made_onEngine h d spec plan isReload (.ok (.error error))
      · have hmore : gap.writer ≤ files.writers.length := Nat.le_trans h.writer (writers_makeFile hfile)
        exact made_onEngine (e := { e with files }) ⟨h.task, h.id, h.transport, hmore⟩ d spec plan isReload
          (.ok (.ok device))

theorem make_onEngine (h : gap.Fits e) (d : Draft) (isReload : Bool) :
    (gap.onEngine e).make (gap.onTask task) (gap.onDraft d) isReload = gap.onMove (e.make task d isReload) := by
  have htodo : (gap.onDraft d).todo = d.todo := rfl
  have hplan : ∀ spec, (gap.onDraft d).plan spec = d.plan spec := fun _ => rfl
  unfold Engine.make
  rw [htodo]
  cases d.todo with
  | nil => exact congrArg (Move.mk _ · []) (publishing_onGeneration ..)
  | cons spec todo =>
    dsimp only
    rw [hplan]
    cases d.plan spec with
    | error fault => exact congrArg (Move.mk _ · []) (abandon_onDraft ..)
    | ok plan => exact makeRoute_onEngine h ..

theorem install_onEngine : (gap.onEngine e).install (gap.onGeneration g) = gap.onMove (e.install g) := by
  have hlive : (gap.onEngine e).live = e.live.map gap.onGeneration := rfl
  unfold Engine.install
  rw [hlive]
  cases e.live <;> rfl

/-! ### Steps and runs -/

/-- What an action does past the gap is what it does, moved past the gap. -/
theorem perform?_onEngine (h : gap.Fits e) (a : Action) :
    (gap.onEngine e).perform? (gap.onTask task) (gap.onAction a) = (e.perform? task a).map gap.onMove := by
  cases a with
  | load call => exact load_onEngine call
  | screen call g => exact congrArg some (screen_onEngine call)
  | select call g channel rank text => exact congrArg some (select_onEngine call channel rank text)
  | refresh channel table => exact congrArg some (refresh_onEngine channel table)
  | accept g deliveries callback => exact congrArg some (accept_onEngine deliveries callback)
  | fan g deliveries callback => exact congrArg some (fan_onEngine deliveries callback)
  | attempt g fanOut delivery => exact congrArg some (attempt_onEngine h fanOut delivery)
  | send writer job =>
    exact congrArg (fun files => some (Move.mk { gap.onEngine e with files } [] [])) (send_onStore h.writer writer job)
  | reject error callback => exact congrArg some (reject_onEngine error callback)
  | answer ack answer => exact congrArg some (answer_onEngine ack answer)
  | record fanOut error => exact congrArg some (record_onEngine fanOut error)
  | arrive fanOut => exact congrArg some (arrive_onEngine fanOut)
  | tell fanOut => exact congrArg some (tell_onEngine fanOut)
  | letGo g => exact congrArg some letGo_onEngine
  | leave => exact congrArg some leave_onEngine
  | free route transport => exact congrArg some (free_onEngine h route transport)
  | checkReload config => exact congrArg some (checkReload_onEngine config)
  | build config isReload => exact congrArg some (build_onEngine h config isReload)
  | make d isReload => exact congrArg some (make_onEngine h d isReload)
  | install g => exact congrArg some install_onEngine
  | recalcAll g => exact recalcAll_onEngine
  | recalc g channel => exact congrArg some (recalc_onEngine channel)
  | close => exact congrArg some close_onEngine
  | register module shownAs => exact register_onEngine module shownAs
  | enlist channel => exact enlist_onEngine channel
  | write writer batch => exact congrArg some (write_onEngine h writer batch)
  | rest writer =>
    exact congrArg (fun files => some (Move.mk { gap.onEngine e with files } [] [])) (rest_onStore h.writer writer)
  | lockReload =>
    show (if e.reloadLocked then none else _) = Option.map _ (if e.reloadLocked then none else _)
    split <;> rfl
  | _ => rfl

theorem proceed_onEngine {m : Move} (h : gap.task ≤ m.engine.agendas.length) (rest : List Action) :
    proceed (gap.onTask task) (rest.map gap.onAction) (gap.onMove m) =
      (gap.onEngine (proceed task rest m).1, (proceed task rest m).2.map gap.onEffect) := by
  have hfirst : gap.task ≤ (m.engine.agendas.map (·.map gap.onAction)).length := by simpa using h
  have hset := set_spread [[]] hfirst task ((m.next ++ rest).map gap.onAction)
  rw [← List.map_set] at hset
  have hnext : (gap.onMove m).next ++ rest.map gap.onAction = (m.next ++ rest).map gap.onAction :=
    List.map_append.symm
  rw [proceed, hnext]
  exact congrArg (fun agendas => ({ gap.onEngine m.engine with agendas }, m.effects.map gap.onEffect)) hset

theorem advance?_onEngine (h : gap.Fits e) (task : TaskId) : (gap.onEngine e).advance? (gap.onTask task) =
    (e.advance? task).map fun r => (gap.onEngine r.1, r.2.map gap.onEffect) := by
  unfold advance?
  rw [getElem?_agendas h]
  cases e.agendas[task]? with
  | none => rfl
  | some agenda =>
    cases agenda with
    | nil => rfl
    | cons a rest =>
      have hfits : gap.Fits (e.setAgenda task rest) := ⟨by simpa using h.task, h.id, h.transport, h.writer⟩
      simp only [Option.map_some, List.map_cons, setAgenda_onEngine h, perform?_onEngine hfits]
      cases hm : (e.setAgenda task rest).perform? task a with
      | none => rfl
      | some m =>
        have hagendas : m.engine.agendas = (e.setAgenda task rest).agendas := (Does.perform hm).agendas
        exact congrArg some (proceed_onEngine (hagendas ▸ hfits.task) rest)

theorem created?_onEngine (h : gap.Fits e) (task : TaskId) (result : Making String) :
    (gap.onEngine e).created? (gap.onTask task) result =
      (e.created? task result).map fun r => (gap.onEngine r.1, r.2.map gap.onEffect) := by
  have hresult : (result.map (·.map Device.custom)).map (·.map gap.onDevice) = result.map (·.map Device.custom) := by
    rcases result with _ | _ | _ <;> rfl
  unfold created?
  rw [getElem?_agendas h]
  cases e.agendas[task]? with
  | none => rfl
  | some agenda =>
    cases agenda with
    | nil => rfl
    | cons a rest =>
      cases a with
      | awaitCreate d spec plan isReload =>
        have hmade := made_onEngine h d spec plan isReload (result.map (·.map .custom))
        rw [hresult] at hmade
        simp only [Option.map_some, List.map_cons, onAction, hmade]
        refine congrArg some (proceed_onEngine ?_ rest)
        rw [made_changes]
        exact h.task
      | _ => rfl

theorem returned?_onEngine (h : gap.Fits e) (task : TaskId) (panicked : Bool) :
    (gap.onEngine e).returned? (gap.onTask task) panicked =
      (e.returned? task panicked).map fun r => (gap.onEngine r.1, r.2.map gap.onEffect) := by
  unfold returned?
  rw [getElem?_agendas h]
  cases e.agendas[task]? with
  | none => rfl
  | some agenda =>
    cases agenda with
    | nil => rfl
    | cons a rest =>
      cases a with
      | awaitOut | awaitFree =>
        simp only [Option.map_some, List.map_cons, onAction, setAgenda_onEngine h]
        cases panicked <;> rfl
      | _ => rfl

theorem openChannel?_onEngine (channel : ChannelId) :
    (gap.onEngine e).openChannel? channel = (e.openChannel? channel).map gap.onChannel := by
  unfold openChannel?
  rw [getElem?_channels]
  cases e.channels[channel]? with
  | none => rfl
  | some c =>
    show (some (gap.onChannel c)).filter _ = _
    simp only [Option.filter_some]
    have hopen : (gap.onChannel c).isOpen = c.isOpen := rfl
    rw [hopen]
    split <;> rfl

theorem begin?_onEngine (h : gap.Fits e) (request : Request) :
    (gap.onEngine e).begin? (gap.onRequest request) = (e.begin? request).map gap.onEngine := by
  have hhandles : (gap.onEngine e).handles = e.handles := rfl
  cases request with
  | call call =>
    have hopen : call.channel.all (fun c => ((gap.onEngine e).openChannel? c).isSome) =
        call.channel.all fun c => (e.openChannel? c).isSome := by
      simp only [openChannel?_onEngine, Option.isSome_map]
    simp only [onRequest, begin?, hhandles, hopen]
    split
    · exact congrArg some (addTask_onEngine (e := e.borrow) h.task [.load call])
    · rfl
  | reload config =>
    simp only [onRequest, begin?, hhandles]
    split
    · exact congrArg some (addTask_onEngine (e := e.borrow) h.task [.lockReload, .checkReload config])
    · rfl
  | shutdown =>
    simp only [onRequest, begin?, hhandles]
    split
    · exact congrArg some (addTask_onEngine (e := e.borrow) h.task
        [.lockReload, .close, .unlockReload, .leave, .finish .done])
    · rfl
  | openChannel module shownAs =>
    simp only [onRequest, begin?, hhandles]
    split
    · exact congrArg some (addTask_onEngine (e := e.borrow) h.task [.register module shownAs])
    · rfl
  | leave =>
    simp only [onRequest, begin?, hhandles]
    split
    · exact congrArg some (addTask_onEngine h.task [.leave, .finish .done])
    · rfl
  | closeChannel channel =>
    simp only [onRequest, begin?, openChannel?_onEngine, Option.map_map]
    congr 1
    funext c
    have hset : _ = gap.onEngine _ := setChannel_onEngine (e := e) channel { c with isOpen := false }
    have hadd := addTask_onEngine (e := e.setChannel channel { c with isOpen := false }) h.task [.leave, .finish .done]
    rw [← hset] at hadd
    exact hadd
  | keep =>
    have hlive : (gap.onEngine e).live = e.live.map gap.onGeneration := rfl
    simp only [onRequest, begin?, hhandles, hlive]
    split
    · rw [Option.map_map, Option.map_map]
      congr 1
      funext g
      exact addTask_onEngine h.task [.letGo g, .finish .done]
    · rfl
  | answer ack answer =>
    have hacks : (gap.onEngine e).acks = e.acks := rfl
    simp only [onRequest, begin?, hacks]
    cases e.acks[ack]? with
    | none => rfl
    | some a =>
      dsimp only
      split
      · rfl
      · exact congrArg some (addTask_onEngine h.task [.answer ack answer, .finish .done])
  | serve writer lines =>
    have hfiles : (gap.onEngine e).files = gap.onStore e.files := rfl
    simp only [onRequest, begin?, hfiles, take?_onStore h.writer, Option.map_map]
    congr 1
    funext r
    exact addTask_onEngine (e := { e with files := r.1 }) h.task
      [.write writer r.2, .rest writer, .finish .done]

/-- A step past the gap is a step, moved past the gap. -/
theorem step?_onEngine (h : gap.Fits e) (op : Op) : (gap.onEngine e).step? (gap.onOp op) =
    (e.step? op).map fun r => (gap.onEngine r.1, r.2.map gap.onEffect) := by
  cases op with
  | «begin» request =>
    simp only [onOp, step?, begin?_onEngine h, Option.map_map]
    rfl
  | advance task => exact advance?_onEngine h task
  | created task result => exact created?_onEngine h task result
  | returned task panicked => exact returned?_onEngine h task panicked

theorem Fits.mono {e' : Engine} (h : gap.Fits e) (hmore : AtLeast e e') : gap.Fits e' where
  task := Nat.le_trans h.task hmore.tasks
  id := Nat.le_trans h.id hmore.ids
  transport := Nat.le_trans h.transport hmore.transports
  writer := Nat.le_trans h.writer hmore.writers

/-- An event with all its numbers moved past the gap. -/
def onEvent (gap : Gap) (ev : Event) : Event :=
  ⟨gap.onEngine ev.before, gap.onOp ev.op, gap.onEngine ev.after, ev.effects.map gap.onEffect⟩

/-- Nobody uses what was given up: the files that were opened for it get no lines. -/
def Idle (gap : Gap) : Prop := ∀ w ∈ gap.writers, w.queue = []

theorem exists_onTask {n : TaskId} (h : gap.Fits e) {a : Action} {rest : List Action}
    (hagenda : (gap.onEngine e).agendas[n]? = some (a :: rest)) : ∃ task, gap.onTask task = n := by
  rcases left_out_or_past gap.task 1 n with ⟨hle, hlt⟩ | hpast
  · obtain rfl : n = gap.task := Nat.le_antisymm (Nat.le_of_lt_succ hlt) hle
    have hfirst : gap.task ≤ (e.agendas.map (·.map gap.onAction)).length := by simpa using h.task
    have hgap := getElem?_spread_left_out [[]] hfirst Nat.one_pos
    have hnone : (gap.onEngine e).agendas[gap.task]? = some [] := hgap
    rw [hnone] at hagenda
    cases hagenda
  · exact hpast

theorem exists_onWriterId {w : WriterId} {n : Nat} (h : gap.Fits e) (hidle : gap.Idle)
    (htake : ((gap.onEngine e).files.take? w n).isSome = true) : ∃ w', gap.onWriterId w' = w := by
  rcases left_out_or_past gap.writer gap.writers.length w with ⟨hle, hlt⟩ | hpast
  · -- A writer in the gap has no lines, so no batch can be taken from it.
    obtain ⟨i, rfl⟩ := Nat.exists_eq_add_of_le hle
    have hi : i < gap.writers.length := Nat.lt_of_add_lt_add_left hlt
    have hget : (gap.onEngine e).files.writers[gap.writer + i]? = some gap.writers[i] :=
      (getElem?_spread_left_out _ h.writer hi).trans (List.getElem?_eq_getElem hi)
    have hnone : gap.writers[i].take? n = none := by
      have hqueue := hidle _ (List.getElem_mem hi)
      simp [File.Writer.take?, hqueue]
      omega
    simp [File.Store.take?, hget, hnone] at htake
  · exact hpast

/-- Whatever can be done past the gap is something with its numbers moved past the gap. -/
theorem exists_onOp (h : gap.Fits e) (hidle : gap.Idle) {op : Op} {r : Engine × List Effect}
    (hs : (gap.onEngine e).step? op = some r) : ∃ op', gap.onOp op' = op := by
  obtain ⟨e', fx⟩ := r
  rcases step_cases hs with ⟨request, rfl, hb, -⟩ | ⟨n, a, rest, m, hn, hagenda, -⟩
  · cases request with
    | serve writer lines =>
      obtain ⟨⟨files, batch⟩, htake, -⟩ := Option.map_eq_some_iff.mp hb
      obtain ⟨w, rfl⟩ := exists_onWriterId h hidle (by rw [htake]; rfl)
      exact ⟨.begin (.serve w lines), rfl⟩
    | call call => exact ⟨.begin (.call call), rfl⟩
    | reload config => exact ⟨.begin (.reload config), rfl⟩
    | shutdown => exact ⟨.begin .shutdown, rfl⟩
    | openChannel module shownAs => exact ⟨.begin (.openChannel module shownAs), rfl⟩
    | closeChannel channel => exact ⟨.begin (.closeChannel channel), rfl⟩
    | keep => exact ⟨.begin .keep, rfl⟩
    | leave => exact ⟨.begin .leave, rfl⟩
    | answer ack answer => exact ⟨.begin (.answer ack answer), rfl⟩
  · obtain ⟨task, rfl⟩ := exists_onTask h hagenda
    cases op with
    | «begin» => cases hn
    | advance =>
      obtain rfl := Option.some.inj hn
      exact ⟨.advance task, rfl⟩
    | created _ result =>
      obtain rfl := Option.some.inj hn
      exact ⟨.created task result, rfl⟩
    | returned _ panicked =>
      obtain rfl := Option.some.inj hn
      exact ⟨.returned task panicked, rfl⟩

/-- The runs past a gap are the runs there are without it, with their numbers moved past the gap. -/
theorem run_onEngine (h : gap.Fits e) (hb : Bounded e) (hidle : gap.Idle) {es' : List Event} {e' : Engine} :
    Run (gap.onEngine e) es' e' ↔ ∃ es e₁, Run e es e₁ ∧ es' = es.map gap.onEvent ∧ e' = gap.onEngine e₁ := by
  constructor
  · intro hr
    induction hr with
    | refl => exact ⟨[], e, .refl, rfl, rfl⟩
    | @step es' e₁' e₂' op' fx' hr' hs' ih =>
      obtain ⟨es, e₁, hr, rfl, rfl⟩ := ih
      have hmore := run_atLeast hb hr
      obtain ⟨op, rfl⟩ := exists_onOp (h.mono hmore) hidle hs'
      rw [step?_onEngine (h.mono hmore)] at hs'
      obtain ⟨⟨e₂, fx⟩, hs, heq⟩ := Option.map_eq_some_iff.mp hs'
      obtain ⟨rfl, rfl⟩ := Prod.mk.inj heq
      refine ⟨es ++ [⟨e₁, op, e₂, fx⟩], e₂, hr.step hs, ?_, rfl⟩
      rw [List.map_append]
      rfl
  · rintro ⟨es, e₁, hr, rfl, rfl⟩
    induction hr with
    | refl => exact .refl
    | @step es e₁ e₂ op fx hr hs ih =>
      have hmore := run_atLeast hb hr
      have hs' := step?_onEngine (h.mono hmore) op
      rw [hs] at hs'
      rw [List.map_append]
      exact ih.step hs'

end LogDispatch.Gap
