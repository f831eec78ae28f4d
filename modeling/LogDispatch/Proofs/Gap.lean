import LogDispatch.Proofs.Bounds

/-! Gaps in numbers. What was given up leaves numbers behind that nobody will use: those of a task, of
    generations, of transports and of writers. A state that has such a gap is another state with its numbers
    moved past the gap (`Gap.onEngine`). -/

namespace LogDispatch

/-! ### Numbers and places past a gap -/

/-- The number, with `count` others left out from `first` on. -/
def past (first count n : Nat) : Nat := if n < first then n else n + count

section past
variable {first count m n : Nat}

theorem past_of_lt (h : n < first) : past first count n = n := if_pos h

theorem past_of_le (h : first ≤ n) : past first count n = n + count := if_neg (Nat.not_lt_of_le h)

theorem past_lt : past first count m < past first count n ↔ m < n := by
  unfold past
  split <;> split <;> omega

@[simp] theorem past_inj : past first count m = past first count n ↔ m = n := by
  unfold past
  split <;> split <;> omega

/-- A number is left out or is one past the gap. -/
theorem left_out_or_past (first count n : Nat) : (first ≤ n ∧ n < first + count) ∨ ∃ m, past first count m = n := by
  by_cases hlt : n < first
  · exact .inr ⟨n, past_of_lt hlt⟩
  · by_cases hle : n < first + count
    · exact .inl ⟨Nat.le_of_not_lt hlt, hle⟩
    · refine .inr ⟨n - count, ?_⟩
      rw [past_of_le (by omega)]
      omega

theorem past_succ (h : first ≤ n) : past first count (n + 1) = past first count n + 1 := by
  rw [past_of_le h, past_of_le (Nat.le_succ_of_le h)]
  omega

end past

/-- Others put into a list, from place `first` on. -/
def spread {α : Type} (first : Nat) (others xs : List α) : List α := xs.take first ++ others ++ xs.drop first

section spread
variable {α : Type} {first : Nat} {others xs : List α}

theorem length_spread (others : List α) (h : first ≤ xs.length) :
    (spread first others xs).length = past first others.length xs.length := by
  rw [past_of_le h]
  simp [spread]
  omega

theorem getElem?_spread (h : first ≤ xs.length) (i : Nat) :
    (spread first others xs)[past first others.length i]? = xs[i]? := by
  have htake : (xs.take first).length = first := by simp [h]
  by_cases hi : i < first
  · rw [past_of_lt hi, spread, List.append_assoc, List.getElem?_append_left (by omega), List.getElem?_take_of_lt hi]
  · have hi : first ≤ i := Nat.le_of_not_lt hi
    rw [past_of_le hi, spread, List.getElem?_append_right (by simp; omega), List.getElem?_drop]
    congr 1
    simp
    omega

theorem getElem?_spread_left_out (others : List α) (h : first ≤ xs.length) {i : Nat} (hi : i < others.length) :
    (spread first others xs)[first + i]? = others[i]? := by
  have htake : (xs.take first).length = first := by simp [h]
  rw [spread, List.append_assoc, List.getElem?_append_right (by omega), htake, Nat.add_sub_cancel_left,
    List.getElem?_append_left hi]

theorem set_spread (others : List α) (h : first ≤ xs.length) (i : Nat) (x : α) :
    (spread first others xs).set (past first others.length i) x = spread first others (xs.set i x) := by
  have htake : (xs.take first).length = first := by simp [h]
  by_cases hi : i < first
  · rw [past_of_lt hi, spread, spread, List.append_assoc, List.set_append_left _ _ (by omega), List.take_set,
      List.drop_set_of_lt hi, List.append_assoc]
  · have hi : first ≤ i := Nat.le_of_not_lt hi
    have hplace : i + others.length - (xs.take first ++ others).length = i - first := by
      simp
      omega
    rw [past_of_le hi, spread, spread, List.set_append_right _ _ (by simp; omega), hplace, List.drop_set,
      if_neg (Nat.not_lt_of_le hi), List.take_set_of_le hi]

theorem spread_append (others : List α) (h : first ≤ xs.length) (ys : List α) :
    spread first others (xs ++ ys) = spread first others xs ++ ys := by
  rw [spread, spread, List.take_append_of_le_length h, List.drop_append_of_le_length h]
  simp only [List.append_assoc]

theorem spread_at_end (h : first = xs.length) : spread first others xs = xs ++ others := by
  rw [h, spread, List.take_length, List.drop_length, List.append_nil]

theorem any_spread (p : α → Bool) : (spread first others xs).any p = (others.any p || xs.any p) := by
  have hxs : xs.any p = ((xs.take first).any p || (xs.drop first).any p) := by
    rw [← List.any_append, List.take_append_drop]
  rw [hxs, spread, List.any_append, List.any_append]
  cases (xs.take first).any p <;> cases others.any p <;> rfl

end spread

/-- The dictionary with other values under its keys. -/
def Dict.mapValues {α β : Type} (f : α → β) (d : Dict α) : Dict β where
  entries := d.entries.map fun e => (e.1, f e.2)
  nodup := by
    rw [List.map_map]
    exact d.nodup

section mapValues
variable {α β : Type} (f : α → β) (d : Dict α)

theorem get?_mapValues (key : String) : (d.mapValues f).get? key = (d.get? key).map f := by
  simp only [Dict.get?, Dict.mapValues, List.find?_map, Option.map_map]
  rfl

theorem putEntry_map (key : String) (value : α) (es : List (String × α)) :
    putEntry key (f value) (es.map fun e => (e.1, f e.2)) = (putEntry key value es).map fun e => (e.1, f e.2) := by
  induction es with
  | nil => rfl
  | cons e es ih =>
    rw [List.map_cons, putEntry, putEntry]
    split
    · rfl
    · rw [ih, List.map_cons]

theorem mapValues_eq_self {f : α → α} {d : Dict α} (h : ∀ key value, d.get? key = some value → f value = value) :
    d.mapValues f = d := by
  refine Dict.ext_entries ?_
  conv_rhs => rw [← List.map_id d.entries]
  refine List.map_congr_left fun e he => ?_
  rw [h e.1 e.2 (Dict.get?_of_mem he), id_eq]

theorem insert_mapValues (key : String) (value : α) :
    (d.mapValues f).insert key (f value) = (d.insert key value).mapValues f :=
  Dict.ext_entries (putEntry_map f key value d.entries)

theorem erase_mapValues (key : String) : (d.mapValues f).erase key = (d.erase key).mapValues f := by
  refine Dict.ext_entries ?_
  simp only [Dict.erase, Dict.mapValues, List.filter_map]
  rfl

end mapValues

/-! ### Moving numbers past a gap -/

/-- Numbers that were given to what was given up. -/
structure Gap where
  task : TaskId
  /-- The first number of a generation that was used up, and how many were. -/
  id : GenerationId
  ids : Nat
  transport : TransportId
  transports : List Transport
  writer : WriterId
  writers : List File.Writer

namespace Gap
variable (gap : Gap)

def onTask (task : TaskId) : TaskId := past gap.task 1 task

def onId (id : GenerationId) : GenerationId := past gap.id gap.ids id

def onTransportId (t : TransportId) : TransportId := past gap.transport gap.transports.length t

def onWriterId (w : WriterId) : WriterId := past gap.writer gap.writers.length w

def onOutlet (o : File.Outlet) : File.Outlet := { o with writer := gap.onWriterId o.writer }

def onDevice : Device → Device
  | .console settings => .console settings
  | .file outlet => .file (gap.onOutlet outlet)
  | .custom kind => .custom kind

def onTransport (t : Transport) : Transport := { t with device := gap.onDevice t.device }

def onRoute (r : Route) : Route := { r with transport := gap.onTransportId r.transport }

def onGeneration (g : Generation) : Generation :=
  { g with id := gap.onId g.id, routes := g.routes.map gap.onRoute }

def onDraft (d : Draft) : Draft := { d with generation := gap.onGeneration d.generation }

def onTable (t : RouteLevels) : RouteLevels := { t with generation := gap.onId t.generation }

def onChannel (c : Channel) : Channel := { c with table := gap.onTable c.table }

def onAction : Action → Action
  | .screen call g => .screen call (gap.onGeneration g)
  | .select call g channel rank text => .select call (gap.onGeneration g) channel rank text
  | .refresh channel table => .refresh channel (gap.onTable table)
  | .accept g deliveries callback => .accept (gap.onGeneration g) deliveries callback
  | .fan g deliveries callback => .fan (gap.onGeneration g) deliveries callback
  | .attempt g fanOut delivery => .attempt (gap.onGeneration g) fanOut delivery
  | .send writer job => .send (gap.onWriterId writer) job
  | .letGo g => .letGo (gap.onGeneration g)
  | .free route transport => .free route (gap.onTransportId transport)
  | .make d isReload => .make (gap.onDraft d) isReload
  | .awaitCreate d spec plan isReload => .awaitCreate (gap.onDraft d) spec plan isReload
  | .install g => .install (gap.onGeneration g)
  | .recalcAll g => .recalcAll (gap.onGeneration g)
  | .recalc g channel => .recalc (gap.onGeneration g) channel
  | .write writer batch => .write (gap.onWriterId writer) batch
  | .rest writer => .rest (gap.onWriterId writer)
  | a => a

def onShared (shared : File.Shared) : File.Shared := { shared with writer := gap.onWriterId shared.writer }

def onStore (s : File.Store) : File.Store where
  disk := s.disk
  writers := spread gap.writer gap.writers s.writers
  tables := fun n => (s.tables n).mapValues gap.onShared

/-- The state with its numbers moved past the gap, and with what was given up in it. -/
def onEngine (e : Engine) : Engine where
  setup := e.setup
  files := gap.onStore e.files
  nextId := gap.onId e.nextId
  live := e.live.map gap.onGeneration
  released := e.released.map gap.onId
  handles := e.handles
  isClosed := e.isClosed
  metrics := e.metrics
  channels := e.channels.map gap.onChannel
  transports := spread gap.transport gap.transports (e.transports.map gap.onTransport)
  fanOuts := e.fanOuts
  acks := e.acks
  reloadLocked := e.reloadLocked
  channelsLocked := e.channelsLocked
  agendas := spread gap.task [[]] (e.agendas.map (·.map gap.onAction))

def onEffect : Effect → Effect
  | .create task spec context previous =>
    .create (gap.onTask task) spec context (previous.map gap.onTransportId)
  | .out task transport record ack => .out (gap.onTask task) (gap.onTransportId transport) record ack
  | .free task transport => .free (gap.onTask task) (gap.onTransportId transport)
  | .closing writer => .closing (gap.onWriterId writer)
  | .ended task outcome => .ended (gap.onTask task) outcome
  | .complete completion => .complete completion
  | .print stream line => .print stream line

def onRequest : Request → Request
  | .serve writer lines => .serve (gap.onWriterId writer) lines
  | request => request

def onOp : Op → Op
  | .begin request => .begin (gap.onRequest request)
  | .advance task => .advance (gap.onTask task)
  | .created task result => .created (gap.onTask task) result
  | .returned task panicked => .returned (gap.onTask task) panicked

def onMove (m : Move) : Move where
  engine := gap.onEngine m.engine
  next := m.next.map gap.onAction
  effects := m.effects.map gap.onEffect

/-- The gap is not above the numbers that have been given out. -/
structure Fits (e : Engine) : Prop where
  task : gap.task ≤ e.agendas.length
  id : gap.id ≤ e.nextId
  transport : gap.transport ≤ e.transports.length
  writer : gap.writer ≤ e.files.writers.length

@[simp] theorem onWriterId_inj {w w' : WriterId} : gap.onWriterId w = gap.onWriterId w' ↔ w = w' := past_inj

@[simp] theorem onId_inj {id id' : GenerationId} : gap.onId id = gap.onId id' ↔ id = id' := past_inj

theorem onId_beq {id id' : GenerationId} : (gap.onId id == gap.onId id') = (id == id') :=
  Bool.eq_iff_iff.mpr (by simp)

theorem onId_lt {id id' : GenerationId} : gap.onId id < gap.onId id' ↔ id < id' := past_lt

/-! ### Files -/

section store
variable {gap : Gap} {s : File.Store} (hw : gap.writer ≤ s.writers.length)
include hw

theorem getElem?_writers (w : WriterId) : (gap.onStore s).writers[gap.onWriterId w]? = s.writers[w]? :=
  getElem?_spread hw w

theorem setWriter_onStore (w : WriterId) (writer : File.Writer) :
    (gap.onStore s).setWriter (gap.onWriterId w) writer = gap.onStore (s.setWriter w writer) := by
  simp only [File.Store.setWriter, onStore, onWriterId, set_spread _ hw]

theorem addWriter_onStore (sink : File.Sink) (lock : Bool) : (gap.onStore s).addWriter sink lock =
    (gap.onStore (s.addWriter sink lock).1, gap.onWriterId (s.addWriter sink lock).2) := by
  simp only [File.Store.addWriter, onStore, onWriterId, spread_append _ hw, length_spread _ hw]

omit hw in
theorem setTable_onStore (n : Nat) (handles : File.Handles) :
    (gap.onStore s).setTable n (handles.mapValues gap.onShared) = gap.onStore (s.setTable n handles) := by
  simp only [File.Store.setTable, onStore, File.Store.mk.injEq, true_and]
  funext k
  split <;> rfl

theorem closeWriter_onStore (w : WriterId) :
    (gap.onStore s).closeWriter (gap.onWriterId w) = gap.onStore (s.closeWriter w) := by
  unfold File.Store.closeWriter
  rw [getElem?_writers hw]
  split
  · exact setWriter_onStore hw ..
  · rfl

theorem send_onStore (w : WriterId) (job : File.Job) :
    (gap.onStore s).send (gap.onWriterId w) job = gap.onStore (s.send w job) := by
  unfold File.Store.send
  rw [getElem?_writers hw]
  split
  · exact setWriter_onStore hw ..
  · rfl

theorem take?_onStore (w : WriterId) (n : Nat) :
    (gap.onStore s).take? (gap.onWriterId w) n = (s.take? w n).map fun r => (gap.onStore r.1, r.2) := by
  simp only [File.Store.take?, getElem?_writers hw]
  cases s.writers[w]? with
  | none => rfl
  | some writer =>
    simp only [Option.bind_eq_bind, Option.bind_some]
    cases writer.take? n with
    | none => rfl
    | some r => simp [setWriter_onStore hw]

theorem write_onStore (w : WriterId) (batch : List File.Job) : (gap.onStore s).write (gap.onWriterId w) batch =
    (gap.onStore (s.write w batch).1, (s.write w batch).2) := by
  simp only [File.Store.write, getElem?_writers hw]
  cases s.writers[w]? with
  | none => rfl
  | some writer =>
    have hdisk : (gap.onStore s).disk = s.disk := rfl
    dsimp only
    rw [hdisk]
    cases writer.sink.write s.disk batch with
    | error => rfl
    | ok r => exact congrArg (·, _) (setWriter_onStore (s := { s with disk := r.1 }) hw ..)

theorem rest_onStore (w : WriterId) : (gap.onStore s).rest (gap.onWriterId w) = gap.onStore (s.rest w) := by
  unfold File.Store.rest
  rw [getElem?_writers hw]
  split
  · exact setWriter_onStore hw ..
  · rfl

omit hw in
theorem get?_tables (n : Nat) (key : String) :
    ((gap.onStore s).tables n).get? key = ((s.tables n).get? key).map gap.onShared :=
  get?_mapValues ..

theorem release_onStore (o : File.Outlet) : (gap.onStore s).release (gap.onOutlet o) =
    (gap.onStore (s.release o).1, (s.release o).2.map gap.onWriterId) := by
  unfold File.Store.release
  cases hshare : o.share with
  | none => simp only [onOutlet, hshare, closeWriter_onStore hw, Option.map_some]
  | some share =>
    simp only [onOutlet, hshare, get?_tables]
    cases (s.tables share.table).get? share.key with
    | none => rfl
    | some shared =>
      have hinsert := insert_mapValues gap.onShared (s.tables share.table) share.key
        { shared with listeners := shared.listeners - 1 }
      have herase := erase_mapValues gap.onShared (s.tables share.table) share.key
      simp only [Option.map_some, onShared]
      split
      · exact congrArg (·, none) ((congrArg _ hinsert).trans (setTable_onStore ..))
      · have hclose := closeWriter_onStore (s := s.setTable share.table ((s.tables share.table).erase share.key)) hw
          shared.writer
        rw [← setTable_onStore, ← herase] at hclose
        exact congrArg (·, some _) hclose

theorem acquire_onStore (table : Nat) (path : File.Path) (options : File.Options) :
    (gap.onStore s).acquire table path options =
      (s.acquire table path options).map fun r => (gap.onStore r.1, gap.onOutlet r.2) := by
  unfold File.Store.acquire
  simp only [get?_tables]
  cases (s.tables table).get? path.key with
  | some shared =>
    have hinsert := insert_mapValues gap.onShared (s.tables table) path.key
      { shared with listeners := shared.listeners + 1 }
    exact congrArg (fun store => Except.ok (store, _)) ((congrArg _ hinsert).trans (setTable_onStore ..))
  | none =>
    have hdisk : (gap.onStore s).disk = s.disk := rfl
    simp only [Option.map_none, hdisk]
    cases s.disk.openFile path options.mode options.startsAnew with
    | error => rfl
    | ok r =>
      obtain ⟨disk, target⟩ := r
      have hadd : ({ gap.onStore s with disk } : File.Store).addWriter _ options.lock = _ :=
        addWriter_onStore (s := { s with disk }) hw (.stream target (if options.startsAnew then some 0 else none))
          options.lock
      have hinsert := insert_mapValues gap.onShared (s.tables table) path.key ⟨s.writers.length, 1⟩
      simp only [hadd]
      exact congrArg (fun store => Except.ok (store, _)) ((congrArg _ hinsert).trans (setTable_onStore ..))

theorem create_onStore (table : Nat) (path : File.Path) (options : File.Options) :
    (gap.onStore s).create table path options =
      (s.create table path options).map (·.map fun r => (gap.onStore r.1, gap.onOutlet r.2)) := by
  unfold File.Store.create
  split
  · exact congrArg Except.ok (acquire_onStore hw ..)
  · split
    · rfl
    · simp only [addWriter_onStore hw]
      rfl

end store

/-! ### Generations and channels -/

section generations
variable {gap : Gap} {g : Generation} {c : Channel} {d : Draft}

theorem route?_onGeneration (name : String) :
    (gap.onGeneration g).route? name = (g.route? name).map gap.onRoute := by
  simp only [Generation.route?, onGeneration, List.find?_map]
  rfl

theorem getElem?_routes (i : Nat) : (gap.onGeneration g).routes[i]? = g.routes[i]?.map gap.onRoute :=
  List.getElem?_map ..

theorem formatAt?_onGeneration (i : Nat) : (gap.onGeneration g).formatAt? i = g.formatAt? i := by
  simp only [Generation.formatAt?, getElem?_routes]
  cases g.routes[i]? <;> rfl

theorem bestRoute?_onGeneration (floor rank index : Nat) (routes : List Route) :
    (gap.onGeneration g).bestRoute? floor rank index (routes.map gap.onRoute) = g.bestRoute? floor rank index routes := by
  induction routes generalizing index with
  | nil => rfl
  | cons r rs ih =>
    simp only [List.map_cons, Generation.bestRoute?, ih]
    rfl

theorem flatRoute?_onGeneration (rank : Nat) : (gap.onGeneration g).flatRoute? rank = g.flatRoute? rank :=
  congrArg (Option.map _) (bestRoute?_onGeneration ..)

theorem logDeliveries_onGeneration (channel : Option Frame) (caller : List Frame) (rank : Nat) (text : String)
    (routes : List Nat) : (gap.onGeneration g).logDeliveries channel caller rank text routes =
      g.logDeliveries channel caller rank text routes := by
  simp only [Generation.logDeliveries, formatAt?_onGeneration]
  rfl

theorem tagDeliveries_onGeneration (channel : Option Frame) (caller : List Frame) (text : String)
    (tags : List String) : (gap.onGeneration g).tagDeliveries channel caller text tags =
      g.tagDeliveries channel caller text tags := by
  simp only [Generation.tagDeliveries, formatAt?_onGeneration]
  rfl

theorem eventDeliveries_onGeneration (caller : List Frame) (event : String) :
    (gap.onGeneration g).eventDeliveries caller event = g.eventDeliveries caller event := by
  simp only [Generation.eventDeliveries, onGeneration, List.zipIdx_map, List.flatMap_map]
  rfl

theorem compute_onGeneration (module : String) :
    RouteLevels.compute (gap.onGeneration g) module = gap.onTable (.compute g module) := by
  simp only [RouteLevels.compute, onTable, onGeneration, List.map_map]
  rfl

theorem tableFor?_onChannel : (gap.onChannel c).tableFor? (gap.onGeneration g) = (c.tableFor? g).map gap.onTable := by
  simp only [Channel.tableFor?, onChannel, onTable, onGeneration, onId_inj]
  split <;> rfl

theorem recalc_onChannel : (gap.onChannel c).recalc (gap.onGeneration g) = gap.onChannel (c.recalc g) := by
  simp only [Channel.recalc, onChannel, compute_onGeneration]

theorem refresh_onChannel (table : RouteLevels) :
    (gap.onChannel c).refresh (gap.onTable table) = gap.onChannel (c.refresh table) := by
  simp only [Channel.refresh, onChannel, onTable, onId_lt]
  split <;> rfl

theorem ofModule_onGeneration (module : String) (shownAs : Option String) :
    Channel.ofModule (gap.onGeneration g) module shownAs = gap.onChannel (.ofModule g module shownAs) := by
  simp only [Channel.ofModule, onChannel, compute_onGeneration]

theorem ofConfig_onId (setup : Setup) (id : GenerationId) (config : Config) :
    Draft.ofConfig setup (gap.onId id) config = (Draft.ofConfig setup id config).map gap.onDraft := by
  have map_bind : ∀ {α β γ : Type} (x : Except LogError α) (f : α → Except LogError β) (f' : β → γ),
      (x >>= f).map f' = x >>= fun a => (f a).map f' := by
    intro α β γ x f f'
    cases x <;> rfl
  unfold Draft.ofConfig
  simp only [map_bind]
  rfl

theorem attach_onDraft (spec : RouteSpec) (plan : Draft.RoutePlan) (t : TransportId) :
    (gap.onDraft d).attach spec plan (gap.onTransportId t) = gap.onDraft (d.attach spec plan t) := by
  simp only [Draft.attach, onDraft, onGeneration, List.map_append, List.length_map]
  rfl

end generations

/-! ### Gaps above all numbers -/

/-- The gap begins where the numbers of the state end. -/
structure After (gap : Gap) (e : Engine) : Prop where
  task : gap.task = e.agendas.length
  id : gap.id = e.nextId
  transport : gap.transport = e.transports.length
  writer : gap.writer = e.files.writers.length

section after
variable {gap : Gap} {e : Engine} {g : Generation} {a : Action} (h : gap.After e)
include h

theorem After.fits : gap.Fits e :=
  ⟨Nat.le_of_eq h.task, Nat.le_of_eq h.id, Nat.le_of_eq h.transport, Nat.le_of_eq h.writer⟩

theorem onId_of_lt {id : GenerationId} (hid : id < e.nextId) : gap.onId id = id := past_of_lt (h.id ▸ hid)

theorem onTransportId_of_lt {t : TransportId} (ht : t < e.transports.length) : gap.onTransportId t = t :=
  past_of_lt (h.transport ▸ ht)

theorem onWriterId_of_lt {w : WriterId} (hw : w < e.files.writers.length) : gap.onWriterId w = w :=
  past_of_lt (h.writer ▸ hw)

theorem onGeneration_of_below (hg : g.Below e) : gap.onGeneration g = g := by
  have hroutes : g.routes.map gap.onRoute = g.routes := by
    conv_rhs => rw [← List.map_id g.routes]
    refine List.map_congr_left fun r hr => ?_
    rw [onRoute, onTransportId_of_lt h (hg.transports r hr), id_eq]
  rw [onGeneration, onId_of_lt h hg.id, hroutes]

theorem onAction_of_below (ha : a.Below e) : gap.onAction a = a := by
  cases a with
  | refresh channel table => rw [onAction, onTable, onId_of_lt h ha]
  | free route t => rw [onAction, onTransportId_of_lt h ha]
  | send w job => rw [onAction, onWriterId_of_lt h ha]
  | write w batch => rw [onAction, onWriterId_of_lt h ha]
  | rest w => rw [onAction, onWriterId_of_lt h ha]
  | make d isReload => rw [onAction, onDraft, onGeneration_of_below h ha]
  | awaitCreate d spec plan isReload => rw [onAction, onDraft, onGeneration_of_below h ha]
  | screen | select | accept | fan | «attempt» | letGo | install | recalcAll | recalc =>
    rw [onAction, onGeneration_of_below h ha]
  | _ => rfl

theorem onTransport_of_below {t : Transport} (ht : t.Below e) : gap.onTransport t = t := by
  obtain ⟨device, isFreed⟩ := t
  cases device with
  | console | custom => rfl
  | file outlet =>
    have hw := onWriterId_of_lt h (ht outlet rfl)
    simp only [onTransport, onDevice, onOutlet, hw]

theorem onStore_of_sound (hs : e.files.Sound) :
    gap.onStore e.files = { e.files with writers := e.files.writers ++ gap.writers } := by
  have htables : (fun n => (e.files.tables n).mapValues gap.onShared) = e.files.tables := by
    funext n
    refine mapValues_eq_self fun key shared hget => ?_
    rw [onShared, onWriterId_of_lt h (hs n key shared hget).1]
  rw [onStore, htables, spread_at_end h.writer]

/-- What was there already keeps its numbers. -/
theorem onEngine_of_bounded (hb : Engine.Bounded e) : gap.onEngine e =
    { e with
      files := { e.files with writers := e.files.writers ++ gap.writers }
      nextId := e.nextId + gap.ids
      transports := e.transports ++ gap.transports
      agendas := e.agendas ++ [[]] } := by
  have map_eq_self : ∀ {α : Type} {f : α → α} {xs : List α}, (∀ x ∈ xs, f x = x) → xs.map f = xs := by
    intro α f xs hf
    conv_rhs => rw [← List.map_id xs]
    exact List.map_congr_left hf
  have hlive : e.live.map gap.onGeneration = e.live := by
    cases hlive : e.live with
    | none => rfl
    | some g => rw [Option.map_some, onGeneration_of_below h (hb.live g hlive)]
  have hreleased : e.released.map gap.onId = e.released := map_eq_self fun id hid => onId_of_lt h (hb.released id hid)
  have hchannels : e.channels.map gap.onChannel = e.channels := map_eq_self fun c hc => by
    obtain ⟨i, hi⟩ := List.getElem?_of_mem hc
    rw [onChannel, onTable, onId_of_lt h (hb.channels i c hi)]
  have htransports : e.transports.map gap.onTransport = e.transports :=
    map_eq_self fun t ht => onTransport_of_below h (hb.transports t ht)
  have hagendas : e.agendas.map (·.map gap.onAction) = e.agendas :=
    map_eq_self fun agenda hmem => map_eq_self fun a ha => onAction_of_below h (hb.agendas agenda hmem a ha)
  have hnext : gap.onId e.nextId = e.nextId + gap.ids := past_of_le (Nat.le_of_eq h.id)
  rw [onEngine, hlive, hreleased, hchannels, htransports, hagendas, hnext, onStore_of_sound h hb.files,
    spread_at_end h.transport, spread_at_end h.task]

end after

end Gap

end LogDispatch
