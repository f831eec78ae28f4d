import LogDispatch.Proofs.Frames
import LogDispatch.Proofs.Gap.Step
import LogDispatch.Proofs.Lending

/-! Attempts at a reload. While a generation is being built the engine is what it was, but for the transports made
    so far (`Stage`). If building fails they are released again, and what is left of the attempt is a gap in the
    numbers. -/

namespace LogDispatch

/-- The file of a transport. -/
def Transport.outlet? (t : Transport) : Option File.Outlet :=
  match t.device with
  | .file outlet => some outlet
  | _ => none

/-- One of the routes of the configuration streams to the file at this path, with these settings. -/
inductive Config.Streams (setup : Setup) (config : Config) (options : File.Options) (path : File.Path) : Prop
  | route {routes : List RouteSpec} {spec : RouteSpec} {table : Nat} {frame : Frame} :
      config.routesInEffect = .ok routes → spec ∈ routes → setup.transports.get? spec.kind = some (.file table) →
      File.Options.ofSpec spec = .ok options → options.stream = true → setup.Frames config frame →
      options.Locates setup frame path → Streams setup config options path

/-- The disk after files of streamed routes of a configuration have been opened. -/
inductive File.Disk.Opened (setup : Setup) (config : Config) (disk : Disk) : Disk → Prop
  | none : Opened setup config disk disk
  | opened {d d' : Disk} {options : Options} {path : Path} {target : Target} : Opened setup config disk d →
      config.Streams setup options path → d.openFile path options.mode options.startsAnew = .ok (d', target) →
      Opened setup config disk d'

/-- The files of the disk are as they were, but for those that streamed routes of the configuration write: such a file is
    there now, with what stood in it, or empty if it was opened anew. -/
theorem File.Disk.Opened.files {setup : Setup} {config : Config} {disk d : Disk} (h : Opened setup config disk d) :
    d.root = disk.root ∧ ∀ name, d.files.get? name = disk.files.get? name ∨ ∃ options path entry,
      config.Streams setup options path ∧ disk.find path = .ok (.file name) ∧ d.files.get? name = some entry ∧
      (entry.content = ((disk.files.get? name).map Entry.content).getD [] ∨
        (entry.content = [] ∧ options.startsAnew = true)) := by
  induction h with
  | none => exact ⟨rfl, fun _ => .inl rfl⟩
  | @opened d d' options path target _ hstreams hopen ih =>
    obtain ⟨hroot, hfiles⟩ := ih
    cases Disk.opens hopen with
    | device => exact ⟨hroot, hfiles⟩
    | @file key entry hfind hcontent =>
      refine ⟨hroot, fun name => ?_⟩
      dsimp only
      rw [Dict.get?_insert]
      split
      · rename_i hname
        subst hname
        have hfind : disk.find path = .ok (.file name) := Disk.find_of_root hroot.symm hfind
        right
        cases hanew : options.startsAnew with
        | true =>
          rw [hanew, if_pos rfl] at hcontent
          exact ⟨options, path, entry, hstreams, hfind, rfl, .inr ⟨hcontent, hanew⟩⟩
        | false =>
          rw [hanew, if_neg Bool.false_ne_true] at hcontent
          rcases hfiles name with hsame | ⟨options₀, path₀, entry₀, hstreams₀, hfind₀, hget, hkept⟩
          · exact ⟨options, path, entry, hstreams, hfind, rfl, .inl (hsame ▸ hcontent)⟩
          · have hcontent : entry.content = entry₀.content := by rw [hcontent, hget]; rfl
            exact ⟨options₀, path₀, entry, hstreams₀, hfind₀, rfl, hcontent ▸ hkept⟩
      · exact hfiles name

/-- The action is one of those that follow when a generation has been built. -/
def Action.isPublishing : Action → Bool
  | .install _ | .recalcAll _ | .recalc .. | .unlockChannels | .countReload | .letGo _ | .free .. | .awaitFree _
  | .unlockReload | .leave | .finish .done => true
  | _ => false

namespace Engine

/-- The engine while it is being reloaded: what there was is untouched, except for the files. -/
def reloading (e : Engine) (ids : Nat) (made : List Transport) (files : File.Store) (locked : Bool) (borrowed : Nat)
    (agenda : List Action) : Engine :=
  { e with
    files
    nextId := e.nextId + ids
    handles := e.handles + borrowed
    transports := e.transports ++ made
    reloadLocked := locked
    agendas := e.agendas ++ [agenda] }

/-- What a reload has taken: a number at most, and shares in files for the transports that are not released. -/
structure Taken (e : Engine) (config : Config) (ids : Nat) (left : List Transport) (files : File.Store) : Prop where
  unlocked : e.reloadLocked = false
  ids : ids ≤ 1
  lent : File.Store.Lent e.files files (left.filterMap Transport.outlet?)
  disk : File.Disk.Opened e.setup config e.files.disk files.disk

/-- How far a reload has come that has not succeeded, and how many of its transports it has released. -/
inductive Stage (e : Engine) (config : Config) : Nat → Engine → Prop
  | asked : Stage e config 0 (e.reloading 0 [] e.files e.reloadLocked 1 [.lockReload, .checkReload config])
  | ready {a : Action} : e.reloadLocked = false → a = .checkReload config ∨ a = .build config true →
      Stage e config 0 (e.reloading 0 [] e.files true 1 [a])
  | making {d : Draft} {a : Action} {made : List Transport} {files : File.Store} {routes : List RouteSpec} :
      a = .make d true ∨ (∃ spec plan, a = .awaitCreate d spec plan true) →
      config.routesInEffect = .ok routes → d.todo ⊆ routes → e.setup.Frames config d.generation.frame →
      d.generation.routes.map Route.transport = List.range' e.transports.length made.length →
      Taken e config 1 made files → Stage e config 0 (e.reloading 1 made files true 1 [a])
  | undoing {ids : Nat} {gone left : List Transport} {files : File.Store} {routes : List Route} {waits : List Action}
      {outcome : Outcome} : waits = [] ∨ (∃ route, waits = [.awaitFree route]) →
      routes.map Route.transport = List.range' (e.transports.length + gone.length) left.length →
      Taken e config ids left files →
      Stage e config gone.length
        (e.reloading ids (gone ++ left) files true 1 (waits ++ frees routes ++ building true outcome))
  | leaving {ids : Nat} {gone : List Transport} {files : File.Store} {outcome : Outcome} : Taken e config ids [] files →
      Stage e config gone.length (e.reloading ids gone files false 1 [.leave, .finish outcome])
  | ending {ids : Nat} {gone : List Transport} {files : File.Store} {outcome : Outcome} : Taken e config ids [] files →
      Stage e config gone.length (e.reloading ids gone files false 0 [.finish outcome])

section stage
variable {e e₁ e₂ : Engine} {config : Config} {ids borrowed n : Nat} {made gone left : List Transport}
  {files : File.Store} {locked : Bool} {a : Action} {rest agenda : List Action} {m : Move} {op : Op} {fx : List Effect}
  {outcome : Outcome} {d : Draft}

theorem reloading_setAgenda (agenda' : List Action) :
    (e.reloading ids made files locked borrowed agenda).setAgenda e.agendas.length agenda' =
      e.reloading ids made files locked borrowed agenda' := by
  simp [reloading, setAgenda]

theorem reloading_step (hs : (e.reloading ids made files locked borrowed (a :: rest)).step? op = some (e₂, fx))
    (htask : op.task? = some e.agendas.length) :
    ∃ m, Does (e.reloading ids made files locked borrowed rest) e.agendas.length a m ∧
      e₂ = m.engine.setAgenda e.agendas.length (m.next ++ rest) ∧ fx = m.effects := by
  rcases step_cases hs with ⟨request, rfl, -⟩ | ⟨task, a', rest', m, htask', hagenda, hdoes, heq, hfx⟩
  · cases htask
  · obtain rfl := Option.some.inj (htask'.symm.trans htask)
    have hlast : (e.agendas ++ [a :: rest])[e.agendas.length]? = some (a :: rest) := List.getElem?_concat_length
    obtain ⟨rfl, rfl⟩ := List.cons.inj (Option.some.inj (hlast.symm.trans hagenda))
    rw [reloading_setAgenda] at hdoes
    exact ⟨m, hdoes, heq, hfx⟩

theorem Stage.setAgenda (h : Stage e config n (e.reloading ids made files locked borrowed agenda))
    (heq : e₁ = e.reloading ids made files locked borrowed rest) :
    Stage e config n (e₁.setAgenda e.agendas.length agenda) := by
  rw [heq, reloading_setAgenda]
  exact h

/-- A task that has ended does nothing more. -/
theorem reloading_ended (hs : (e.reloading ids made files locked borrowed []).step? op = some (e₂, fx))
    (htask : op.task? = some e.agendas.length) : False := by
  rcases step_cases hs with ⟨request, rfl, -⟩ | ⟨task, a, rest, m, htask', hagenda, -⟩
  · cases htask
  · obtain rfl := Option.some.inj (htask'.symm.trans htask)
    have hlast : (e.agendas ++ [([] : List Action)])[e.agendas.length]? = some [] := List.getElem?_concat_length
    cases hlast.symm.trans hagenda

/-- A reload that is about to end has nothing left to do. -/
theorem Stage.of_finish (h : Stage e config n e₁)
    (hagenda : e₁.agendas[e.agendas.length]? = some (.finish outcome :: rest)) :
    ∃ ids gone files, Taken e config ids [] files ∧ n = gone.length ∧
      e₁ = e.reloading ids gone files false 0 [.finish outcome] := by
  have hlast : ∀ agenda : List Action, (e.agendas ++ [agenda])[e.agendas.length]? = some agenda :=
    fun _ => List.getElem?_concat_length
  cases h with
  | ending ht =>
    cases (hlast _).symm.trans hagenda
    exact ⟨_, _, _, ht, rfl, rfl⟩
  | ready _ ha =>
    cases (hlast _).symm.trans hagenda
    rcases ha with h | h <;> cases h
  | making ha =>
    cases (hlast _).symm.trans hagenda
    rcases ha with h | ⟨_, _, h⟩ <;> cases h
  | @undoing _ _ _ _ routes _ _ hwaits =>
    rcases hwaits with rfl | ⟨_, rfl⟩
    · cases routes <;> cases (hlast _).symm.trans hagenda
    · cases (hlast _).symm.trans hagenda
  | _ => cases (hlast _).symm.trans hagenda

/-- A reload that is given up has all its transports to release. -/
theorem Stage.abandoned {routes : List Route}
    (hroutes : routes.map Route.transport = List.range' e.transports.length left.length)
    (ht : Taken e config ids left files) :
    Stage e config 0 (e.reloading ids left files true 1 (frees routes ++ building true outcome)) := by
  have hstage : Stage e config ([] : List Transport).length
      (e.reloading ids ([] ++ left) files true 1 ([] ++ frees routes ++ building true outcome)) :=
    .undoing (.inl rfl) hroutes ht
  exact hstage

/-! ### Making and releasing -/

theorem Crafts.lent {setup : Setup} {base s s' : File.Store} {device : Device} (h : Crafts setup s d device s')
    (hl : File.Store.Lent base s (made.filterMap Transport.outlet?)) :
    File.Store.Lent base s' ((made ++ [({ device } : Transport)]).filterMap Transport.outlet?) := by
  rw [List.filterMap_append]
  cases h with
  | console | custom =>
    exact (List.append_nil _).symm ▸ hl
  | file _ _ _ _ hcreate => exact hl.create hcreate

theorem Crafts.opened {setup : Setup} {disk : File.Disk} {s s' : File.Store} {routes : List RouteSpec} {device : Device}
    (h : Crafts setup s d device s') (hroutes : config.routesInEffect = .ok routes) (htodo : d.todo ⊆ routes)
    (hframe : setup.Frames config d.generation.frame) (ho : File.Disk.Opened setup config disk s.disk) :
    File.Disk.Opened setup config disk s'.disk := by
  cases h with
  | console | custom => exact ho
  | file hspec hkind hoptions hpath hcreate =>
    rcases File.Store.disk_create hcreate with heq | ⟨hstream, target, hopen⟩
    · exact heq ▸ ho
    · exact ho.opened (.route hroutes (htodo hspec) hkind hoptions hstream hframe hpath) hopen

/-- A transport that is released gives its share back. -/
theorem does_free_reloading {t : Transport} {route : String} (hb : e.files.Sound)
    (hl : File.Store.Lent e.files files ((t :: left).filterMap Transport.outlet?))
    (h : Does (e.reloading ids (gone ++ t :: left) files true 1 rest) e.agendas.length
      (.free route (e.transports.length + gone.length)) m) :
    ∃ t' files' waits, m.engine = e.reloading ids (gone ++ [t'] ++ left) files' true 1 rest ∧ m.next = waits ∧
      (waits = [] ∨ ∃ route, waits = [.awaitFree route]) ∧ files'.disk = files.disk ∧
      File.Store.Lent e.files files' (left.filterMap Transport.outlet?) := by
  have hget : (e.reloading ids (gone ++ t :: left) files true 1 rest).transport? (e.transports.length + gone.length) =
      some t := by
    simp [transport?, reloading]
  have hset : ∀ t', (e.transports ++ (gone ++ t :: left)).set (e.transports.length + gone.length) t' =
      e.transports ++ (gone ++ [t'] ++ left) := by
    intro t'
    simp [List.set_append_right]
  cases h with
  | perform h =>
    obtain rfl := Option.some.inj h
    obtain ⟨device, isFreed⟩ := t
    simp only [Engine.free, hget]
    cases device with
    | console settings =>
      exact ⟨⟨.console settings, true⟩, files, [], by simp only [reloading, hset], rfl, .inl rfl, rfl, hl⟩
    | custom kind =>
      exact ⟨⟨.custom kind, true⟩, files, _, by simp only [reloading, hset], rfl, .inr ⟨route, rfl⟩, rfl, hl⟩
    | file outlet =>
      exact ⟨⟨.file { outlet with isReleased := true }, true⟩, (files.release outlet).1, [],
        by simp only [reloading, ← hset, List.set_set], rfl, .inl rfl, File.Store.disk_release, hl.release hb⟩

/-! ### How a reload comes to its end -/

/-- What comes of a reload: it has not succeeded yet, it has, or it is over and has not. -/
inductive Course (e : Engine) (config : Config) (es : List Event) (e' : Engine) : Prop
  | pending {n : Nat} : Stage e config n e' →
      (∀ t, releases t es = if e.transports.length ≤ t ∧ t < e.transports.length + n then 1 else 0) →
      Course e config es e'
  | publishing {agenda : List Action} : e'.agendas[e.agendas.length]? = some agenda →
      (∀ a ∈ agenda, a.isPublishing = true) → Course e config es e'
  | failed {ids : Nat} {gone : List Transport} {files : File.Store} : Taken e config ids [] files →
      e' = e.reloading ids gone files false 0 [] →
      (∀ t, releases t es = if e.transports.length ≤ t ∧ t < e.transports.length + gone.length then 1 else 0) →
      Course e config es e'

theorem publishing_next {next : List Action} (hn : Next e a next) (ha : a.isPublishing = true) :
    ∀ b ∈ next, b.isPublishing = true := by
  intro b hb
  have hfrees : ∀ routes, ∀ b ∈ frees routes, b.isPublishing = true := by
    intro routes b hb
    obtain ⟨r, -, rfl⟩ := List.mem_map.mp hb
    rfl
  cases hn with
  | nothing => cases hb
  | letGo => exact hfrees _ b hb
  | leave | awaitFree | install =>
    rw [List.mem_singleton.mp hb]
    rfl
  | recalcAll =>
    rcases List.mem_append.mp hb with hb | hb
    · obtain ⟨_, -, rfl⟩ := List.mem_map.mp hb
      rfl
    · rw [List.mem_singleton.mp hb]
      rfl
  | _ => cases ha

theorem publishing_building (g : Generation) : ∀ b ∈ publishing g true, b.isPublishing = true := by
  intro b hb
  simp [publishing, building] at hb
  rcases hb with rfl | rfl | rfl | rfl | rfl | rfl | rfl <;> rfl

/-- A step of a reload that makes its transports. -/
theorem making_step {routes : List RouteSpec} (ha : a = .make d true ∨ ∃ spec plan, a = .awaitCreate d spec plan true)
    (hroutes : config.routesInEffect = .ok routes) (htodo : d.todo ⊆ routes)
    (hframe : e.setup.Frames config d.generation.frame)
    (hmade : d.generation.routes.map Route.transport = List.range' e.transports.length made.length)
    (ht : Taken e config 1 made files) (hdoes : Does (e.reloading 1 made files true 1 []) e.agendas.length a m) :
    Stage e config 0 (m.engine.setAgenda e.agendas.length m.next) ∨
      ((m.engine.setAgenda e.agendas.length m.next).agendas[e.agendas.length]? = some m.next ∧
        ∀ b ∈ m.next, b.isPublishing = true) := by
  have hmakes : Makes (e.reloading 1 made files true 1 []) d true m.engine m.next := does_making hdoes ha
  generalize m.engine = e', m.next = next at hmakes ⊢
  cases hmakes with
  | publish =>
    refine .inr ⟨?_, publishing_building _⟩
    rw [reloading_setAgenda]
    exact List.getElem?_concat_length
  | abandon =>
    rw [reloading_setAgenda]
    exact .inl (Stage.abandoned hmade ht)
  | await =>
    rw [reloading_setAgenda]
    exact .inl (.making (.inr ⟨_, _, rfl⟩) hroutes htodo hframe hmade ht)
  | @attach spec plan device files' hcrafts =>
    have heq : ({ e.reloading 1 made files true 1 [] with
        files := files', transports := (e.reloading 1 made files true 1 []).transports ++ [({ device } : Transport)] } :
          Engine) = e.reloading 1 (made ++ [({ device } : Transport)]) files' true 1 [] := by
      simp [reloading]
    rw [heq, reloading_setAgenda]
    refine .inl (.making (.inl rfl) hroutes (fun spec hspec => htodo (List.drop_subset _ _ hspec)) hframe ?_
      ⟨ht.unlocked, ht.ids, hcrafts.lent ht.lent, hcrafts.opened hroutes htodo hframe ht.disk⟩)
    rw [Draft.routes_attach, List.map_append, hmade, List.length_append, List.length_singleton, List.range'_1_concat]
    simp [reloading]

/-- A step of a reload that releases its transports again. -/
theorem undoing_step (hb : e.files.Sound) {routes : List Route} (hroutes : routes.map Route.transport =
      List.range' (e.transports.length + gone.length) left.length) (ht : Taken e config ids left files)
    (hagenda : a :: rest = frees routes ++ building true outcome)
    (hdoes : Does (e.reloading ids (gone ++ left) files true 1 rest) e.agendas.length a m) :
    (Stage e config gone.length (m.engine.setAgenda e.agendas.length (m.next ++ rest)) ∧
        ∀ t, m.effects.countP (Effect.isFree t) = 0) ∨
      (Stage e config (gone.length + 1) (m.engine.setAgenda e.agendas.length (m.next ++ rest)) ∧
        ∀ t, m.effects.countP (Effect.isFree t) = if e.transports.length + gone.length = t then 1 else 0) := by
  cases routes with
  | nil =>
    obtain rfl : left = [] := by simpa using hroutes.symm
    obtain ⟨rfl, rfl⟩ := List.cons.inj hagenda
    refine .inl ⟨?_, fun t => hdoes.countP_isFree nofun⟩
    cases hdoes with
    | perform h =>
      obtain rfl := Option.some.inj h
      rw [List.append_nil]
      exact (Stage.leaving ht).setAgenda rfl
  | cons r routes =>
    obtain ⟨rfl, rfl⟩ := List.cons.inj hagenda
    cases left with
    | nil => cases hroutes
    | cons t left =>
      rw [List.map_cons, List.length_cons, List.range'_succ] at hroutes
      obtain ⟨hr, hroutes⟩ := List.cons.inj hroutes
      simp only [hr] at hdoes
      obtain ⟨t', files', waits, hengine, hnext, hwaits, hdisk, hlent⟩ := does_free_reloading hb ht.lent hdoes
      have hlength : gone.length + 1 = (gone ++ [t']).length := by simp
      refine .inr ⟨?_, fun t => (does_free hdoes).1⟩
      have hrest : routes.map Route.transport = List.range' (e.transports.length + (gone ++ [t']).length) left.length := by
        rw [hroutes, ← hlength]
        rfl
      have hstage : Stage e config _ (e.reloading _ _ _ _ _ (waits ++ frees routes ++ building true outcome)) :=
        .undoing hwaits hrest ⟨ht.unlocked, ht.ids, hlent, hdisk ▸ ht.disk⟩
      rw [List.append_assoc waits] at hstage
      rw [hlength, hnext]
      exact hstage.setAgenda hengine

theorem releases_concat (t : TransportId) (es : List Event) (ev : Event) :
    releases t (es ++ [ev]) = releases t es + ev.effects.countP (Effect.isFree t) := by
  simp [releases]

/-- A step of a reload that has not succeeded yet. -/
theorem Stage.step (hb : e.files.Sound) (hhandles : 0 < e.handles) (h : Stage e config n e₁)
    (hs : e₁.step? op = some (e₂, fx)) (htask : op.task? = some e.agendas.length) :
    (Stage e config n e₂ ∧ ∀ t, fx.countP (Effect.isFree t) = 0) ∨
    (Stage e config (n + 1) e₂ ∧
      ∀ t, fx.countP (Effect.isFree t) = if e.transports.length + n = t then 1 else 0) ∨
    (∃ agenda, e₂.agendas[e.agendas.length]? = some agenda ∧ ∀ a ∈ agenda, a.isPublishing = true) ∨
    (∃ ids gone files, Taken e config ids [] files ∧ n = gone.length ∧ e₂ = e.reloading ids gone files false 0 [] ∧
      ∀ t, fx.countP (Effect.isFree t) = 0) := by
  cases h with
  | asked =>
    obtain ⟨m, hdoes, rfl, rfl⟩ := reloading_step hs htask
    refine .inl ⟨?_, fun t => hdoes.countP_isFree nofun⟩
    cases hdoes with
    | perform h =>
      obtain ⟨hlocked, h⟩ := Option.ite_none_left_eq_some.mp h
      obtain rfl := Option.some.inj h
      exact (Stage.ready (e := e) (Bool.eq_false_iff.mpr hlocked) (.inl rfl)).setAgenda rfl
  | ready hunlocked ha =>
    obtain ⟨m, hdoes, rfl, rfl⟩ := reloading_step hs htask
    have hrefl := File.Store.Lent.refl e.files
    have hquiet : ∀ t, m.effects.countP (Effect.isFree t) = 0 := fun t => by
      rcases ha with rfl | rfl <;> exact hdoes.countP_isFree nofun
    have hnone : ([] : List Route).map Route.transport = List.range' e.transports.length ([] : List Transport).length := rfl
    have hrefused : ∀ ids error, ids ≤ 1 →
        Stage e config 0 (e.reloading ids [] e.files true 1 (building true (.failed error))) := fun ids error hids =>
      Stage.abandoned hnone ⟨hunlocked, hids, hrefl, .none⟩
    refine .inl ⟨?_, hquiet⟩
    rcases ha with rfl | rfl
    · cases hdoes with
      | perform h =>
        obtain rfl := Option.some.inj h
        dsimp only [Engine.checkReload]
        split
        · exact (hrefused 0 _ (Nat.zero_le _)).setAgenda rfl
        · split
          · exact (hrefused 0 _ (Nat.zero_le _)).setAgenda rfl
          · exact (Stage.ready hunlocked (.inr rfl)).setAgenda rfl
    · cases hdoes with
      | perform h =>
        obtain rfl := Option.some.inj h
        dsimp only [Engine.build]
        split
        · exact (hrefused 1 _ (Nat.le_refl _)).setAgenda rfl
        · rename_i d hd
          have hroutes := (Draft.ofConfig_eq_ok hd).2.2.1
          have hmade : d.generation.routes.map Route.transport =
              List.range' e.transports.length ([] : List Transport).length := by
            rw [hroutes]
            rfl
          have hframe : e.setup.Frames config d.generation.frame := Draft.frame_ofConfig hd
          exact (Stage.making (.inl rfl) (Draft.todo_ofConfig hd) (List.Subset.refl _) hframe hmade
            ⟨hunlocked, Nat.le_refl _, hrefl, .none⟩).setAgenda rfl
  | making ha hroutes htodo hframe hmade ht =>
    obtain ⟨m, hdoes, rfl, rfl⟩ := reloading_step hs htask
    rw [List.append_nil]
    rcases making_step ha hroutes htodo hframe hmade ht hdoes with hstage | ⟨hagenda, hpublishing⟩
    · refine .inl ⟨hstage, fun t => ?_⟩
      rcases ha with rfl | ⟨_, _, rfl⟩ <;> exact hdoes.countP_isFree nofun
    · exact .inr (.inr (.inl ⟨_, hagenda, hpublishing⟩))
  | @undoing ids gone left files routes waits outcome hwaits hroutes ht =>
    rcases hwaits with rfl | ⟨route, rfl⟩
    · obtain ⟨a, rest, hagenda⟩ : ∃ a rest, a :: rest = frees routes ++ building true outcome := by
        cases routes <;> exact ⟨_, _, rfl⟩
      rw [List.nil_append, ← hagenda] at hs
      obtain ⟨m, hdoes, rfl, rfl⟩ := reloading_step hs htask
      rcases undoing_step hb hroutes ht hagenda hdoes with hstage | hstage
      · exact .inl hstage
      · exact .inr (.inl hstage)
    · obtain ⟨m, hdoes, rfl, rfl⟩ := reloading_step hs htask
      refine .inl ⟨?_, fun t => hdoes.countP_isFree nofun⟩
      cases hdoes with
      | perform h => cases h
      | freed panicked => exact (Stage.undoing (.inl rfl) hroutes ht).setAgenda rfl
  | @leaving ids gone files outcome ht =>
    obtain ⟨m, hdoes, rfl, rfl⟩ := reloading_step hs htask
    refine .inl ⟨?_, fun t => hdoes.countP_isFree nofun⟩
    cases hdoes with
    | perform h =>
      obtain rfl := Option.some.inj h
      -- The handle that the reload borrowed is not the last one.
      have hmore : e.handles ≠ 0 := Nat.ne_of_gt hhandles
      have hleave : (e.reloading ids gone files false 1 [.finish outcome]).leave =
          { engine := e.reloading ids gone files false 0 [.finish outcome] } := by
        simp [Engine.leave, reloading, hmore]
      rw [hleave]
      exact (Stage.ending ht).setAgenda rfl
  | @ending ids gone files outcome ht =>
    obtain ⟨m, hdoes, rfl, rfl⟩ := reloading_step hs htask
    refine .inr (.inr (.inr ⟨ids, gone, files, ht, rfl, ?_, fun t => hdoes.countP_isFree nofun⟩))
    cases hdoes with
    | perform h =>
      obtain rfl := Option.some.inj h
      exact reloading_setAgenda _

theorem between_succ (first n t : Nat) :
    (if first ≤ t ∧ t < first + n then 1 else 0) + (if first + n = t then 1 else 0) =
      if first ≤ t ∧ t < first + (n + 1) then 1 else 0 := by
  split <;> split <;> split <;> omega

/-- A step of a reload is a step on its course. -/
theorem Course.step {es : List Event} (hb : e.files.Sound) (hhandles : 0 < e.handles) (h : Course e config es e₁)
    (hs : e₁.step? op = some (e₂, fx)) (htask : op.task? = some e.agendas.length) :
    Course e config (es ++ [⟨e₁, op, e₂, fx⟩]) e₂ := by
  cases h with
  | @pending n hstage hreleases =>
    rcases hstage.step hb hhandles hs htask with ⟨hstage, hquiet⟩ | ⟨hstage, hfree⟩ | ⟨agenda, hagenda, ha⟩ |
      ⟨ids, gone, files, ht, rfl, heq, hquiet⟩
    · refine .pending hstage fun t => ?_
      rw [releases_concat, hquiet, hreleases, Nat.add_zero]
    · refine .pending hstage fun t => ?_
      rw [releases_concat, hfree, hreleases, between_succ]
    · exact .publishing hagenda ha
    · refine .failed ht heq fun t => ?_
      rw [releases_concat, hquiet, hreleases, Nat.add_zero]
  | @publishing agenda hagenda ha =>
    rcases step_cases hs with ⟨request, rfl, -⟩ | ⟨task, a, rest, m, htask', hagenda', hdoes, rfl, -⟩
    · cases htask
    · obtain rfl := Option.some.inj (htask'.symm.trans htask)
      obtain rfl := Option.some.inj (hagenda.symm.trans hagenda')
      have hnext : (m.engine.setAgenda e.agendas.length (m.next ++ rest)).agendas[e.agendas.length]? =
          some (m.next ++ rest) := by
        rw [agendas_setAgenda, hdoes.agendas, agendas_setAgenda, List.set_set]
        exact List.getElem?_set_self (List.getElem?_eq_some_iff.mp hagenda').1
      refine .publishing hnext fun b hb => ?_
      · rcases List.mem_append.mp hb with hb | hb
        · exact publishing_next hdoes.next (ha a List.mem_cons_self) b hb
        · exact ha b (List.mem_cons_of_mem _ hb)
  | failed ht heq =>
    rw [heq] at hs
    exact (reloading_ended hs htask).elim

theorem Course.run {es es' : List Event} (hb : e.files.Sound) (hhandles : 0 < e.handles) (h : Course e config es e₁)
    (hr : Run e₁ es' e₂) (htask : ∀ ev ∈ es', ev.op.task? = some e.agendas.length) :
    Course e config (es ++ es') e₂ := by
  induction hr with
  | refl => exact (List.append_nil es).symm ▸ h
  | step _ hs ih =>
    rw [← List.append_assoc]
    exact (ih fun ev hev => htask ev (List.mem_append_left _ hev)).step hb hhandles hs
      (htask _ (List.mem_append_right _ List.mem_cons_self))

end stage

/-! ### Reloads that fail -/

/-- A reload from its beginning to its end, with nothing else done in the meantime. -/
structure Reloads (e : Engine) (config : Config) (es : List Event) (outcome : Outcome) (e' : Engine) : Prop where
  run : Run e es e'
  ops : ∃ ops, es.map Event.op = .begin (.reload config) :: ops ∧ ∀ op ∈ ops, op.task? = some e.nextTask
  ended : .ended e.nextTask outcome ∈ es.flatMap Event.effects

/-- The engine on another disk. -/
def onDisk (e : Engine) (disk : File.Disk) : Engine := { e with files := { e.files with disk } }

section reloads
variable {e e' : Engine} {config : Config} {es : List Event} {outcome : Outcome}

theorem Run.eq_of_nil (h : Run e [] e') : e' = e := by
  generalize hnil : ([] : List Event) = es at h
  cases h with
  | refl => rfl
  | step => simp at hnil

/-- A run that is not empty begins with a step. -/
theorem Run.uncons {ev : Event} (h : Run e (ev :: es) e') :
    ev.before = e ∧ e.step? ev.op = some (ev.after, ev.effects) ∧ Run ev.after es e' := by
  rw [← List.nil_append (ev :: es)] at h
  obtain ⟨hstart, hs, hrest⟩ := Run.split h
  have heq := hstart.eq_of_nil
  exact ⟨heq, heq ▸ hs, hrest⟩

/-- A reload begins with its course. -/
theorem course_begin (hs : e.begin? (.reload config) = some e') :
    0 < e.handles ∧ Course e config [⟨e, .begin (.reload config), e', []⟩] e' := by
  obtain ⟨hhandles, hs⟩ := Option.ite_none_right_eq_some.mp hs
  obtain rfl := Option.some.inj hs
  have heq : e.borrow.addTask [.lockReload, .checkReload config] =
      e.reloading 0 [] e.files e.reloadLocked 1 [.lockReload, .checkReload config] := by
    simp [reloading, addTask, borrow]
  rw [heq]
  refine ⟨hhandles, .pending .asked fun t => ?_⟩
  have hnone : ¬(e.transports.length ≤ t ∧ t < e.transports.length) := fun h => Nat.not_le_of_lt h.2 h.1
  exact (if_neg hnone).symm

/-- A reload that fails is over in the event in which it ends. -/
theorem Course.failed_of_ended {e₁ e₂ : Engine} {op : Op} {fx : List Effect} (h : Course e config es e₁)
    (hs : e₁.step? op = some (e₂, fx)) (htask : op.task? = some e.agendas.length)
    (hended : .ended e.agendas.length outcome ∈ fx) (hfail : outcome ≠ .done) :
    ∃ ids gone files, Taken e config ids [] files ∧ e₂ = e.reloading ids gone files false 0 [] ∧
      ∀ t, releases t (es ++ [⟨e₁, op, e₂, fx⟩]) =
        if e.transports.length ≤ t ∧ t < e.transports.length + gone.length then 1 else 0 := by
  rcases step_cases hs with ⟨request, rfl, -⟩ | ⟨task, a, rest, m, htask', hagenda, hdoes, -, hfx⟩
  · cases htask
  obtain rfl := Option.some.inj (htask'.symm.trans htask)
  rw [hfx] at hended
  obtain rfl : a = .finish outcome := hdoes.isOf hended
  cases h with
  | publishing hagenda' ha =>
    obtain rfl := Option.some.inj (hagenda'.symm.trans hagenda)
    have hdone := ha _ List.mem_cons_self
    cases outcome with
    | done => exact absurd rfl hfail
    | _ => cases hdone
  | failed _ heq =>
    rw [heq] at hs
    exact (reloading_ended hs htask).elim
  | pending hstage hreleases =>
    obtain ⟨ids, gone, files, ht, rfl, rfl⟩ := hstage.of_finish hagenda
    obtain ⟨m', hdoes', rfl, -⟩ := reloading_step hs htask
    refine ⟨ids, gone, files, ht, ?_, fun t => ?_⟩
    · cases hdoes' with
      | perform h =>
        obtain rfl := Option.some.inj h
        exact reloading_setAgenda _
    · rw [releases_concat, hfx, hdoes.countP_isFree nofun, hreleases, Nat.add_zero]

/-- A reload that has failed is over. -/
theorem Reloads.end_of_failed (h : Reloads e config es outcome e') (hfail : outcome ≠ .done) (hb : e.files.Sound) :
    ∃ ids gone files, Taken e config ids [] files ∧ e' = e.reloading ids gone files false 0 [] ∧
      ∀ t, releases t es = if e.transports.length ≤ t ∧ t < e.transports.length + gone.length then 1 else 0 := by
  obtain ⟨ops, hops, htask⟩ := h.ops
  obtain ⟨first, es, rfl, hfirst, rfl⟩ := List.map_eq_cons_iff.mp hops
  obtain ⟨hbefore, hs, hrest⟩ := Run.uncons h.run
  rw [hfirst] at hs
  obtain ⟨_, hbegin, heq⟩ := Option.map_eq_some_iff.mp hs
  obtain ⟨rfl, hquiet⟩ := Prod.mk.inj heq
  obtain ⟨hhandles, hcourse⟩ := course_begin hbegin
  have hevent : (⟨e, .begin (.reload config), first.after, []⟩ : Event) = first := by
    rw [← hbefore, ← hfirst, hquiet]
  rw [hevent] at hcourse
  have hown : ∀ ev ∈ es, ev.op.task? = some e.agendas.length := fun ev hev => htask _ (List.mem_map_of_mem hev)
  -- The event in which the reload ends is the last one.
  obtain ⟨ev, hev, hended⟩ := List.mem_flatMap.mp h.ended
  rcases List.mem_cons.mp hev with rfl | hev
  · rw [← hquiet] at hended
    exact absurd hended List.not_mem_nil
  obtain ⟨before, after, rfl⟩ := List.append_of_mem hev
  obtain ⟨hbefore, hstep, hrest⟩ := Run.split hrest
  have hcourse := hcourse.run hb hhandles hbefore fun ev' hev' => hown ev' (List.mem_append_left _ hev')
  obtain ⟨ids, gone, files, ht, hend, hreleases⟩ := hcourse.failed_of_ended hstep (hown ev hev) hended hfail
  cases after with
  | nil =>
    rw [hend] at hrest
    exact ⟨ids, gone, files, ht, hrest.eq_of_nil, hreleases⟩
  | cons ev' after =>
    obtain ⟨-, hstep', -⟩ := Run.uncons hrest
    rw [hend] at hstep'
    exact (reloading_ended hstep' (hown ev' (by simp))).elim

theorem Bounded.onDisk (h : Bounded e) (disk : File.Disk) : Bounded (e.onDisk disk) := by
  have hmore : AtLeast e (e.onDisk disk) := ⟨Nat.le_refl _, Nat.le_refl _, Nat.le_refl _, Nat.le_refl _⟩
  exact ⟨fun agenda hmem a ha => hmore.action (h.agendas agenda hmem a ha), fun g hg => hmore.generation (h.live g hg),
    h.released, h.channels, fun t ht => hmore.transport (h.transports t ht), h.files⟩

/-- What is left of a reload that took numbers and gave all shares back is a gap in the numbers. -/
theorem Taken.exists_gap {ids : Nat} {gone : List Transport} {files : File.Store} (ht : Taken e config ids [] files)
    (hb : Bounded e) : ∃ gap : Gap, gap.After e ∧ gap.ids ≤ 1 ∧ gap.Idle ∧
      e.reloading ids gone files false 0 [] = gap.onEngine (e.onDisk files.disk) := by
  obtain ⟨more, hmore, hidle⟩ := ht.lent.writers
  obtain ⟨disk, writers, tables⟩ := files
  obtain rfl : writers = e.files.writers ++ more := hmore
  obtain rfl : tables = e.files.tables := ht.lent.restored
  let gap : Gap := ⟨e.agendas.length, e.nextId, ids, e.transports.length, gone, e.files.writers.length, more⟩
  have hafter : gap.After (e.onDisk disk) := ⟨rfl, rfl, rfl, rfl⟩
  refine ⟨gap, ⟨rfl, rfl, rfl, rfl⟩, ht.ids, hidle, ?_⟩
  rw [Gap.onEngine_of_bounded hafter (hb.onDisk _), reloading, ← ht.unlocked]
  rfl

/-- A reload that fails leaves the live generation and all else that calls go by as it was. The transports made for it
    are released, once and for all. Whatever happens afterwards is what would have happened if the reload had never
    been attempted, on the disk as it left it, but for numbers that are passed over. -/
theorem failed_reload_leaves_gap {setup : Setup} {files : File.Store} {config₀ : Config} {es₀ : List Event}
    (hfiles : files.Sound) (h : Run (start setup files config₀) es₀ e) (hr : Reloads e config es outcome e')
    (hfail : outcome ≠ .done) :
    (e'.live = e.live ∧ e'.channels = e.channels ∧ e'.metrics = e.metrics ∧ e'.isClosed = e.isClosed ∧
      e'.released = e.released ∧ ∀ t < e.transports.length, e'.transports[t]? = e.transports[t]?) ∧
    (∀ t < e.transports.length, releases t es = 0) ∧
    (∀ es' e'', Run e' es' e'' →
      ∀ t, e.transports.length ≤ t → t < e'.transports.length → releases t (es ++ es') = 1) ∧
    File.Disk.Opened setup config e.files.disk e'.files.disk ∧
    ∃ gap : Gap, gap.After e ∧ gap.ids ≤ 1 ∧ ∀ es' e'',
      Run e' es' e'' ↔ ∃ es₁ e₁, Run (e.onDisk e'.files.disk) es₁ e₁ ∧ es' = es₁.map gap.onEvent ∧
        e'' = gap.onEngine e₁ := by
  have hb : Bounded e := (Bounded.start setup config₀ hfiles).run h
  obtain ⟨ids, gone, files', ht, rfl, hreleases⟩ := hr.end_of_failed hfail hb.files
  obtain ⟨gap, hafter, hids, hidle, heq⟩ := ht.exists_gap hb
  have hsetup : e.setup = setup := h.setup
  have hlength : (e.reloading ids gone files' false 0 []).transports.length = e.transports.length + gone.length :=
    List.length_append
  have hdisk : gap.After (e.onDisk files'.disk) := ⟨hafter.task, hafter.id, hafter.transport, hafter.writer⟩
  refine ⟨⟨rfl, rfl, rfl, rfl, rfl, fun t hlt => List.getElem?_append_left hlt⟩, fun t hlt => ?_,
    fun es' e'' hlater t hle hlt => ?_, hsetup ▸ ht.disk, gap, hafter, hids, fun es' e'' => ?_⟩
  · rw [hreleases, if_neg fun hmade => Nat.not_le_of_lt hlt hmade.1]
  · have hone : releases t es = 1 := by rw [hreleases, if_pos ⟨hle, hlength ▸ hlt⟩]
    have hatmost := releases_le_one ((h.trans hr.run).trans hlater) t
    rw [releases_append, releases_append] at hatmost
    rw [releases_append]
    omega
  · rw [heq]
    exact Gap.run_onEngine hdisk.fits (hb.onDisk _) hidle

theorem reloads_history {ops : List Op} (hrun : (e.run? (.begin (.reload config) :: ops)).isSome = true)
    (htask : ∀ op ∈ ops, op.task? = some e.nextTask)
    (hended : .ended e.nextTask outcome ∈ (e.history (.begin (.reload config) :: ops)).flatMap Event.effects) :
    Reloads e config (e.history (.begin (.reload config) :: ops)) outcome
      (e.after (.begin (.reload config) :: ops)) where
  run := run_history _ _ hrun
  ops := ⟨ops, map_op_history _ _ hrun, htask⟩
  ended := hended

end reloads

/-- A route to a file in a directory that is not there. -/
def writing : Config :=
  { routes := some [((RouteSpec.ofTransport "a" "file").withTag "t").withOption "file_name"
      (.string "/logs/x/app.log")] }

def underway : Engine := (plain false [] writing).after (List.replicate 6 (.advance 0))

/-- A streamed file in the place of that directory, and a transport that nobody makes. -/
def occupying : Config :=
  { routes := some [((RouteSpec.ofTransport "b" "file").withOption "file_name" (.string "/logs/x")).withOption "stream"
      (.bool true), RouteSpec.ofTransport "c" "nope"] }

def untilRefused : List Op := .begin (.reload occupying) :: List.replicate 9 (.advance 1)

def refused : Engine := underway.after untilRefused

theorem underway_refused : ∃ error, Reloads underway occupying (underway.history untilRefused) (.failed error) refused := by
  have hstate : (underway.run? untilRefused).isSome = true ∧ underway.nextTask = 1 ∧
      ((underway.history untilRefused).flatMap Event.effects).any (fun
        | .ended task (.failed _) => task == 1
        | _ => false) = true := by decide +kernel
  obtain ⟨hrun, htask, hended⟩ := hstate
  obtain ⟨fx, hfx, hfailed⟩ := List.any_eq_true.mp hended
  split at hfailed
  · rename_i task error
    obtain rfl : task = underway.nextTask := by rw [htask, beq_iff_eq.mp hfailed]
    refine ⟨error, reloads_history hrun (fun op hop => ?_) hfx⟩
    rw [htask, List.eq_of_mem_replicate hop]
    rfl
  · cases hfailed

/-- The live route stays, and the streamed file is released. -/
theorem refused_reload_leaves_gap : ∃ es error, Reloads underway occupying es (.failed error) refused ∧
    underway.live.isSome = true ∧ refused.live = underway.live ∧ releases 0 es = 0 ∧ releases 1 es = 1 ∧
    ∃ gap : Gap, gap.After underway ∧ gap.ids ≤ 1 ∧ ∀ es' e'', Run refused es' e'' ↔
      ∃ es₁ e₁, Run (underway.onDisk refused.files.disk) es₁ e₁ ∧ es' = es₁.map gap.onEvent ∧ e'' = gap.onEngine e₁ := by
  have hstate : ((plain false [] writing).run? (List.replicate 6 (.advance 0))).isSome = true ∧
      underway.live.isSome = true ∧ underway.transports.length = 1 ∧ refused.transports.length = 2 := by decide +kernel
  obtain ⟨hrun, hlive, hbefore, hafter⟩ := hstate
  obtain ⟨error, hreload⟩ := underway_refused
  have hfiles : ({ disk := { root := ⟨"/logs"⟩ } } : File.Store).Sound := fun _ _ _ h => by cases h
  have hbuilt : Run (plain false [] writing) _ underway := run_history _ _ hrun
  obtain ⟨⟨hkept, -⟩, hold, hnew, -, hgap⟩ := failed_reload_leaves_gap hfiles hbuilt hreload nofun
  have hone := hnew [] refused .refl 1 (by rw [hbefore]) (by rw [hafter]; exact Nat.lt_succ_self 1)
  rw [List.append_nil] at hone
  exact ⟨_, error, hreload, hlive, hkept, hold 0 (by rw [hbefore]; exact Nat.one_pos), hone, hgap⟩

/-- A call to the live route, whose line is written. -/
def lateCall (task : TaskId) : List Op :=
  [.begin (.call { subject := .tags ["t"] (.text "up"), callback := some 7 })] ++ List.replicate 6 (.advance task) ++
    [.begin (.serve 0 1)] ++ List.replicate 6 (.advance (task + 1))

/-- The failures of single routes that callbacks are told of. -/
def heard (e : Engine) (ops : List Op) : List String :=
  ((e.history ops).flatMap Event.effects).filterMap fun
    | .complete ⟨_, .error (.transport _ message)⟩ => some message
    | _ => none

/-- A reload that fails may leave something behind: the file that it opened for a streamed route is in the way of the
    live route. -/
theorem failed_reload_heard_later : (∃ es, Run (plain false [] writing) es underway) ∧
    (∃ es error, Reloads underway occupying es (.failed error) refused) ∧
    underway.heard (lateCall 1) = ["No such file or directory (os error 2)"] ∧
    refused.heard (lateCall 2) = ["Not a directory (os error 20)"] := by
  have hstate : ((plain false [] writing).run? (List.replicate 6 (.advance 0))).isSome = true ∧
      underway.heard (lateCall 1) = ["No such file or directory (os error 2)"] ∧
      refused.heard (lateCall 2) = ["Not a directory (os error 20)"] := by decide +kernel
  obtain ⟨hrun, hbefore, hafter⟩ := hstate
  obtain ⟨error, hreload⟩ := underway_refused
  exact ⟨⟨_, run_history _ _ hrun⟩, ⟨_, error, hreload⟩, hbefore, hafter⟩

end Engine

end LogDispatch
