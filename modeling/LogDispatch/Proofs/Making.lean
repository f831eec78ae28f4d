import LogDispatch.Proofs.Run

/-! Making the transports of a draft. Each step publishes the draft or gives it up, waits for the host, or adds one
    transport (`Makes`). The file of a transport is where the settings of its route say (`File.Options.Locates`). -/

namespace LogDispatch

theorem checked_eq_ok {α : Type} {x : Except ConfigFault α} {a : α} (h : checked x = .ok a) : x = .ok a := by
  cases x with
  | error => cases h
  | ok => exact congrArg Except.ok (Except.ok.inj h)

/-- The path is what the template for the role of the process gives with these process variables. -/
def File.Options.Locates (o : File.Options) (setup : Setup) (frame : Frame) (path : File.Path) : Prop :=
  ∃ template, Template.compile (o.nameFor setup.role) setup.formatters = .ok template ∧
    template.render ⟨[frame]⟩ = .ok path.text

theorem Context.render_eq_ok {c : Context} {source text : String} (h : c.render source = .ok (.ok text)) :
    ∃ template, Template.compile source c.formatters = .ok template ∧ template.render c.scope = .ok text := by
  unfold render at h
  split at h
  · cases h
  · rename_i template hcompile
    refine ⟨template, hcompile, ?_⟩
    cases hrender : template.render c.scope with
    | error =>
      rw [hrender] at h
      cases h
    | ok text' =>
      rw [hrender] at h
      exact congrArg Except.ok (Except.ok.inj (Except.ok.inj h))

theorem Device.makeFile_eq_ok {c : Context} {s files : File.Store} {table : Nat} {spec : RouteSpec} {device : Device}
    (h : makeFile c s table spec = .ok (.ok (files, device))) : ∃ options path outlet,
      File.Options.ofSpec spec = .ok options ∧ c.render (options.nameFor c.role) = .ok (.ok path.text) ∧
      s.create table path options = .ok (.ok (files, outlet)) ∧ device = .file outlet := by
  unfold makeFile at h
  split at h
  · cases h
  · rename_i options hoptions
    split at h
    · cases h
    · cases h
    · rename_i path hpath
      rcases hcreate : s.create table ⟨path⟩ options with panic | error | ⟨files', outlet⟩ <;> rw [hcreate] at h
      · cases h
      · cases h
      · obtain ⟨rfl, rfl⟩ := Prod.mk.inj (Except.ok.inj (Except.ok.inj h))
        exact ⟨options, ⟨path⟩, outlet, checked_eq_ok hoptions, hpath, hcreate, rfl⟩

namespace Engine

section making
variable {e : Engine} {task : TaskId} {m : Move} {d : Draft} {isReload : Bool}

/-- A device that is made for one of the routes of a draft, and the files after that. -/
inductive Crafts (setup : Setup) (s : File.Store) (d : Draft) : Device → File.Store → Prop
  | console (settings : Console.Settings) : Crafts setup s d (.console settings) s
  | custom (kind : String) : Crafts setup s d (.custom kind) s
  | file {spec : RouteSpec} {table : Nat} {path : File.Path} {options : File.Options} {outlet : File.Outlet}
      {s' : File.Store} : spec ∈ d.todo → setup.transports.get? spec.kind = some (.file table) →
      File.Options.ofSpec spec = .ok options → options.Locates setup d.generation.frame path →
      s.create table path options = .ok (.ok (s', outlet)) → Crafts setup s d (.file outlet) s'

/-- What comes of a draft: it is published or given up, or it waits for the host, or it has one more transport. -/
inductive Makes (e : Engine) (d : Draft) (isReload : Bool) : Engine → List Action → Prop
  | publish : d.todo = [] → Makes e d isReload e (publishing d.generation isReload)
  | abandon {outcome : Outcome} : outcome ≠ .done → Makes e d isReload e (abandon d isReload outcome)
  | await {spec : RouteSpec} {plan : Draft.RoutePlan} :
      Makes e d isReload e [.awaitCreate d spec plan isReload]
  | attach {spec : RouteSpec} {plan : Draft.RoutePlan} {device : Device} {files : File.Store} :
      Crafts e.setup e.files d device files →
      Makes e d isReload { e with files, transports := e.transports ++ [{ device }] }
        [.make ({ d with todo := d.todo.drop 1 }.attach spec plan e.transports.length) isReload]

theorem makes_made {spec : RouteSpec} {plan : Draft.RoutePlan} {result : Making Device} {files : File.Store}
    (hfiles : ∀ device, result = .ok (.ok device) → Crafts e.setup e.files d device files)
    (hsame : (∀ device, result ≠ .ok (.ok device)) → files = e.files) :
    Makes e d isReload (({ e with files } : Engine).made d spec plan isReload result).engine
      (({ e with files } : Engine).made d spec plan isReload result).next := by
  rcases result with panic | error | device
  · obtain rfl := hsame nofun
    exact .abandon nofun
  · obtain rfl := hsame nofun
    exact .abandon nofun
  · exact .attach (hfiles device rfl)

theorem crafts_makeConsole {context : Context} {spec : RouteSpec} {device : Device}
    (h : Device.makeConsole context spec = .ok (.ok device)) : Crafts e.setup e.files d device e.files := by
  obtain ⟨settings, -, rfl⟩ : ∃ settings, _ ∧ Device.console settings = device := by
    have h := Except.ok.inj h
    cases hsettings : checked (Console.Settings.ofSpec context.levels spec) with
    | error =>
      rw [hsettings] at h
      cases h
    | ok settings =>
      rw [hsettings] at h
      exact ⟨settings, trivial, Except.ok.inj h⟩
  exact .console settings

theorem crafts_makeFile {files : File.Store} {table : Nat} {spec : RouteSpec} {device : Device} (hspec : spec ∈ d.todo)
    (hkind : e.setup.transports.get? spec.kind = some (.file table))
    (h : Device.makeFile (e.context d) e.files table spec = .ok (.ok (files, device))) :
    Crafts e.setup e.files d device files := by
  obtain ⟨options, path, outlet, hoptions, hpath, hcreate, rfl⟩ := Device.makeFile_eq_ok h
  exact .file hspec hkind hoptions (Context.render_eq_ok hpath) hcreate

theorem makes_make (h : Does e task (.make d isReload) m) : Makes e d isReload m.engine m.next := by
  cases h with
  | perform h =>
    obtain rfl := Option.some.inj h
    unfold Engine.make
    split
    · rename_i htodo
      exact .publish htodo
    · rename_i spec todo htodo
      have hspec : spec ∈ d.todo := by simp [htodo]
      split
      · exact .abandon nofun
      · unfold makeRoute
        split
        · exact .abandon nofun
        · exact makes_made (fun _ => crafts_makeConsole) fun _ => rfl
        · rename_i table hkind
          split
          · exact .abandon nofun
          · exact .abandon nofun
          · rename_i files device hfile
            refine makes_made (fun device' hdevice => ?_) fun hnone => absurd rfl (hnone device)
            obtain rfl := Except.ok.inj (Except.ok.inj hdevice)
            exact crafts_makeFile hspec hkind hfile
        · exact .await

theorem makes_awaitCreate {spec : RouteSpec} {plan : Draft.RoutePlan}
    (h : Does e task (.awaitCreate d spec plan isReload) m) : Makes e d isReload m.engine m.next := by
  cases h with
  | perform h => cases h
  | created result =>
    refine makes_made (fun device hdevice => ?_) fun _ => rfl
    rcases result with _ | _ | kind
    · cases hdevice
    · cases hdevice
    · obtain rfl := Except.ok.inj (Except.ok.inj hdevice)
      exact .custom kind

/-- What comes of a draft, when its next transport is begun or the host has tried to make it. -/
theorem does_making {a : Action} (h : Does e task a m)
    (ha : a = .make d isReload ∨ ∃ spec plan, a = .awaitCreate d spec plan isReload) :
    Makes e d isReload m.engine m.next := by
  rcases ha with rfl | ⟨spec, plan, rfl⟩
  · exact makes_make h
  · exact makes_awaitCreate h

end making

end Engine

end LogDispatch
