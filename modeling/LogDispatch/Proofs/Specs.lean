import LogDispatch.Proofs.WellFormed
import Mathlib.Data.List.Forall2

/-! Routes as the configuration gives them. The routes of a generation follow the specs of its configuration one by
    one, and its formats and global events are those of the configuration (`Generation.Built.follows`,
    `Generation.Built.tables`); the places kept under a tag are those of the routes
    that list it, each as often as it lists it (`Generation.Built.tagged_eq`). -/

namespace LogDispatch

/-- The routes in effect, as the configuration gives them. -/
def Config.specs (c : Config) : List RouteSpec := c.routes.getD [Config.defaultRoute]

/-- The route takes its name, its tags and its events from the spec. -/
structure Route.Follows (known : String → Bool) (s : RouteSpec) (r : Route) : Prop where
  name : r.name = s.title
  tags : r.tags = s.tags
  events : whenGiven (eventFormats known) s.events = .ok r.events

section lists
variable {α β γ : Type} {xs : List α} {ys : List β}

theorem flatMap_zipIdx {f : α → Nat → List γ} {g : α → List γ} (h : ∀ i x, xs[i]? = some x → f x i = g x) :
    (xs.zipIdx.flatMap fun p => f p.1 p.2) = xs.flatMap g := by
  calc (xs.zipIdx.flatMap fun p => f p.1 p.2)
      = xs.zipIdx.flatMap fun p => g p.1 :=
        List.flatMap_congr fun p hp => h p.2 p.1 (List.mem_zipIdx_iff_getElem?.mp hp)
    _ = xs.flatMap g := by rw [← List.flatMap_map, List.zipIdx_map_fst]

theorem flatMap_eq_of_forall₂ {R : α → β → Prop} {f : α → List γ} {g : β → List γ} (h : List.Forall₂ R xs ys)
    (hfg : ∀ x y, R x y → f x = g y) : xs.flatMap f = ys.flatMap g := by
  induction h with
  | nil => rfl
  | cons hxy _ ih => rw [List.flatMap_cons, List.flatMap_cons, hfg _ _ hxy, ih]

end lists

/-! ### Specs -/

/-- The spec under the name that its route goes by. -/
def RouteSpec.entitled (s : RouteSpec) : RouteSpec := { s with name := some s.title }

namespace Config

theorem titled_eq_map {alone : Bool} {index : Nat} {rs todo : List RouteSpec} (h : titled alone index rs = .ok todo) :
    todo = rs.map RouteSpec.entitled := by
  induction rs generalizing index todo with
  | nil => exact (Except.ok.inj h).symm
  | cons r rs ih =>
    simp only [titled] at h
    split at h
    · cases h
    · obtain ⟨r', hr', h⟩ : ∃ r', r' = r.entitled ∧
          (titled alone (index + 1) rs >>= fun rest => pure (r' :: rest)) = .ok todo := by
        split at h
        · rename_i hname
          exact ⟨r, by rw [RouteSpec.entitled, RouteSpec.title, hname, Option.getD_some, ← hname], h⟩
        · rename_i hname
          split at h
          · exact ⟨_, by simp [RouteSpec.entitled, RouteSpec.title, hname], h⟩
          · cases h
      obtain ⟨rest, hrest, h⟩ := bind_eq_ok h
      obtain rfl := Except.ok.inj h
      rw [List.map_cons, ← ih hrest, hr']

theorem routesInEffect_eq_map {c : Config} {todo : List RouteSpec} (h : c.routesInEffect = .ok todo) :
    todo = c.specs.map RouteSpec.entitled := by
  unfold routesInEffect at h
  split at h
  · rename_i hroutes
    rw [specs, hroutes]
    exact titled_eq_map h
  · cases h
  · rename_i rs _ hroutes
    obtain ⟨todo', htitled, h⟩ := bind_eq_ok h
    split at h
    · cases h
    · obtain rfl := Except.ok.inj h
      rw [specs, hroutes]
      exact titled_eq_map htitled

end Config

/-! ### Places under tags -/

/-- A place is put under each tag as often as the tag is listed. -/
theorem getD_foldl_addPlace (index : Nat) (names : List String) (tag : String) (tags : Dict (List Nat)) :
    ((names.foldl (Draft.addPlace index) tags).get? tag).getD [] =
      (tags.get? tag).getD [] ++ List.replicate (names.count tag) index := by
  induction names generalizing tags with
  | nil => simp
  | cons name names ih =>
    have hadd : ((Draft.addPlace index tags name).get? tag).getD [] =
        (tags.get? tag).getD [] ++ if name = tag then [index] else [] := by
      rw [Draft.addPlace, Dict.get?_insert]
      by_cases h : tag = name
      · simp [h]
      · simp [h, Ne.symm h]
    rw [List.foldl_cons, ih, hadd, List.append_assoc]
    by_cases h : name = tag
    · simp [h, List.replicate_succ]
    · simp [h]

/-! ### Drafts -/

section
variable {setup : Setup} {config : Config} {d : Draft} {g : Generation}

/-- The formats and the global events are those of the configuration. -/
theorem Draft.tables_ofConfig {id : GenerationId} (h : ofConfig setup id config = .ok d) :
    formats setup config = .ok d.generation.formats ∧
      globalEvents config d.generation.formats.contains = .ok d.generation.events := by
  unfold ofConfig at h
  iterate 7 obtain ⟨_, -, h⟩ := bind_eq_ok h
  obtain ⟨formats, hformats, h⟩ := bind_eq_ok h
  iterate 2 obtain ⟨_, -, h⟩ := bind_eq_ok h
  obtain ⟨events, hevents, h⟩ := bind_eq_ok h
  obtain ⟨_, -, h⟩ := bind_eq_ok h
  obtain rfl := Except.ok.inj h
  exact ⟨hformats, checked_eq_ok hevents⟩

theorem Draft.events_plan {spec : RouteSpec} {p : RoutePlan} (h : d.plan spec = .ok p) :
    whenGiven (eventFormats d.generation.formats.contains) spec.events = .ok p.events := by
  unfold plan at h
  iterate 8 obtain ⟨_, -, h⟩ := bind_eq_ok h
  obtain ⟨events, hevents, h⟩ := bind_eq_ok h
  obtain rfl := Except.ok.inj h
  exact hevents

/-- The routes made so far follow the first of the specs; the others are still to be made. -/
theorem Drafted.follows (h : Drafted setup config d) :
    ∃ done todo, config.specs = done ++ todo ∧ d.todo = todo.map RouteSpec.entitled ∧
      List.Forall₂ (Route.Follows d.generation.formats.contains) done d.generation.routes := by
  induction h with
  | start h =>
    refine ⟨[], config.specs, rfl, Config.routesInEffect_eq_map (Draft.todo_ofConfig h), ?_⟩
    rw [(Draft.ofConfig_eq_ok h).2.2.1]
    exact .nil
  | @attach d spec rest plan t _ htodo hplan ih =>
    obtain ⟨done, todo, hspecs, hmap, hfollows⟩ := ih
    obtain ⟨s, todo, rfl, rfl, rfl⟩ := List.map_eq_cons_iff.mp (hmap.symm.trans htodo)
    refine ⟨done ++ [s], todo, by simp [hspecs], rfl, ?_⟩
    rw [Draft.routes_attach]
    exact List.rel_append hfollows (.cons ⟨rfl, rfl, Draft.events_plan hplan⟩ .nil)

theorem Drafted.tables (h : Drafted setup config d) : Draft.formats setup config = .ok d.generation.formats ∧
    Draft.globalEvents config d.generation.formats.contains = .ok d.generation.events := by
  induction h with
  | start h => exact Draft.tables_ofConfig h
  | attach _ _ _ _ ih => exact ih

/-- The places under a tag are those of the routes that list it. -/
theorem Drafted.tagged_eq (h : Drafted setup config d) (tag : String) : d.generation.tagged tag =
    d.generation.routes.zipIdx.flatMap fun (r, i) => List.replicate (r.tags.count tag) i := by
  induction h with
  | start h =>
    obtain ⟨-, -, hroutes, htags⟩ := Draft.ofConfig_eq_ok h
    rw [Generation.tagged, htags, hroutes]
    rfl
  | @attach d spec _ plan t _ _ _ ih =>
    rw [Draft.routes_attach, List.zipIdx_append, List.flatMap_append, ← ih]
    simpa [Generation.tagged, Draft.attach] using
      getD_foldl_addPlace d.generation.routes.length spec.tags tag d.generation.tags

namespace Generation.Built

/-- The routes of a generation follow the specs of its configuration, one by one and in order. -/
theorem follows (h : g.Built setup config) : List.Forall₂ (Route.Follows g.formats.contains) config.specs g.routes := by
  obtain ⟨hd, hnone⟩ := h
  obtain ⟨done, todo, hspecs, hmap, hfollows⟩ := hd.follows
  obtain rfl : todo = [] := List.map_eq_nil_iff.mp (hmap.symm.trans hnone)
  rw [hspecs, List.append_nil]
  exact hfollows

theorem tables (h : g.Built setup config) : Draft.formats setup config = .ok g.formats ∧
    Draft.globalEvents config g.formats.contains = .ok g.events := by
  obtain ⟨hd, -⟩ := h
  exact hd.tables

theorem tagged_eq (h : g.Built setup config) (tag : String) :
    g.tagged tag = g.routes.zipIdx.flatMap fun (r, i) => List.replicate (r.tags.count tag) i := by
  obtain ⟨hd, -⟩ := h
  exact hd.tagged_eq tag

end Generation.Built

end

end LogDispatch
