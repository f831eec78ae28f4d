import LogDispatch.Proofs.Lineage
import LogDispatch.Proofs.Sorted

/-! What a configuration is checked for. A generation that was built from one is well formed: what its fields
    refer to by name, place or rank is there (`Generation.Built.wellFormed`). -/

namespace LogDispatch

/-! ### What checks returned -/

section
variable {α β : Type}

/-- What a check found about an option that is given. -/
theorem of_whenGiven {check : α → Except ConfigFault β} {option : Option α} {result : Option β}
    (h : whenGiven check option = .ok result) : ∀ b ∈ result, ∃ a ∈ option, check a = .ok b := by
  intro b hb
  cases option with
  | none =>
    obtain rfl := Except.ok.inj h
    cases hb
  | some a =>
    obtain rfl := Option.mem_def.mp hb
    refine ⟨a, rfl, ?_⟩
    cases hcheck : check a with
    | error =>
      rw [whenGiven, hcheck] at h
      cases h
    | ok b' =>
      rw [whenGiven, hcheck] at h
      exact congrArg Except.ok (Option.some.inj (Except.ok.inj h))

end

/-! ### Levels and rules -/

theorem LevelTable.rank?_lt {t : LevelTable} {name : String} {rank : Nat} (h : t.rank? name = some rank) :
    rank < t.size := by
  obtain ⟨hlt, -⟩ := List.findIdx?_eq_some_iff_getElem.mp h
  exact hlt

theorem LevelTable.configRank_lt {t : LevelTable} {name : String} {rank : Nat} (h : t.configRank name = .ok rank) :
    rank < t.size := by
  unfold configRank at h
  split at h
  · rename_i hrank
    obtain rfl := Except.ok.inj h
    exact rank?_lt hrank
  · cases h

/-- The ranks that rules name are below a bound. -/
def RuleSet.Below (bound : Nat) (rules : RuleSet) : Prop :=
  ∀ rule ∈ rules, ∀ rank, rule.threshold = .rank rank → rank < bound

namespace RuleEntry
variable {table : LevelTable}

theorem threshold_ofPattern {pattern : String} {threshold : Threshold} {rule : Rule}
    (h : Rule.ofPattern pattern threshold = .ok rule) : rule.threshold = threshold := by
  unfold Rule.ofPattern at h
  split at h
  · cases h
  · obtain rfl := Except.ok.inj h
    rfl

theorem rules_below {entry : RuleEntry} {rules : RuleSet} (h : entry.rules table = .ok rules) :
    RuleSet.Below table.size rules := by
  intro rule hrule rank hrank
  cases entry with
  | pattern p =>
    cases hp : Rule.ofPattern (Text.trim p) .always with
    | error =>
      rw [RuleEntry.rules, hp] at h
      cases h
    | ok rule' =>
      rw [RuleEntry.rules, hp] at h
      obtain rfl := Except.ok.inj h
      rw [List.mem_singleton.mp hrule, threshold_ofPattern hp] at hrank
      cases hrank
  | levels byPattern =>
    obtain ⟨⟨p, level⟩, -, hp⟩ := mem_of_mapM_eq_ok h rule hrule
    dsimp only at hp
    split at hp
    · rename_i rank' hrank'
      rw [threshold_ofPattern hp] at hrank
      obtain rfl := Threshold.rank.inj hrank
      exact LevelTable.rank?_lt hrank'
    · cases hp

theorem rulesOf_below {option : String} {entries : Option (List RuleEntry)} {result : Option RuleSet}
    (h : rulesOf table option entries = .ok result) : ∀ rules ∈ result, rules.Below table.size := by
  intro rules hrules
  cases entries with
  | none =>
    obtain rfl := Except.ok.inj h
    cases hrules
  | some entries =>
    simp only [rulesOf] at h
    split at h
    · rename_i sets hsets
      obtain rfl := Except.ok.inj h
      obtain rfl := Option.mem_some_iff.mp hrules
      intro rule hrule
      obtain ⟨set, hset, hrule⟩ := List.mem_flatten.mp hrule
      obtain ⟨entry, -, hentry⟩ := mem_of_mapM_eq_ok hsets set hset
      exact rules_below hentry rule hrule
    · cases h

theorem getD_below {result : Option RuleSet} {bound : Nat} (h : ∀ rules ∈ result, rules.Below bound) :
    (result.getD []).Below bound := by
  cases result with
  | none => exact fun _ hrule => absurd hrule List.not_mem_nil
  | some rules => exact h rules rfl

end RuleEntry

/-! ### Languages -/

/-- The language has messages of its own, and does not follow another one. -/
def Catalog.Owns (c : Catalog) (language : String) : Prop :=
  ∃ messages, c.languages.get? language = some (.catalog messages)

namespace Catalog
variable {c : Catalog}

theorem owns_follow? {fuel : Nat} {seen : List String} {language owner : String}
    (h : c.follow? fuel seen language = some owner) : c.Owns owner := by
  induction fuel generalizing seen language with
  | zero => cases h
  | succ fuel ih =>
    unfold follow? at h
    split at h
    · cases h
    · split at h
      · cases h
      · rename_i messages hmessages
        obtain rfl := Option.some.inj h
        exact ⟨messages, hmessages⟩
      · exact ih h

theorem owns_require {language owner : String} (h : c.require language = .ok owner) : c.Owns owner := by
  unfold require at h
  split at h
  · rename_i hresolve
    obtain rfl := Except.ok.inj h
    exact owns_follow? hresolve
  · cases h

end Catalog

/-! ### Events -/

/-- Each event has formats, and they are known. -/
def Lists (known : String → Bool) (events : SortedDict (List String)) : Prop :=
  ∀ entry ∈ events.entries, entry.2 ≠ [] ∧ ∀ name ∈ entry.2, known name = true

theorem lists_eventFormats {known : String → Bool} {events : SortedDict Handlers}
    {lists : SortedDict (List String)} (h : eventFormats known events = .ok lists) : Lists known lists := by
  obtain ⟨entries, hentries, h⟩ := bind_eq_ok h
  obtain rfl := Except.ok.inj h
  intro entry hentry
  obtain ⟨⟨event, handlers⟩, -, hlist⟩ := mem_of_filterMapM_eq_ok hentries entry (SortedDict.mem_of_mem_ofList hentry)
  dsimp only at hlist
  split at hlist
  · cases hlist
  · rename_i hknown
    obtain ⟨hne, heq⟩ := Option.ite_none_left_eq_some.mp (Except.ok.inj hlist)
    obtain rfl := Option.some.inj heq
    refine ⟨by simpa using hne, fun name hname => ?_⟩
    simpa using List.find?_eq_none.mp hknown name hname

theorem Draft.lists_globalEvents {known : String → Bool} {config : Config} {events : SortedDict (List String)}
    (h : globalEvents config known = .ok events) : Lists known events := by
  unfold globalEvents at h
  split at h
  · exact lists_eventFormats h
  · obtain rfl := Except.ok.inj h
    by_cases hstart : known startFormat
    · rw [if_pos hstart]
      intro entry hentry
      obtain rfl | hentry := mem_insertSorted hentry
      · exact ⟨by simp, by simpa using hstart⟩
      · cases hentry
    · rw [if_neg hstart]
      exact fun _ hentry => absurd hentry List.not_mem_nil

/-! ### Names of routes -/

/-- The names of the routes in effect, in the order of the configuration. -/
def Config.titles (c : Config) : List String := (c.routes.getD [Config.defaultRoute]).map RouteSpec.title

namespace Config

theorem titled_eq_ok {alone : Bool} {index : Nat} {rs todo : List RouteSpec} (h : titled alone index rs = .ok todo) :
    todo.map RouteSpec.title = rs.map RouteSpec.title ∧ ∀ r ∈ todo, r.name.isSome = true := by
  induction rs generalizing index todo with
  | nil =>
    obtain rfl := Except.ok.inj h
    exact ⟨rfl, fun _ hr => absurd hr List.not_mem_nil⟩
  | cons r rs ih =>
    simp only [titled] at h
    split at h
    · cases h
    · obtain ⟨r', htitle, hname, h⟩ : ∃ r' : RouteSpec, r'.title = r.title ∧ r'.name.isSome = true ∧
          (titled alone (index + 1) rs >>= fun rest => pure (r' :: rest)) = .ok todo := by
        split at h
        · rename_i hname
          exact ⟨r, rfl, by rw [hname]; rfl, h⟩
        · rename_i hname
          split at h
          · exact ⟨{ r with name := some defaultRouteName }, by simp [RouteSpec.title, hname], rfl, h⟩
          · cases h
      obtain ⟨rest, hrest, h⟩ := bind_eq_ok h
      obtain rfl := Except.ok.inj h
      obtain ⟨htitles, hnames⟩ := ih hrest
      exact ⟨by rw [List.map_cons, List.map_cons, htitles, htitle], List.forall_mem_cons.mpr ⟨hname, hnames⟩⟩

theorem nodup_of_repeated? {seen : List (Option String)} {rs : List RouteSpec} (h : repeated? seen rs = none) :
    (rs.map (·.name)).Nodup ∧ ∀ r ∈ rs, r.name ∉ seen := by
  induction rs generalizing seen with
  | nil => exact ⟨.nil, fun _ hr => absurd hr List.not_mem_nil⟩
  | cons r rs ih =>
    unfold repeated? at h
    split at h
    · cases h
    · rename_i hr
      obtain ⟨hnodup, hrest⟩ := ih h
      refine ⟨List.nodup_cons.mpr ⟨fun hmem => ?_, hnodup⟩, List.forall_mem_cons.mpr ⟨hr, fun r' hr' hmem => ?_⟩⟩
      · obtain ⟨r', hr', heq⟩ := List.mem_map.mp hmem
        exact hrest r' hr' (heq ▸ List.mem_cons_self)
      · exact hrest r' hr' (List.mem_cons_of_mem _ hmem)

/-- The routes in effect have names of their own, those of the configuration. -/
theorem routesInEffect_eq_ok {c : Config} {todo : List RouteSpec} (h : c.routesInEffect = .ok todo) :
    todo.map RouteSpec.title = c.titles ∧ (todo.map RouteSpec.title).Nodup := by
  unfold routesInEffect at h
  split at h
  · rename_i hroutes
    obtain rfl := Except.ok.inj h
    exact ⟨by rw [titles, hroutes]; rfl, by simp⟩
  · cases h
  · rename_i rs _ hroutes
    obtain ⟨titled, htitled, h⟩ := bind_eq_ok h
    split at h
    · cases h
    · rename_i hrepeated
      obtain rfl := Except.ok.inj h
      obtain ⟨htitles, hnames⟩ := titled_eq_ok htitled
      refine ⟨by rw [htitles, titles, hroutes]; rfl, ?_⟩
      -- A title is the name of a route that has one.
      have hsome : titled.map (·.name) = (titled.map RouteSpec.title).map some := by
        rw [List.map_map]
        refine List.map_congr_left fun r hr => ?_
        obtain ⟨name, hname⟩ := Option.isSome_iff_exists.mp (hnames r hr)
        simp [RouteSpec.title, hname]
      have hnodup := (nodup_of_repeated? hrepeated).1
      rw [hsome] at hnodup
      exact List.Pairwise.of_map some (fun _ _ hne heq => hne (congrArg some heq)) hnodup

end Config

/-! ### Generations -/

/-- What the settings of a route refer to is there. -/
structure Route.WellFormed (g : Generation) (r : Route) : Prop where
  format : ∀ name ∈ r.format, g.formats.contains name = true
  lang : ∀ lang ∈ r.lang, g.catalog.Owns lang
  events : ∀ events ∈ r.events, Lists g.formats.contains events
  level : ∀ rank ∈ r.filter.level, rank < g.levels.size
  includes : ∀ rules ∈ r.filter.includes, rules.Below g.levels.size
  moreIncludes : RuleSet.Below g.levels.size r.filter.moreIncludes
  excludes : ∀ rules ∈ r.filter.excludes, rules.Below g.levels.size
  moreExcludes : RuleSet.Below g.levels.size r.filter.moreExcludes

/-- What the fields of a generation refer to is there. -/
structure Generation.WellFormed (g : Generation) : Prop where
  routes : ∀ r ∈ g.routes, r.WellFormed g
  tags : ∀ entry ∈ g.tags.entries, ∀ i ∈ entry.2, i < g.routes.length
  defaultFormat : g.formats.contains g.defaultFormat = true
  events : Lists g.formats.contains g.events
  lang : g.catalog.Owns g.lang
  floor : ∀ rank ∈ g.filter.floor, rank < g.levels.size
  includes : RuleSet.Below g.levels.size g.filter.includes
  excludes : RuleSet.Below g.levels.size g.filter.excludes

/-- A draft on the way from a configuration to a generation. -/
inductive Drafted (setup : Setup) (config : Config) : Draft → Prop
  | start {id : GenerationId} {d : Draft} : Draft.ofConfig setup id config = .ok d → Drafted setup config d
  | attach {d : Draft} {spec : RouteSpec} {todo : List RouteSpec} {plan : Draft.RoutePlan} (t : TransportId) :
      Drafted setup config d → d.todo = spec :: todo → d.plan spec = .ok plan →
      Drafted setup config ({ d with todo }.attach spec plan t)

/-- The generation that a draft of the configuration became with its last route. -/
inductive Generation.Built (setup : Setup) (config : Config) : Generation → Prop
  | intro {d : Draft} : Drafted setup config d → d.todo = [] → Built setup config d.generation

namespace Draft
variable {setup : Setup} {config : Config} {d : Draft}

theorem globalFilter_below {levels : LevelTable} {policies : NamePair} {floor : Option Nat} {filter : GlobalFilter}
    (h : globalFilter setup config levels policies floor = .ok filter) : filter.floor = floor ∧
      filter.includes.Below levels.size ∧ filter.excludes.Below levels.size := by
  unfold globalFilter at h
  split at h
  · obtain ⟨policy, -, h⟩ := bind_eq_ok h
    obtain ⟨includes, hincludes, h⟩ := bind_eq_ok h
    obtain ⟨excludes, hexcludes, h⟩ := bind_eq_ok h
    obtain rfl := Except.ok.inj h
    exact ⟨rfl, RuleEntry.getD_below (RuleEntry.rulesOf_below hincludes),
      RuleEntry.getD_below (RuleEntry.rulesOf_below hexcludes)⟩
  · obtain rfl := Except.ok.inj h
    exact ⟨rfl, fun _ hrule => absurd hrule List.not_mem_nil, fun _ hrule => absurd hrule List.not_mem_nil⟩

theorem requireFormat_eq_ok {known : String → Bool} {name name' : String} (h : requireFormat known name = .ok name') :
    known name' = true := by
  unfold requireFormat at h
  split at h
  · rename_i hknown
    rwa [← Except.ok.inj h]
  · cases h

theorem wellFormed_ofConfig {id : GenerationId} (h : ofConfig setup id config = .ok d) :
    d.generation.WellFormed := by
  unfold ofConfig at h
  obtain ⟨levels, -, h⟩ := bind_eq_ok h
  obtain ⟨roles, -, h⟩ := bind_eq_ok h
  obtain ⟨policies, -, h⟩ := bind_eq_ok h
  obtain ⟨catalog, -, h⟩ := bind_eq_ok h
  obtain ⟨requiredRole, -, h⟩ := bind_eq_ok h
  obtain ⟨floor, hfloor, h⟩ := bind_eq_ok h
  obtain ⟨lang, hlang, h⟩ := bind_eq_ok h
  obtain ⟨formats, -, h⟩ := bind_eq_ok h
  obtain ⟨defaultFormat, hformat, h⟩ := bind_eq_ok h
  obtain ⟨filter, hfilter, h⟩ := bind_eq_ok h
  obtain ⟨events, hevents, h⟩ := bind_eq_ok h
  obtain ⟨todo, -, h⟩ := bind_eq_ok h
  obtain rfl := Except.ok.inj h
  obtain ⟨hsame, hincludes, hexcludes⟩ := globalFilter_below (checked_eq_ok hfilter)
  refine ⟨fun _ hr => absurd hr List.not_mem_nil, fun _ ht => absurd ht List.not_mem_nil, ?_, ?_, ?_, ?_,
    hincludes, hexcludes⟩
  · exact requireFormat_eq_ok (checked_eq_ok hformat)
  · exact lists_globalEvents (checked_eq_ok hevents)
  · exact Catalog.owns_require (checked_eq_ok hlang)
  · intro rank hrank
    rw [hsame] at hrank
    obtain ⟨name, -, hname⟩ := of_whenGiven (checked_eq_ok hfloor) rank hrank
    exact LevelTable.configRank_lt hname

theorem wellFormed_plan {spec : RouteSpec} {p : RoutePlan} (h : d.plan spec = .ok p) (t : TransportId) :
    (⟨spec.title, p.filter, p.format, p.lang, p.events, spec.tags, t⟩ : Route).WellFormed d.generation := by
  unfold plan at h
  obtain ⟨level, hlevel, h⟩ := bind_eq_ok h
  obtain ⟨policy, -, h⟩ := bind_eq_ok h
  obtain ⟨includes, hincludes, h⟩ := bind_eq_ok h
  obtain ⟨moreIncludes, hmoreIncludes, h⟩ := bind_eq_ok h
  obtain ⟨excludes, hexcludes, h⟩ := bind_eq_ok h
  obtain ⟨moreExcludes, hmoreExcludes, h⟩ := bind_eq_ok h
  obtain ⟨format, hformat, h⟩ := bind_eq_ok h
  obtain ⟨lang, hlang, h⟩ := bind_eq_ok h
  obtain ⟨events, hevents, h⟩ := bind_eq_ok h
  obtain rfl := Except.ok.inj h
  refine ⟨fun name hname => ?_, fun l hl => ?_, fun ev hev => ?_, fun rank hrank => ?_,
    RuleEntry.rulesOf_below hincludes, RuleEntry.getD_below (RuleEntry.rulesOf_below hmoreIncludes),
    RuleEntry.rulesOf_below hexcludes, RuleEntry.getD_below (RuleEntry.rulesOf_below hmoreExcludes)⟩
  · obtain ⟨_, -, hknown⟩ := of_whenGiven hformat name hname
    exact requireFormat_eq_ok hknown
  · obtain ⟨_, -, howns⟩ := of_whenGiven hlang l hl
    exact Catalog.owns_require howns
  · obtain ⟨_, -, hlists⟩ := of_whenGiven hevents ev hev
    exact lists_eventFormats hlists
  · obtain ⟨_, -, hbelow⟩ := of_whenGiven hlevel rank hrank
    exact LevelTable.configRank_lt hbelow

theorem wellFormed_attach {spec : RouteSpec} {p : RoutePlan} (h : d.generation.WellFormed)
    (hplan : d.plan spec = .ok p) (t : TransportId) : (d.attach spec p t).generation.WellFormed where
  routes r hr := by
    rw [routes_attach] at hr
    rcases List.mem_append.mp hr with hr | hr
    · obtain ⟨hformat, hlang, hevents, hlevel, hi, hmi, he, hme⟩ := h.routes r hr
      exact ⟨hformat, hlang, hevents, hlevel, hi, hmi, he, hme⟩
    · obtain rfl := List.mem_singleton.mp hr
      obtain ⟨hformat, hlang, hevents, hlevel, hi, hmi, he, hme⟩ := wellFormed_plan hplan t
      exact ⟨hformat, hlang, hevents, hlevel, hi, hmi, he, hme⟩
  tags := by
    refine places_foldl_addPlace (by simp) (fun entry hentry i hi => ?_) spec.tags
    have := h.tags entry hentry i hi
    rw [routes_attach, List.length_append]
    omega
  defaultFormat := h.defaultFormat
  events := h.events
  lang := h.lang
  floor := h.floor
  includes := h.includes
  excludes := h.excludes

end Draft

section Built
variable {setup : Setup} {config : Config} {d : Draft} {g : Generation}

theorem Drafted.wellFormed (h : Drafted setup config d) : d.generation.WellFormed := by
  induction h with
  | start h => exact Draft.wellFormed_ofConfig h
  | attach t _ _ hplan ih => exact Draft.wellFormed_attach ih hplan t

/-- The routes made and those to be made are those of the configuration. -/
theorem Drafted.names (h : Drafted setup config d) :
    d.generation.routes.map (·.name) ++ d.todo.map RouteSpec.title = config.titles ∧ config.titles.Nodup := by
  induction h with
  | start h =>
    obtain ⟨htitles, hnodup⟩ := Config.routesInEffect_eq_ok (Draft.todo_ofConfig h)
    rw [(Draft.ofConfig_eq_ok h).2.2.1]
    exact ⟨htitles, htitles ▸ hnodup⟩
  | attach t _ htodo _ ih =>
    rw [htodo] at ih
    refine ⟨?_, ih.2⟩
    show _ ++ List.map RouteSpec.title _ = _
    simpa [Draft.attach] using ih.1

theorem Drafted.sound (h : Drafted setup config d) : d.generation.Sound setup := by
  induction h with
  | start h => exact Draft.sound_ofConfig h
  | attach t _ _ _ ih => exact Draft.sound_attach ih _ _ t

/-- A generation that was built is well formed, and its routes are those of the configuration, each under a name
    of its own. -/
theorem Generation.Built.wellFormed (h : g.Built setup config) :
    g.WellFormed ∧ g.routes.map (·.name) = config.titles ∧ (g.routes.map (·.name)).Nodup := by
  obtain ⟨hd, htodo⟩ := h
  obtain ⟨hnames, hnodup⟩ := hd.names
  rw [htodo, List.map_nil, List.append_nil] at hnames
  exact ⟨hd.wellFormed, hnames, hnames ▸ hnodup⟩

end Built

end LogDispatch
