import LogDispatch.Proofs.Agenda
import LogDispatch.Proofs.Dict
import LogDispatch.Proofs.Making
import LogDispatch.Proofs.Outcomes

/-! Where generations come from. A draft gets a number above those of all generations before it, and becomes the
    live one under the lock of reloads. Hence the numbers of the generations a run has known increase, and every
    table of a channel was worked out from one of them (`Lineage`). -/

namespace LogDispatch

/-- The generation that an event makes the live one. -/
def Event.installed? (ev : Event) : Option Generation :=
  match ev.action? with
  | some (.install g) => some g
  | _ => none

/-- The generations that became the live one, in order. -/
def installs (es : List Event) : List Generation := es.filterMap Event.installed?

theorem installs_append (es es' : List Event) : installs (es ++ es') = installs es ++ installs es' :=
  List.filterMap_append

theorem installs_singleton (ev : Event) : installs [ev] = ev.installed?.toList := by
  cases h : ev.installed? <;> simp [installs, h]

/-! ### Drafts -/

/-- A generation that fits its engine: channels are in use in both or in neither, and tags name routes. -/
structure Generation.Sound (g : Generation) (setup : Setup) : Prop where
  channelMode : g.channelMode = setup.modules
  tags : ∀ entry ∈ g.tags.entries, ∀ i ∈ entry.2, i < g.routes.length

namespace Draft
variable {setup : Setup} {d : Draft}

theorem ofConfig_eq_ok {id : GenerationId} {config : Config} (h : ofConfig setup id config = .ok d) :
    d.generation.id = id ∧ d.generation.channelMode = setup.modules ∧ d.generation.routes = [] ∧
      d.generation.tags = .empty := by
  unfold ofConfig at h
  iterate 12 obtain ⟨_, -, h⟩ := bind_eq_ok h
  cases h
  exact ⟨rfl, rfl, rfl, rfl⟩

theorem todo_ofConfig {id : GenerationId} {config : Config} (h : ofConfig setup id config = .ok d) :
    config.routesInEffect = .ok d.todo := by
  unfold ofConfig at h
  iterate 11 obtain ⟨_, -, h⟩ := bind_eq_ok h
  obtain ⟨todo, htodo, h⟩ := bind_eq_ok h
  cases h
  exact checked_eq_ok htodo

theorem sound_ofConfig {id : GenerationId} {config : Config} (h : ofConfig setup id config = .ok d) :
    d.generation.Sound setup := by
  obtain ⟨-, hmode, -, htags⟩ := ofConfig_eq_ok h
  refine ⟨hmode, fun entry he => ?_⟩
  rw [htags] at he
  cases he

@[simp] theorem routes_attach (spec : RouteSpec) (p : RoutePlan) (t : TransportId) :
    (d.attach spec p t).generation.routes =
      d.generation.routes ++ [⟨spec.title, p.filter, p.format, p.lang, p.events, spec.tags, t⟩] := rfl

@[simp] theorem id_attach (spec : RouteSpec) (p : RoutePlan) (t : TransportId) :
    (d.attach spec p t).generation.id = d.generation.id := rfl

/-- The places under the tags stay below a bound when places below it are added. -/
theorem places_foldl_addPlace {index bound : Nat} (hindex : index < bound) {tags : Dict (List Nat)}
    (htags : ∀ entry ∈ tags.entries, ∀ i ∈ entry.2, i < bound) (names : List String) :
    ∀ entry ∈ (names.foldl (addPlace index) tags).entries, ∀ i ∈ entry.2, i < bound := by
  induction names generalizing tags with
  | nil => exact htags
  | cons name names ih =>
    refine ih fun entry he i hi => ?_
    rcases mem_putEntry he with rfl | he
    · rcases List.mem_append.mp hi with hi | hi
      · cases hget : tags.get? name with
        | none =>
          rw [hget] at hi
          cases hi
        | some places =>
          rw [hget] at hi
          exact htags _ (Dict.mem_of_get? hget) i hi
      · rw [List.mem_singleton.mp hi]
        exact hindex
    · exact htags entry he i hi

theorem sound_attach (h : d.generation.Sound setup) (spec : RouteSpec) (p : RoutePlan) (t : TransportId) :
    (d.attach spec p t).generation.Sound setup := by
  refine ⟨h.channelMode, places_foldl_addPlace ?_ (fun entry he i hi => ?_) spec.tags⟩
  · simp
  · have := h.tags entry he i hi
    rw [routes_attach, List.length_append]
    omega

end Draft

/-! ### Deliveries -/

namespace Generation
variable {g : Generation} {setup : Setup}

theorem bestRoute?_lt {floor rank index : Nat} {routes : List Route} {i l : Nat}
    (h : g.bestRoute? floor rank index routes = some (i, l)) : i < index + routes.length := by
  induction routes generalizing index i l with
  | nil => cases h
  | cons r rs ih =>
    unfold bestRoute? at h
    split at h
    · rename_i hbest
      have hlt := ih hbest
      rw [List.length_cons]
      dsimp only at h
      split at h <;> obtain ⟨rfl, rfl⟩ := Prod.mk.inj (Option.some.inj h) <;> omega
    · dsimp only at h
      split at h
      · obtain ⟨rfl, rfl⟩ := Prod.mk.inj (Option.some.inj h)
        simp
      · cases h

theorem flatRoute?_lt {rank i : Nat} (h : g.flatRoute? rank = some i) : i < g.routes.length := by
  obtain ⟨⟨j, l⟩, hbest, rfl⟩ := Option.map_eq_some_iff.mp h
  simpa using bestRoute?_lt hbest

theorem logDeliveries_lt {channel : Option Frame} {caller : List Frame} {rank : Nat} {text : String}
    {routes : List Nat} (h : ∀ i ∈ routes, i < g.routes.length) :
    ∀ d ∈ g.logDeliveries channel caller rank text routes, d.route < g.routes.length := by
  intro d hd
  obtain ⟨i, hi, rfl⟩ := List.mem_map.mp hd
  exact h i hi

theorem tagDeliveries_lt (hg : g.Sound setup) {channel : Option Frame} {caller : List Frame} {text : String}
    {tags : List String} : ∀ d ∈ g.tagDeliveries channel caller text tags, d.route < g.routes.length := by
  intro d hd
  obtain ⟨tag, -, hd⟩ := List.mem_flatMap.mp hd
  obtain ⟨i, hi, rfl⟩ := List.mem_map.mp hd
  unfold tagged at hi
  cases hget : g.tags.get? tag with
  | none =>
    rw [hget] at hi
    cases hi
  | some places =>
    rw [hget] at hi
    exact hg.tags _ (Dict.mem_of_get? hget) i hi

theorem eventDeliveries_lt {caller : List Frame} {event : String} :
    ∀ d ∈ g.eventDeliveries caller event, d.route < g.routes.length := by
  intro d hd
  obtain ⟨⟨r, i⟩, hr, hd⟩ := List.mem_flatMap.mp hd
  obtain ⟨name, -, hd⟩ := List.mem_filterMap.mp hd
  obtain ⟨format, -, rfl⟩ := Option.map_eq_some_iff.mp hd
  exact (List.getElem?_eq_some_iff.mp (List.mem_zipIdx_iff_getElem?.mp hr)).1

end Generation

/-- A table chooses among the routes it was worked out for. -/
theorem RouteLevels.select_compute_lt {g : Generation} {module : String} {rank i : Nat}
    (h : i ∈ (compute g module).select rank) : i < g.routes.length := by
  obtain ⟨⟨threshold, j⟩, hj, hi⟩ := List.mem_filterMap.mp h
  obtain ⟨-, hi⟩ := Option.ite_none_right_eq_some.mp hi
  obtain rfl := Option.some.inj hi
  simpa [compute] using (List.getElem?_eq_some_iff.mp (List.mem_zipIdx_iff_getElem?.mp hj)).1

/-! ### What agendas say about generations -/

/-- The channel of a call, if it has one, is one of the engine. -/
def Call.HasChannel (call : Call) (e : Engine) : Prop :=
  ∀ c, call.channel = some c → ∃ ch, e.channels[c]? = some ch

/-- A generation above all known ones that the engine may come to use. -/
structure Generation.Fresh (g : Generation) (e : Engine) (known : List Generation) : Prop where
  sound : g.Sound e.setup
  taken : g.id < e.nextId
  above : ∀ g' ∈ known, g'.id < g.id

/-- The generation is the newest one known. -/
structure Generation.Newest (g : Generation) (known : List Generation) : Prop where
  mem : g ∈ known
  top : ∀ g' ∈ known, g'.id ≤ g.id

/-- What an action says about generations and routes is so. -/
def Action.Knows (e : Engine) (known : List Generation) : Action → Prop
  | .load call => call.HasChannel e
  | .screen call g => g ∈ known ∧ call.HasChannel e
  | .select call g channel .. => g ∈ known ∧ call.HasChannel e ∧ call.channel = some channel
  | .refresh channel table => ∃ g ∈ known, ∃ c, e.channels[channel]? = some c ∧ table = .compute g c.module
  | .accept g deliveries _ | .fan g deliveries _ => g ∈ known ∧ ∀ d ∈ deliveries, d.route < g.routes.length
  | .attempt g _ d => g ∈ known ∧ d.route < g.routes.length
  | .letGo g => g ∈ known
  | .make d _ | .awaitCreate d .. => d.generation.Fresh e known
  | .install g => g.Fresh e known
  | .recalcAll g | .recalc g _ => g.Newest known
  | _ => True

/-- The generations known once the action is done. -/
def Action.adds (known : List Generation) : Action → List Generation
  | .install g => known ++ [g]
  | _ => known

/-- The action is about a generation that must be the newest. -/
def Action.isNewest : Action → Bool
  | .make .. | .awaitCreate .. | .install _ | .recalcAll _ | .recalc .. => true
  | _ => false

/-- What the actions of an agenda say about generations will be so when their turn comes. -/
def Rooted (e : Engine) : List Generation → List Action → Prop
  | _, [] => True
  | known, a :: rest => a.Knows e known ∧ Rooted e (a.adds known) rest

/-- Channels stay and keep their modules, and numbers are only used up. -/
structure Engine.Grows (e e' : Engine) : Prop where
  setup : e'.setup = e.setup
  nextId : e.nextId ≤ e'.nextId
  channels : ∀ (i : ChannelId) (c : Channel), e.channels[i]? = some c →
    ∃ c', e'.channels[i]? = some c' ∧ c'.module = c.module

section Rooted
variable {e e' : Engine} {known known' : List Generation} {a : Action} {rest next agenda : List Action}

theorem Call.HasChannel.mono {call : Call} (h : call.HasChannel e) (hg : e.Grows e') : call.HasChannel e' := by
  intro c hc
  obtain ⟨ch, hch⟩ := h c hc
  obtain ⟨ch', hch', -⟩ := hg.channels c ch hch
  exact ⟨ch', hch'⟩

theorem Generation.Fresh.mono {g : Generation} (h : g.Fresh e known) (hg : e.Grows e') : g.Fresh e' known where
  sound := by
    rw [hg.setup]
    exact h.sound
  taken := Nat.lt_of_lt_of_le h.taken hg.nextId
  above := h.above

theorem Action.Knows.mono (h : a.Knows e known) (hg : e.Grows e') (hsub : ∀ g ∈ known, g ∈ known')
    (hnew : a.isNewest = true → known' = known) : a.Knows e' known' := by
  cases a with
  | load => exact h.mono hg
  | screen => exact ⟨hsub _ h.1, h.2.mono hg⟩
  | select => exact ⟨hsub _ h.1, h.2.1.mono hg, h.2.2⟩
  | refresh channel table =>
    obtain ⟨g, hmem, c, hc, rfl⟩ := h
    obtain ⟨c', hc', hmodule⟩ := hg.channels channel c hc
    exact ⟨g, hsub g hmem, c', hc', by rw [hmodule]⟩
  | accept | fan | attempt => exact ⟨hsub _ h.1, h.2⟩
  | letGo => exact hsub _ h
  | make | awaitCreate | install =>
    rw [hnew rfl]
    exact Generation.Fresh.mono h hg
  | recalcAll | recalc =>
    rw [hnew rfl]
    exact h
  | _ => trivial

namespace Rooted

theorem mono (h : Rooted e known agenda) (hg : e.Grows e') (hsub : ∀ g ∈ known, g ∈ known')
    (hnew : agenda.any Action.isNewest = true → known' = known) : Rooted e' known' agenda := by
  induction agenda generalizing known known' with
  | nil => trivial
  | cons a rest ih =>
    have hfirst : a.isNewest = true → known' = known := fun ha => hnew (by simp [ha])
    refine ⟨h.1.mono hg hsub hfirst, ih h.2 ?_ fun hr => ?_⟩
    · cases a with
      | install g =>
        rw [hfirst rfl]
        exact fun _ h => h
      | _ => exact hsub
    · rw [hnew (by simp [hr])]

theorem grows (h : Rooted e known agenda) (hg : e.Grows e') : Rooted e' known agenda :=
  h.mono hg (fun _ h => h) fun _ => rfl

theorem knows (h : Rooted e known agenda) (ha : a ∈ agenda) : ∃ known', a.Knows e known' := by
  induction agenda generalizing known with
  | nil => cases ha
  | cons b rest ih =>
    rcases List.mem_cons.mp ha with rfl | ha
    · exact ⟨known, h.1⟩
    · exact ih h.2 ha

theorem append (hn : ∀ a ∈ next, a.Knows e known ∧ a.adds known = known) (h : Rooted e known rest) :
    Rooted e known (next ++ rest) := by
  induction next with
  | nil => exact h
  | cons a next ih =>
    obtain ⟨hknows, hadds⟩ := hn a List.mem_cons_self
    refine ⟨hknows, ?_⟩
    rw [hadds]
    exact ih fun b hb => hn b (List.mem_cons_of_mem a hb)

end Rooted

end Rooted

/-! ### What an action does to channels -/

namespace Engine

/-- Where a channel of the state after an action comes from. -/
inductive ChannelStep (e : Engine) : Action → ChannelId → Channel → Prop
  | kept {a : Action} {i : ChannelId} {c c' : Channel} : e.channels[i]? = some c → SameTable c c' →
      ChannelStep e a i c'
  | refreshed {i : ChannelId} {c : Channel} {table : RouteLevels} : e.channels[i]? = some c →
      c.table.generation < table.generation → ChannelStep e (.refresh i table) i { c with table }
  | recalculated {i : ChannelId} {c : Channel} {g : Generation} : e.channels[i]? = some c →
      ChannelStep e (.recalc g i) i (c.recalc g)
  | registered {module : String} {shownAs : Option String} {g : Generation} : e.live = some g →
      e.setup.modules = true →
      ChannelStep e (.register module shownAs) e.channels.length (.ofModule g module shownAs)

section channels
variable {e : Engine} {task : TaskId} {a : Action} {m : Move}

theorem getElem?_channels_setChannel {channel i : ChannelId} {c c' : Channel}
    (h : (e.setChannel channel c).channels[i]? = some c') : (i = channel ∧ c' = c) ∨ e.channels[i]? = some c' := by
  simp only [setChannel, List.getElem?_set] at h
  split at h
  · rename_i heq
    split at h
    · exact .inl ⟨heq.symm, (Option.some.inj h).symm⟩
    · cases h
  · exact .inr h

theorem channelStep_same {i : ChannelId} {c' : Channel} (h : e.channels[i]? = some c') : ChannelStep e a i c' :=
  .kept h ⟨rfl, rfl⟩

theorem Does.channelStep (h : Does e task a m) {i : ChannelId} {c' : Channel} (hi : m.engine.channels[i]? = some c') :
    ChannelStep e a i c' := by
  have hf := h.frame
  cases a <;> dsimp only [Action.Changes] at hf
  case refresh channel table =>
    cases h with
    | perform h =>
      obtain rfl := Option.some.inj h
      dsimp only [Engine.refresh] at hi
      split at hi
      · exact channelStep_same hi
      · rename_i c hc
        rcases getElem?_channels_setChannel hi with ⟨rfl, rfl⟩ | hi
        · unfold Channel.refresh
          split
          · rename_i hlt
            exact .refreshed hc hlt
          · exact channelStep_same hc
        · exact channelStep_same hi
  case recalc g channel =>
    cases h with
    | perform h =>
      obtain rfl := Option.some.inj h
      dsimp only [Engine.recalc] at hi
      split at hi
      · exact channelStep_same hi
      · rename_i c hc
        rcases getElem?_channels_setChannel hi with ⟨rfl, rfl⟩ | hi
        · exact .recalculated hc
        · exact channelStep_same hi
  case enlist channel =>
    cases h with
    | perform h =>
      obtain ⟨-, h⟩ := Option.ite_none_left_eq_some.mp h
      split at h
      · obtain rfl := Option.some.inj h
        exact channelStep_same hi
      · rename_i c hc
        obtain rfl := Option.some.inj h
        rcases getElem?_channels_setChannel hi with ⟨rfl, rfl⟩ | hi
        · exact .kept hc ⟨rfl, rfl⟩
        · exact channelStep_same hi
  case register module shownAs =>
    cases h with
    | perform h =>
      dsimp only [perform?, register] at h
      split at h
      · obtain rfl := Option.some.inj h
        exact channelStep_same hi
      · rename_i hmodules
        obtain ⟨g, hlive, rfl⟩ := Option.map_eq_some_iff.mp h
        rcases getElem?_concat_eq_some hi with ⟨rfl, rfl⟩ | hi
        · exact .registered hlive (by simpa using hmodules)
        · exact channelStep_same hi
  all_goals
    rw [hf] at hi
    exact channelStep_same hi

@[simp] theorem length_channels_setChannel {channel : ChannelId} {c : Channel} :
    (e.setChannel channel c).channels.length = e.channels.length := by
  simp [setChannel]

/-- No channel is forgotten. -/
theorem Does.channels_length (h : Does e task a m) : e.channels.length ≤ m.engine.channels.length := by
  have hf := h.frame
  cases a <;> dsimp only [Action.Changes] at hf
  case refresh channel table =>
    cases h with
    | perform h =>
      obtain rfl := Option.some.inj h
      dsimp only [Engine.refresh]
      split <;> simp
  case recalc g channel =>
    cases h with
    | perform h =>
      obtain rfl := Option.some.inj h
      dsimp only [Engine.recalc]
      split <;> simp
  case enlist channel =>
    cases h with
    | perform h =>
      obtain ⟨-, h⟩ := Option.ite_none_left_eq_some.mp h
      split at h <;> obtain rfl := Option.some.inj h <;> simp
  case register module shownAs =>
    cases h with
    | perform h =>
      dsimp only [perform?, register] at h
      split at h
      · obtain rfl := Option.some.inj h
        exact Nat.le_refl _
      · obtain ⟨g, -, rfl⟩ := Option.map_eq_some_iff.mp h
        simp
  all_goals exact Nat.le_of_eq (congrArg (·.channels.length) hf).symm

/-- A channel is there after an action if it was before, and its module is the same. -/
theorem Does.channel_kept (h : Does e task a m) {i : ChannelId} {c : Channel} (hi : e.channels[i]? = some c) :
    ∃ c', m.engine.channels[i]? = some c' ∧ c'.module = c.module := by
  have hlt : i < m.engine.channels.length :=
    Nat.lt_of_lt_of_le (List.getElem?_eq_some_iff.mp hi).1 h.channels_length
  obtain ⟨c', hi'⟩ : ∃ c', m.engine.channels[i]? = some c' := ⟨_, List.getElem?_eq_getElem hlt⟩
  refine ⟨c', hi', ?_⟩
  cases h.channelStep hi' with
  | kept hc hsame =>
    obtain rfl := Option.some.inj (hc.symm.trans hi)
    exact hsame.module
  | refreshed hc =>
    obtain rfl := Option.some.inj (hc.symm.trans hi)
    rfl
  | recalculated hc =>
    obtain rfl := Option.some.inj (hc.symm.trans hi)
    rfl
  | registered =>
    rw [List.getElem?_eq_none (Nat.le_refl _)] at hi
    cases hi

theorem Does.setup (h : Does e task a m) : m.engine.setup = e.setup := by
  have hf := h.frame
  cases a <;> (dsimp only [Action.Changes] at hf; rw [hf])

/-- A build takes the next number. -/
theorem Does.nextId_build {config : Config} {isReload : Bool} (h : Does e task (.build config isReload) m) :
    m.engine.nextId = e.nextId + 1 := by
  cases h with
  | perform h =>
    obtain rfl := Option.some.inj h
    dsimp only [Engine.build]
    split <;> rfl

theorem Does.nextId_le (h : Does e task a m) : e.nextId ≤ m.engine.nextId := by
  have hf := h.frame
  cases a
  case build config isReload => exact h.nextId_build ▸ Nat.le_succ _
  all_goals
    dsimp only [Action.Changes] at hf
    exact Nat.le_of_eq (congrArg Engine.nextId hf).symm

theorem Does.grows (h : Does e task a m) : e.Grows m.engine where
  setup := h.setup
  nextId := h.nextId_le
  channels _ _ := h.channel_kept

/-- A generation is live because it was before, or because it has been installed. -/
theorem Does.live (h : Does e task a m) {g : Generation} (hg : m.engine.live = some g) :
    e.live = some g ∨ a = .install g := by
  have hf := h.frame
  cases a
  case install g' =>
    cases h with
    | perform h =>
      obtain rfl := Option.some.inj h
      obtain rfl := Option.some.inj hg
      exact .inr rfl
  case leave =>
    cases h with
    | perform h =>
      obtain rfl := Option.some.inj h
      dsimp only [Engine.leave] at hg
      split at hg
      · cases hg
      · exact .inl hg
  all_goals
    dsimp only [Action.Changes] at hf
    exact .inl ((congrArg Engine.live hf).symm.trans hg)

end channels

/-- What the state of an engine says about the generations known so far. -/
structure Founded (e : Engine) (known : List Generation) : Prop where
  ordered : known.Pairwise (·.id < ·.id)
  taken : ∀ g ∈ known, g.id < e.nextId
  sound : ∀ g ∈ known, g.Sound e.setup
  live : ∀ g, e.live = some g → g ∈ known
  tables : ∀ (i : ChannelId) (c : Channel), e.channels[i]? = some c → ∃ g ∈ known, c.table = .compute g c.module
  modules : ∀ (i : ChannelId) (c : Channel), e.channels[i]? = some c → e.setup.modules = true

section Founded
variable {e e' : Engine} {task : TaskId} {a : Action} {m : Move} {known : List Generation}

theorem eq_of_pairwise_lt {g g' : Generation} (h : known.Pairwise (·.id < ·.id)) (hg : g ∈ known) (hg' : g' ∈ known)
    (hid : g.id = g'.id) : g = g' := by
  induction h with
  | nil => cases hg
  | cons hlt _ ih =>
    rcases List.mem_cons.mp hg with rfl | hmem <;> rcases List.mem_cons.mp hg' with heq | hmem'
    · exact heq.symm
    · exact absurd hid (Nat.ne_of_lt (hlt _ hmem'))
    · subst heq
      exact absurd hid.symm (Nat.ne_of_lt (hlt _ hmem))
    · exact ih hmem hmem'

namespace Founded

/-- A table a channel has for a generation is the one worked out from it. -/
theorem tableFor?_eq (h : Founded e known) {i : ChannelId} {c : Channel} {g : Generation} {table : RouteLevels}
    (hc : e.channels[i]? = some c) (hg : g ∈ known) (ht : c.tableFor? g = some table) :
    table = .compute g c.module := by
  obtain ⟨hid, htable⟩ := Option.ite_none_right_eq_some.mp ht
  obtain rfl := Option.some.inj htable
  obtain ⟨g', hg', htable⟩ := h.tables i c hc
  rw [htable] at hid ⊢
  rw [eq_of_pairwise_lt h.ordered hg' hg hid]

theorem of_calm (h : Founded e known) (hc : Calm e e') : Founded e' known where
  ordered := h.ordered
  taken := by
    rw [hc.nextId]
    exact h.taken
  sound := by
    rw [hc.setup]
    exact h.sound
  live := by
    rw [hc.live]
    exact h.live
  tables i c' hi := by
    obtain ⟨c, hi, hsame⟩ := hc.tables i c' hi
    rw [hsame.table, hsame.module]
    exact h.tables i c hi
  modules i c' hi := by
    obtain ⟨c, hi, -⟩ := hc.tables i c' hi
    rw [hc.setup]
    exact h.modules i c hi

theorem setAgenda (h : Founded e known) (agenda : List Action) : Founded (e.setAgenda task agenda) known :=
  ⟨h.ordered, h.taken, h.sound, h.live, h.tables, h.modules⟩

/-- What is known is founded after an action as well, with the generation it installs. -/
theorem does (h : Founded e known) (ha : a.Knows e known) (hdoes : Does e task a m) :
    Founded m.engine (a.adds known) := by
  have hold : ∀ g ∈ known, g ∈ a.adds known := by
    cases a <;> first | exact fun _ h => h | exact fun _ h => List.mem_append_left _ h
  have hnext := hdoes.grows.nextId
  refine ⟨?_, ?_, ?_, ?_, ?_, ?_⟩
  · cases a
    case install g =>
      refine List.pairwise_append.mpr ⟨h.ordered, List.pairwise_singleton _ _, fun x hx y hy => ?_⟩
      rw [List.mem_singleton.mp hy]
      exact ha.above x hx
    all_goals exact h.ordered
  · have htaken : ∀ g ∈ known, g.id < m.engine.nextId := fun g hg => Nat.lt_of_lt_of_le (h.taken g hg) hnext
    cases a
    case install g =>
      intro x hx
      rcases List.mem_append.mp hx with hx | hx
      · exact htaken x hx
      · rw [List.mem_singleton.mp hx]
        exact Nat.lt_of_lt_of_le ha.taken hnext
    all_goals exact htaken
  · rw [hdoes.setup]
    cases a
    case install g =>
      intro x hx
      rcases List.mem_append.mp hx with hx | hx
      · exact h.sound x hx
      · rw [List.mem_singleton.mp hx]
        exact ha.sound
    all_goals exact h.sound
  · intro g hg
    rcases hdoes.live hg with hg | rfl
    · exact hold g (h.live g hg)
    · exact List.mem_append_right _ (List.mem_singleton_self g)
  · intro i c' hi
    cases hdoes.channelStep hi with
    | kept hc hsame =>
      obtain ⟨g, hg, htable⟩ := h.tables _ _ hc
      exact ⟨g, hold g hg, by rw [hsame.table, hsame.module, htable]⟩
    | refreshed hc =>
      obtain ⟨g, hg, c, hc', rfl⟩ := ha
      obtain rfl := Option.some.inj (hc'.symm.trans hc)
      exact ⟨g, hg, rfl⟩
    | recalculated => exact ⟨_, ha.mem, rfl⟩
    | registered hlive => exact ⟨_, h.live _ hlive, rfl⟩
  · intro i c' hi
    rw [hdoes.setup]
    cases hdoes.channelStep hi with
    | kept hc | refreshed hc | recalculated hc => exact h.modules _ _ hc
    | registered _ hmodules => exact hmodules

end Founded

/-- A call that is let through goes through its own channel, and to routes that exist. -/
theorem knows_admission {call : Call} {g : Generation} (hg : g.Sound e.setup) (h : e.admission call g = .ok a) :
    (∃ channel rank text, a = .select call g channel rank text ∧ call.channel = some channel) ∨
      ∃ deliveries, a = .accept g deliveries call.callback ∧ ∀ d ∈ deliveries, d.route < g.routes.length := by
  unfold admission at h
  split at h
  · cases h
  · split at h
    · split at h
      · cases h
      · split at h
        · cases h
        · split at h <;> obtain rfl := Except.ok.inj h
          · rename_i hchannel _
            exact .inl ⟨_, _, _, rfl, hchannel⟩
          · refine .inr ⟨_, rfl, Generation.logDeliveries_lt fun i hi => ?_⟩
            exact Generation.flatRoute?_lt (Option.mem_toList.mp hi)
    · split at h
      · cases h
      · obtain rfl := Except.ok.inj h
        exact .inr ⟨_, rfl, Generation.tagDeliveries_lt hg⟩
    · obtain rfl := Except.ok.inj h
      exact .inr ⟨_, rfl, Generation.eventDeliveries_lt⟩

theorem rooted_loose {next rest : List Action} {e' : Engine} (hn : next.all Action.isLoose = true)
    (hgo : ∀ g, .letGo g ∈ next → g ∈ known) (h : Rooted e' known rest) : Rooted e' known (next ++ rest) := by
  refine .append (fun b hb => ?_) h
  have hloose := List.all_eq_true.mp hn b hb
  cases b <;> first | exact ⟨trivial, rfl⟩ | exact ⟨hgo _ hb, rfl⟩ | cases hloose

theorem letGo_not_mem_frees {g : Generation} (routes : List Route) : .letGo g ∉ frees routes := by
  simp [frees]

theorem rooted_building {e' : Engine} (isReload : Bool) (outcome : Outcome) :
    Rooted e' known (building isReload outcome) := by
  cases isReload
  · exact ⟨trivial, trivial, trivial⟩
  · exact ⟨trivial, trivial, trivial, trivial⟩

theorem rooted_abandon {e' : Engine} (d : Draft) (isReload : Bool) (outcome : Outcome) :
    Rooted e' known (abandon d isReload outcome) :=
  rooted_loose (loose_frees _) (fun _ h => absurd h (letGo_not_mem_frees _)) (rooted_building ..)

/-- What a build that succeeded goes on with concerns the generation it made, then the newest one. -/
theorem rooted_publishing {e' : Engine} {g : Generation} (h : g.Fresh e' known) (isReload : Bool) :
    Rooted e' known (publishing g isReload) := by
  have hmem : g ∈ known ++ [g] := List.mem_append_right _ (List.mem_singleton_self g)
  refine ⟨h, ?_⟩
  cases isReload
  · exact rooted_building false .done
  · refine ⟨⟨hmem, fun x hx => ?_⟩, trivial, hmem, rooted_building true .done⟩
    rcases List.mem_append.mp hx with hx | hx
    · exact Nat.le_of_lt (h.above x hx)
    · exact Nat.le_of_eq (congrArg Generation.id (List.mem_singleton.mp hx))

/-- What comes next for a task is rooted in what is known after the action. -/
theorem Next.rooted {e' : Engine} {next rest : List Action} (hn : Next e a next) (hf : Founded e known)
    (ha : a.Knows e known) (harr : Arranged (a :: rest)) (hg : e.Grows e')
    (htaken : ∀ config isReload, a = .build config isReload → e'.nextId = e.nextId + 1)
    (h : Rooted e' (a.adds known) rest) : Rooted e' (a.adds known) (next ++ rest) := by
  have hfits := harr.fits
  cases hn with
  | nothing => exact h
  | forbidden hlive => exact ⟨hf.live _ hlive, trivial, trivial, h⟩
  | load hlive => exact ⟨⟨hf.live _ hlive, Call.HasChannel.mono ha hg⟩, hf.live _ hlive, trivial, trivial, h⟩
  | screen hadm =>
    rcases knows_admission (hf.sound _ ha.1) hadm with ⟨channel, rank, text, rfl, hc⟩ | ⟨deliveries, rfl, hd⟩
    · exact ⟨⟨ha.1, ha.2.mono hg, hc⟩, h⟩
    · exact ⟨⟨ha.1, hd⟩, h⟩
  | reject => exact ⟨trivial, h⟩
  | noChannel => exact ⟨⟨ha.1, Generation.logDeliveries_lt nofun⟩, h⟩
  | select hc htable =>
    refine ⟨⟨ha.1, Generation.logDeliveries_lt fun i hi => ?_⟩, h⟩
    rw [hf.tableFor?_eq hc ha.1 htable] at hi
    exact RouteLevels.select_compute_lt hi
  | @stale call g channel rank text c hc =>
    obtain ⟨c', hc', hmodule⟩ := hg.channels channel c hc
    refine ⟨⟨g, ha.1, c', hc', by rw [hmodule]⟩, ⟨ha.1, Generation.logDeliveries_lt fun i hi => ?_⟩, h⟩
    exact RouteLevels.select_compute_lt hi
  | accept => exact ⟨ha, h⟩
  | unrouted => exact ⟨trivial, ha, h⟩
  | fan =>
    refine .append (fun b hb => ?_) h
    obtain ⟨d, hd, rfl⟩ := List.mem_map.mp hb
    exact ⟨⟨ha.1, ha.2 d hd⟩, rfl⟩
  | alone | answered | awaitOut | send | tell | awaitFree => exact ⟨trivial, h⟩
  | dropped | disabled => exact ⟨trivial, trivial, h⟩
  | @answer ack answer x =>
    cases answer.result x.route
    · exact ⟨trivial, trivial, trivial, h⟩
    · exact ⟨trivial, trivial, h⟩
  | letGo | close => exact rooted_loose (loose_frees _) (fun _ h => absurd h (letGo_not_mem_frees _)) h
  | leave hlive => exact ⟨hf.live _ hlive, h⟩
  | refused | faulty =>
    obtain rfl : rest = [] := hfits
    rw [List.append_nil]
    exact rooted_building ..
  | check => exact ⟨trivial, h⟩
  | @draft config isReload d hd =>
    have hnext := htaken config isReload rfl
    refine ⟨⟨?_, ?_, fun x hx => ?_⟩, h⟩
    · rw [hg.setup]
      exact Draft.sound_ofConfig hd
    · rw [(Draft.ofConfig_eq_ok hd).1, hnext]
      exact Nat.lt_succ_self _
    · rw [(Draft.ofConfig_eq_ok hd).1]
      exact hf.taken x hx
  | publish =>
    obtain rfl : rest = [] := hfits
    rw [List.append_nil]
    exact rooted_publishing (Generation.Fresh.mono ha hg) _
  | awaitCreate => exact ⟨Generation.Fresh.mono ha hg, h⟩
  | abandon | notCreated =>
    obtain rfl : rest = [] := hfits
    rw [List.append_nil]
    exact rooted_abandon ..
  | attach | created =>
    have hfresh := Generation.Fresh.mono ha hg
    exact ⟨⟨Draft.sound_attach hfresh.sound _ _ _, hfresh.taken, hfresh.above⟩, h⟩
  | install hlive => exact ⟨List.mem_append_left _ (hf.live _ hlive), h⟩
  | recalcAll =>
    rw [List.append_assoc]
    have hunlock : Rooted e' known (.unlockChannels :: rest) := ⟨trivial, h⟩
    refine .append (fun b hb => ?_) hunlock
    obtain ⟨c, -, rfl⟩ := List.mem_map.mp hb
    exact ⟨ha, rfl⟩
  | register hlive => exact ⟨trivial, hf.live _ hlive, trivial, h⟩
  | write => exact rooted_loose (by simp [Action.isLoose]) (by simp) h

end Founded

/-! ### Lineage -/

/-- The generations known so far, as the state and the agendas have them. -/
structure Lineage (e : Engine) (known : List Generation) : Prop extends Founded e known where
  rooted : ∀ agenda ∈ e.agendas, Rooted e known agenda

section Lineage
variable {e e' : Engine} {task : TaskId} {a : Action} {m : Move} {known : List Generation} {agenda : List Action}
  {es : List Event}

theorem isGuarded_of_newest (h : Arranged agenda) (hn : agenda.any Action.isNewest = true) :
    agenda.any Action.isGuarded = true := by
  induction h with
  | nil => cases hn
  | @cons a rest fits _ _ _ ih =>
    rw [List.any_cons, Bool.or_eq_true] at hn ⊢
    rcases hn with hn | hn
    · -- A draft is guarded itself, and what comes of it is followed by the unlocking.
      cases a <;> first
        | exact .inl rfl
        | exact .inr (List.any_eq_true.mpr ⟨_, fits, rfl⟩)
        | cases hn
    · exact .inr (ih hn)

theorem isInside_of_newest (h : Arranged agenda) (hn : agenda.any Action.isNewest = true) :
    isInside agenda = true := by
  unfold isInside
  split
  · rcases h.fits with ⟨config, rfl⟩ | rfl <;> cases hn
  · exact isGuarded_of_newest h hn

theorem Calm.grows (h : Calm e e') : e.Grows e' where
  setup := h.setup
  nextId := Nat.le_of_eq h.nextId.symm
  channels i c hi := by
    have hlt : i < e'.channels.length := by
      rw [h.channels]
      exact (List.getElem?_eq_some_iff.mp hi).1
    obtain ⟨c', hi'⟩ : ∃ c', e'.channels[i]? = some c' := ⟨_, List.getElem?_eq_getElem hlt⟩
    obtain ⟨c₀, hi₀, hsame⟩ := h.tables i c' hi'
    obtain rfl := Option.some.inj (hi.symm.trans hi₀)
    exact ⟨c', hi', hsame.module⟩

theorem Opening.rooted (h : Opening e agenda) (hf : Founded e known) (hg : e.Grows e') : Rooted e' known agenda := by
  cases h with
  | call call hchannel => exact ⟨Call.HasChannel.mono hchannel hg, trivial⟩
  | keep g hlive => exact ⟨hf.live g hlive, trivial, trivial⟩
  | reload | leave | answer => exact ⟨trivial, trivial, trivial⟩
  | shutdown => exact ⟨trivial, trivial, trivial, trivial, trivial, trivial⟩
  | openChannel => exact ⟨trivial, trivial⟩
  | serve => exact ⟨trivial, trivial, trivial, trivial⟩

theorem action?_of_task {op : Op} {fx : List Effect} {rest : List Action} (htask : op.task? = some task)
    (hagenda : e.agendas[task]? = some (a :: rest)) : Event.action? ⟨e, op, e', fx⟩ = some a := by
  simp [Event.action?, htask, hagenda]

theorem known_step {op : Op} {fx : List Effect} {rest : List Action} (htask : op.task? = some task)
    (hagenda : e.agendas[task]? = some (a :: rest)) :
    known ++ (Event.installed? ⟨e, op, e', fx⟩).toList = a.adds known := by
  rw [Event.installed?, action?_of_task htask hagenda]
  cases a <;> simp [Action.adds]

theorem step_grows {op : Op} {fx : List Effect} (h : e.step? op = some (e', fx)) : e.Grows e' := by
  rcases step_cases h with ⟨request, -, hb, -⟩ | ⟨task, a, rest, m, -, -, hdoes, rfl, -⟩
  · obtain ⟨-, -, -, hcalm⟩ := begin_cases hb
    exact hcalm.grows
  · exact ⟨hdoes.grows.setup, hdoes.grows.nextId, hdoes.grows.channels⟩

theorem Run.setup (h : Run e es e') : e'.setup = e.setup := by
  induction h with
  | refl => rfl
  | step _ hs ih => exact (step_grows hs).setup.trans ih

/-- What is known of an event that does this action. -/
theorem done_of_action? {ev : Event} (hs : ev.before.step? ev.op = some (ev.after, ev.effects))
    (ha : ev.action? = some a) : ∃ task rest m, ev.before.agendas[task]? = some (a :: rest) ∧
      Does (ev.before.setAgenda task rest) task a m ∧ ev.after = m.engine.setAgenda task (m.next ++ rest) := by
  rcases step_cases hs with ⟨request, hop, -, -⟩ | ⟨task, a', rest, m, htask, hagenda, hdoes, hafter, -⟩
  · simp [Event.action?, hop, Op.task?] at ha
  · obtain rfl : a' = a := by simpa [Event.action?, htask, hagenda] using ha
    exact ⟨task, rest, m, hagenda, hdoes, hafter⟩

theorem knows_setAgenda {task : TaskId} {rest : List Action} (h : a.Knows e known) :
    a.Knows (e.setAgenda task rest) known :=
  h.mono ⟨rfl, Nat.le_refl _, fun _ c hc => ⟨c, hc, rfl⟩⟩ (fun _ h => h) fun _ => rfl

namespace Lineage
variable {op : Op} {fx : List Effect} {es : List Event}

theorem start (setup : Setup) (files : File.Store) (config : Config) : Lineage (start setup files config) [] where
  ordered := .nil
  taken _ h := absurd h List.not_mem_nil
  sound _ h := absurd h List.not_mem_nil
  live _ h := by cases h
  tables _ _ h := by cases h
  modules _ _ h := by cases h
  rooted agenda h := by
    rw [List.mem_singleton.mp h]
    exact ⟨trivial, trivial⟩

theorem begin_step {request : Request} (h : Lineage e known) (hs : e.begin? request = some e') :
    Lineage e' known := by
  obtain ⟨agenda, hopen, hagendas, hcalm⟩ := begin_cases hs
  refine ⟨h.toFounded.of_calm hcalm, fun x hx => ?_⟩
  rw [hagendas] at hx
  rcases List.mem_append.mp hx with hx | hx
  · exact (h.rooted x hx).grows hcalm.grows
  · rw [List.mem_singleton.mp hx]
    exact hopen.rooted h.toFounded hcalm.grows

/-- Other agendas have nothing to say about the newest generation while one is installed. -/
theorem other_rooted (ho : Orderly e) (h : Lineage e known) {rest x : List Action} {j : TaskId}
    (hagenda : e.agendas[task]? = some (a :: rest)) (hj : e.agendas[j]? = some x) (hne : j ≠ task)
    (hg : e.Grows e') : Rooted e' (a.adds known) x := by
  have hx := h.rooted x (List.mem_of_getElem? hj)
  cases a
  case install g =>
    refine hx.mono hg (fun y hy => List.mem_append_left _ hy) fun hnew => absurd ?_ hne
    have harr := ho.arranged _ (List.mem_of_getElem? hagenda)
    exact ho.inside_unique hj (isInside_of_newest (ho.arranged _ (List.mem_of_getElem? hj)) hnew) hagenda
      (isInside_of_newest harr rfl)
  all_goals exact hx.grows hg

theorem step (ho : Orderly e) (h : Lineage e known) (hs : e.step? op = some (e', fx)) :
    Lineage e' (known ++ (Event.installed? ⟨e, op, e', fx⟩).toList) := by
  rcases step_cases hs with ⟨request, rfl, hb, rfl⟩ | ⟨task, a, rest, m, htask, hagenda, hdoes, rfl, rfl⟩
  · simpa [Event.installed?, Event.action?, Op.task?] using h.begin_step hb
  · rw [known_step htask hagenda]
    have hrooted := h.rooted _ (List.mem_of_getElem? hagenda)
    have hf : Founded (e.setAgenda task rest) known := h.toFounded.setAgenda rest
    have hgrows' := step_grows hs
    have hgrows : (e.setAgenda task rest).Grows (m.engine.setAgenda task (m.next ++ rest)) :=
      ⟨hgrows'.setup, hgrows'.nextId, hgrows'.channels⟩
    have hknows : a.Knows (e.setAgenda task rest) known := knows_setAgenda hrooted.1
    refine ⟨(hf.does hknows hdoes).setAgenda _, fun x hx => ?_⟩
    have hx : x ∈ e.agendas.set task (m.next ++ rest) := by
      simpa [hdoes.agendas] using hx
    rcases mem_set_cases hx with rfl | ⟨j, hne, hj⟩
    · refine hdoes.next.rooted hf hknows (ho.arranged _ (List.mem_of_getElem? hagenda)) hgrows ?_
        (hrooted.2.grows hgrows')
      rintro config isReload rfl
      exact hdoes.nextId_build
    · exact h.other_rooted ho hagenda hj hne hgrows'

theorem run (ho : Orderly e) (h : Lineage e known) (hr : Run e es e') : Lineage e' (known ++ installs es) := by
  induction hr with
  | refl => simpa [installs] using h
  | @step es e₁ e₂ op fx hr hs ih =>
    have h := ih.step (ho.run hr) hs
    rwa [List.append_assoc, ← installs_singleton, ← installs_append] at h

end Lineage

end Lineage

end Engine

end LogDispatch
