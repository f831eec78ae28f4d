import LogDispatch.Proofs.Lineage

/-! Log calls and the tables of channels. A call chooses its routes by the thresholds of the generation it took
    up, although reloads, registrations and other calls change the table of its channel meanwhile. Generations
    never share a number, and the one of a table never goes down. -/

namespace LogDispatch

/-- The draft that an event begins. -/
def Event.drafted? (ev : Event) : Option Draft :=
  match ev.action?, ev.op.task?.bind fun task => ev.after.agendas[task]?.bind List.head? with
  | some (.build ..), some (.make d _) => some d
  | _, _ => none

/-- The drafts that were begun, in order. -/
def drafts (es : List Event) : List Draft := es.filterMap Event.drafted?

namespace Engine

/-- The deliveries of a log call are those to the routes that the table of the generation chooses for the module
    of the channel. -/
def Selects (e : Engine) (g : Generation) (call : Call) (channel : ChannelId) (deliveries : List Delivery) : Prop :=
  ∃ level message c rank text, call.subject = .log level message ∧ e.channels[channel]? = some c ∧
    g.levels.resolve level = .ok rank ∧ message.render = .ok text ∧
    deliveries = g.logDeliveries (some c.frame) call.caller rank text ((RouteLevels.compute g c.module).select rank)

end Engine

/-- What an action of a log call through a channel may be once the call has taken up its generation. -/
def Action.Follows (e : Engine) (g : Generation) (call : Call) (channel : ChannelId) : Action → Prop
  | .load _ | .checkReload _ | .build .. | .make .. | .awaitCreate .. | .recalcAll _ => False
  | .screen call' g' => call' = call ∧ g' = g
  | .select call' g' channel' rank text => call' = call ∧ g' = g ∧ channel' = channel ∧
    ∃ level message, call.subject = .log level message ∧ g.levels.resolve level = .ok rank ∧
      message.render = .ok text
  | .accept g' deliveries callback | .fan g' deliveries callback =>
    g' = g ∧ callback = call.callback ∧ e.Selects g call channel deliveries
  | _ => True

namespace Engine
variable {e e' : Engine} {task : TaskId} {a : Action} {m : Move} {known : List Generation} {op : Op}
  {fx : List Effect} {es : List Event} {g : Generation} {call : Call} {channel : ChannelId}

theorem Selects.grows {deliveries : List Delivery} (h : e.Selects g call channel deliveries) (hg : e.Grows e') :
    e'.Selects g call channel deliveries := by
  obtain ⟨level, message, c, rank, text, hsubject, hc, hrank, htext, rfl⟩ := h
  obtain ⟨c', hc', hmodule⟩ := hg.channels channel c hc
  have hframe : c'.frame = c.frame := by rw [Channel.frame, Channel.frame, hmodule]
  exact ⟨level, message, c', rank, text, hsubject, hc', hrank, htext, by rw [hframe, hmodule]⟩

theorem follows_grows (h : a.Follows e g call channel) (hg : e.Grows e') : a.Follows e' g call channel := by
  cases a with
  | accept | fan => exact ⟨h.1, h.2.1, h.2.2.grows hg⟩
  | _ => exact h

/-- A log call through a channel that is let through goes on to the table of that channel. -/
theorem admission_log {level : Level} {message : Message} (hsubject : call.subject = .log level message)
    (hchannel : call.channel = some channel) (hmode : g.channelMode = true) (h : e.admission call g = .ok a) :
    ∃ rank text, a = .select call g channel rank text ∧ g.levels.resolve level = .ok rank ∧
      message.render = .ok text := by
  unfold admission at h
  simp only [hsubject, hchannel, hmode] at h
  split at h
  · cases h
  · cases hrank : g.levels.resolve level with
    | error => simp [hrank] at h
    | ok rank =>
      cases htext : message.render with
      | error => simp [hrank, htext] at h
      | ok text =>
        simp only [hrank, htext] at h
        obtain rfl := Except.ok.inj h
        exact ⟨rank, text, rfl, rfl, rfl⟩

theorem follows_loose {next : List Action} (h : next.all Action.isLoose = true) :
    ∀ b ∈ next, b.Follows e g call channel := by
  intro b hb
  have hloose := List.all_eq_true.mp h b hb
  cases b <;> trivial

/-- The steps of a call keep to the generation and the channel of the call, and choose by its own table. -/
theorem Next.follows {level : Level} {message : Message} {next : List Action} (hn : Next e a next)
    (hf : Founded e known) (hk : a.Knows e known) (hsubject : call.subject = .log level message)
    (hchannel : call.channel = some channel) (ha : a.Follows e g call channel) :
    ∀ b ∈ next, b.Follows e g call channel := by
  have chosen : ∀ {c : Channel} {rank : Nat} {text : String}, e.channels[channel]? = some c →
      (∃ level message, call.subject = .log level message ∧ g.levels.resolve level = .ok rank ∧
        message.render = .ok text) →
      (e.logged call g rank text ((RouteLevels.compute g c.module).select rank)).Follows e g call channel := by
    rintro c rank text hc ⟨level, message, hsubject, hrank, htext⟩
    refine ⟨rfl, rfl, level, message, c, rank, text, hsubject, hc, hrank, htext, ?_⟩
    simp [channelFrame, hchannel, hc]
  cases hn with
  | forbidden | load => exact ha.elim
  | screen hadm =>
    obtain ⟨rfl, rfl⟩ := ha
    obtain ⟨c, hc⟩ := hk.2 channel hchannel
    have hmode := (hf.sound _ hk.1).channelMode.trans (hf.modules channel c hc)
    obtain ⟨rank, text, rfl, hrank, htext⟩ := admission_log hsubject hchannel hmode hadm
    exact List.forall_mem_singleton.mpr ⟨rfl, rfl, rfl, level, message, hsubject, hrank, htext⟩
  | noChannel hc =>
    obtain ⟨rfl, rfl, rfl, -⟩ := ha
    obtain ⟨c, hc'⟩ := hk.2.1 _ hchannel
    rw [hc] at hc'
    cases hc'
  | select hc htable =>
    obtain ⟨rfl, rfl, rfl, hresolved⟩ := ha
    rw [hf.tableFor?_eq hc hk.1 htable]
    exact List.forall_mem_singleton.mpr (chosen hc hresolved)
  | stale hc =>
    obtain ⟨rfl, rfl, rfl, hresolved⟩ := ha
    exact List.forall_mem_cons.mpr ⟨trivial, List.forall_mem_singleton.mpr (chosen hc hresolved)⟩
  | accept => exact List.forall_mem_singleton.mpr ha
  | unrouted => exact List.forall_mem_cons.mpr ⟨trivial, List.forall_mem_singleton.mpr ha⟩
  | fan =>
    intro b hb
    obtain ⟨d, -, rfl⟩ := List.mem_map.mp hb
    trivial
  | @answer ack answer x =>
    cases answer.result x.route
    · exact List.forall_mem_cons.mpr ⟨trivial, List.forall_mem_cons.mpr ⟨trivial, follows_loose rfl⟩⟩
    · exact List.forall_mem_cons.mpr ⟨trivial, follows_loose rfl⟩
  | letGo | close => exact follows_loose (loose_frees _)
  | write => exact follows_loose (by simp [Action.isLoose])
  | refused | check | faulty | draft | publish | awaitCreate | abandon | attach | created | notCreated | recalcAll =>
    exact ha.elim
  | _ => exact follows_loose rfl

theorem follows_step {level : Level} {message : Message} {agenda : List Action} (hl : Lineage e known)
    (hs : e.step? op = some (e', fx)) (hsubject : call.subject = .log level message)
    (hchannel : call.channel = some channel) (hagenda : e.agendas[task]? = some agenda)
    (ha : ∀ a ∈ agenda, a.Follows e g call channel) :
    ∃ agenda', e'.agendas[task]? = some agenda' ∧ ∀ a ∈ agenda', a.Follows e' g call channel := by
  have hgrows := step_grows hs
  rcases step_agenda hs hagenda with ⟨-, hsame⟩ | ⟨a, rest, m, -, rfl, hdoes, -, -, hnow⟩
  · exact ⟨agenda, hsame, fun a h => follows_grows (ha a h) hgrows⟩
  · refine ⟨_, hnow, fun b hb => ?_⟩
    rcases List.mem_append.mp hb with hb | hb
    · have hself : (e.setAgenda task rest).Grows e' := ⟨hgrows.setup, hgrows.nextId, hgrows.channels⟩
      have hstart : e.Grows (e.setAgenda task rest) := ⟨rfl, Nat.le_refl _, fun _ c hc => ⟨c, hc, rfl⟩⟩
      have hknows := (hl.rooted _ (List.mem_of_getElem? hagenda)).1
      have hfirst := follows_grows (ha a List.mem_cons_self) hstart
      exact follows_grows (hdoes.next.follows (hl.toFounded.setAgenda rest) (knows_setAgenda hknows) hsubject
        hchannel hfirst b hb) hself
    · exact follows_grows (ha b (List.mem_cons_of_mem a hb)) hgrows

theorem follows_run {level : Level} {message : Message} {agenda : List Action} (ho : Orderly e)
    (hl : Lineage e known) (hr : Run e es e') (hsubject : call.subject = .log level message)
    (hchannel : call.channel = some channel) (hagenda : e.agendas[task]? = some agenda)
    (ha : ∀ a ∈ agenda, a.Follows e g call channel) :
    ∃ agenda', e'.agendas[task]? = some agenda' ∧ ∀ a ∈ agenda', a.Follows e' g call channel := by
  induction hr with
  | refl => exact ⟨agenda, hagenda, ha⟩
  | step hr hs ih =>
    obtain ⟨agenda₁, hagenda₁, ha₁⟩ := ih
    exact follows_step (hl.run ho hr) hs hsubject hchannel hagenda₁ ha₁

/-- A call that takes up a generation works with that one from then on. -/
theorem follows_load {rest : List Action} (ho : Orderly e)
    (hagenda : e.agendas[task]? = some (.load call :: rest)) (hlive : e.live = some g)
    (hs : e.step? (.advance task) = some (e', fx)) :
    ∃ agenda, e'.agendas[task]? = some agenda ∧ ∀ a ∈ agenda, a.Follows e' g call channel := by
  obtain rfl : rest = [] := (ho.arranged _ (List.mem_of_getElem? hagenda)).fits
  rcases step_agenda hs hagenda with ⟨hne, -⟩ | ⟨a, rest, m, -, heq, hdoes, -, -, hnow⟩
  · exact absurd rfl hne
  · obtain ⟨rfl, rfl⟩ := List.cons.inj heq
    refine ⟨_, hnow, ?_⟩
    rw [List.append_nil]
    generalize hnext : m.next = next
    cases hnext ▸ hdoes.next with
    | nothing h => cases h
    | forbidden => exact follows_loose rfl
    | load hlive' =>
      obtain rfl := Option.some.inj (hlive.symm.trans hlive')
      exact List.forall_mem_cons.mpr ⟨⟨rfl, rfl⟩, follows_loose rfl⟩

/-! ### Numbers and tables -/

/-- Channels stay, keep their modules, and do not go back to the table of an earlier generation. -/
def TablesRise (e e' : Engine) : Prop :=
  ∀ (i : ChannelId) (c : Channel), e.channels[i]? = some c →
    ∃ c', e'.channels[i]? = some c' ∧ c'.module = c.module ∧ c.table.generation ≤ c'.table.generation

theorem Does.tablesRise (hf : Founded e known) (ha : a.Knows e known) (h : Does e task a m) :
    e.TablesRise m.engine := by
  intro i c hi
  obtain ⟨c', hi', hmodule⟩ := h.channel_kept hi
  refine ⟨c', hi', hmodule, ?_⟩
  cases h.channelStep hi' with
  | kept hc hsame =>
    obtain rfl := Option.some.inj (hc.symm.trans hi)
    exact Nat.le_of_eq (congrArg RouteLevels.generation hsame.table).symm
  | refreshed hc hlt =>
    obtain rfl := Option.some.inj (hc.symm.trans hi)
    exact Nat.le_of_lt hlt
  | recalculated hc =>
    -- Only the newest generation is recalculated, and the table is of a known one.
    obtain rfl := Option.some.inj (hc.symm.trans hi)
    obtain ⟨g, hg, htable⟩ := hf.tables _ _ hc
    rw [htable]
    exact ha.top g hg
  | registered =>
    rw [List.getElem?_eq_none (Nat.le_refl _)] at hi
    cases hi

theorem tablesRise_step (hl : Lineage e known) (hs : e.step? op = some (e', fx)) : e.TablesRise e' := by
  rcases step_cases hs with ⟨request, rfl, hb, rfl⟩ | ⟨task, a, rest, m, -, hagenda, hdoes, rfl, rfl⟩
  · obtain ⟨-, -, -, hcalm⟩ := begin_cases hb
    intro i c hi
    obtain ⟨c', hi', hmodule⟩ := hcalm.grows.channels i c hi
    obtain ⟨c₀, hi₀, hsame⟩ := hcalm.tables i c' hi'
    obtain rfl := Option.some.inj (hi.symm.trans hi₀)
    exact ⟨c', hi', hmodule, Nat.le_of_eq (congrArg RouteLevels.generation hsame.table).symm⟩
  · have hknows := (hl.rooted _ (List.mem_of_getElem? hagenda)).1
    exact fun i c hi => hdoes.tablesRise (hl.toFounded.setAgenda rest) (knows_setAgenda hknows) i c hi

theorem tablesRise_run (ho : Orderly e) (hl : Lineage e known) (hr : Run e es e') : e.TablesRise e' := by
  induction hr with
  | refl => exact fun i c hi => ⟨c, hi, rfl, Nat.le_refl _⟩
  | step hr hs ih =>
    intro i c hi
    obtain ⟨c₁, hi₁, hmodule₁, hle₁⟩ := ih i c hi
    obtain ⟨c₂, hi₂, hmodule₂, hle₂⟩ := tablesRise_step (hl.run ho hr) hs i c₁ hi₁
    exact ⟨c₂, hi₂, hmodule₂.trans hmodule₁, Nat.le_trans hle₁ hle₂⟩

/-- A draft gets the next number, which is used up by that. -/
theorem drafted_id {d : Draft} (hs : e.step? op = some (e', fx)) (hd : Event.drafted? ⟨e, op, e', fx⟩ = some d) :
    d.generation.id = e.nextId ∧ e'.nextId = e.nextId + 1 := by
  rcases step_cases hs with ⟨request, rfl, -, -⟩ | ⟨task, a, rest, m, htask, hagenda, hdoes, rfl, rfl⟩
  · cases hd
  · unfold Event.drafted? at hd
    rw [action?_of_task htask hagenda] at hd
    have hlt := (List.getElem?_eq_some_iff.mp hagenda).1
    simp only [htask, Option.bind_some, agendas_setAgenda, hdoes.agendas, List.set_set,
      List.getElem?_set_self hlt] at hd
    split at hd
    · rename_i config isReload d' isReload' ha hhead
      obtain rfl := Option.some.inj ha
      obtain rfl := Option.some.inj hd
      refine ⟨?_, hdoes.nextId_build⟩
      generalize hnext : m.next = next at hhead
      cases hnext ▸ hdoes.next with
      | nothing h => cases h
      | faulty => cases hhead
      | draft hofConfig =>
        obtain rfl := (Action.make.inj (Option.some.inj hhead)).1
        exact (Draft.ofConfig_eq_ok hofConfig).1
    · cases hd

/-- The numbers of drafts increase, and the next one is above them. -/
theorem drafts_run (hr : Run e es e') :
    (drafts es).Pairwise (·.generation.id < ·.generation.id) ∧ ∀ d ∈ drafts es, d.generation.id < e'.nextId := by
  induction hr with
  | refl => exact ⟨.nil, fun d hd => absurd hd List.not_mem_nil⟩
  | @step es e₁ e₂ op fx _ hs ih =>
    obtain ⟨hpairs, hbound⟩ := ih
    have hle := (step_grows hs).nextId
    unfold drafts at hpairs hbound ⊢
    cases hd : Event.drafted? ⟨e₁, op, e₂, fx⟩ with
    | none =>
      simp only [List.filterMap_append, List.filterMap_cons, hd, List.filterMap_nil, List.append_nil]
      exact ⟨hpairs, fun d hd => Nat.lt_of_lt_of_le (hbound d hd) hle⟩
    | some d =>
      obtain ⟨hid, hnext⟩ := drafted_id hs hd
      simp only [List.filterMap_append, List.filterMap_cons, hd, List.filterMap_nil]
      refine ⟨List.pairwise_append.mpr ⟨hpairs, List.pairwise_singleton _ _, fun x hx y hy => ?_⟩, fun x hx => ?_⟩
      · rw [List.mem_singleton.mp hy, hid]
        exact hbound x hx
      · rcases List.mem_append.mp hx with hx | hx
        · exact Nat.lt_of_lt_of_le (hbound x hx) hle
        · rw [List.mem_singleton.mp hx, hid, hnext]
          exact Nat.lt_succ_self _

/-- Generations, begun or finished, never share a number, and the table of a channel never goes back to an earlier
    one. A log call through a channel that takes up a generation selects its routes from the table of that
    generation for the module of the channel, whatever happens before it does so. -/
theorem log_calls_select_by_own_generation {setup : Setup} {files : File.Store} {config : Config}
    (h : Run (start setup files config) es e) :
    (drafts es).Pairwise (·.generation.id < ·.generation.id) ∧ (installs es).Pairwise (·.id < ·.id) ∧
    (∀ es' e', Run e es' e' → e.TablesRise e') ∧
    ∀ task call rest level message channel g e₁ fx, e.agendas[task]? = some (.load call :: rest) →
      call.subject = .log level message → call.channel = some channel → e.live = some g →
      e.step? (.advance task) = some (e₁, fx) →
      ∀ es' e', Run e₁ es' e' → ∃ agenda, e'.agendas[task]? = some agenda ∧
        ∀ g' deliveries callback,
          .accept g' deliveries callback ∈ agenda ∨ .fan g' deliveries callback ∈ agenda →
          g' = g ∧ callback = call.callback ∧ e'.Selects g call channel deliveries := by
  have ho : Orderly e := (Orderly.start setup files config).run h
  have hl : Lineage e (installs es) := by
    simpa using (Lineage.start setup files config).run (Orderly.start setup files config) h
  refine ⟨(drafts_run h).1, hl.ordered, fun es' e' hr => tablesRise_run ho hl hr, ?_⟩
  intro task call rest level message channel g e₁ fx hagenda hsubject hchannel hlive hs es' e' hr
  obtain ⟨agenda₁, hagenda₁, hfollows₁⟩ := follows_load ho hagenda hlive hs
  obtain ⟨agenda, hagenda', hfollows⟩ :=
    follows_run (ho.step hs) (hl.step ho hs) hr hsubject hchannel hagenda₁ hfollows₁
  refine ⟨agenda, hagenda', fun g' deliveries callback hmem => ?_⟩
  rcases hmem with hmem | hmem
  · exact hfollows _ hmem
  · exact hfollows _ hmem

/-- Channels are closed, but for `db` from a level on. -/
def opening (level : String) : Config :=
  { modules := true, policy := some "nothing", includes := some [.ofLevel "db" (some level)] }

/-- A call through the first channel. -/
def infoCall : Call := { subject := .log (.name "info") (.text "up"), channel := some 0 }

/-- The engine is built, the channel `db` is opened, and a call through it begins. -/
def untilCall : List Op :=
  List.replicate 6 (.advance 0) ++ [.begin (.openChannel "db" none)] ++ List.replicate 4 (.advance 1) ++
    [.begin (.call infoCall)]

/-- A reload opens the channel for the call, which selects its routes after that. -/
def untilChoice : List Op :=
  [.begin (.reload (opening "debug"))] ++ List.replicate 14 (.advance 3) ++ List.replicate 3 (.advance 2)

/-- A call through `db` is still to take up its generation. -/
def calling : Engine := (plain true [] (opening "warn")).after untilCall

/-- The call took up its generation before the reload and chose its routes after it. -/
def overtaken : Engine := (calling.after [.advance 2]).after untilChoice

/-- The generation of a call that has been accepted. -/
def accepted? : List Action → Option Generation
  | .accept g _ _ :: _ => some g
  | _ => none

theorem eq_of_accepted? {agenda : List Action} {g : Generation} (h : accepted? agenda = some g) :
    ∃ deliveries callback rest, agenda = .accept g deliveries callback :: rest := by
  unfold accepted? at h
  split at h
  · obtain rfl := Option.some.inj h
    exact ⟨_, _, _, rfl⟩
  · cases h

/-- The table of the channel is newer, but the call goes by that of its own generation. -/
theorem overtaken_call_selects_by_own_generation :
    overtaken.channels.map (fun c => (c.module, c.table)) = [("db", ⟨2, [some 1]⟩)] ∧
      ∃ g deliveries callback rest, RouteLevels.compute g "db" = ⟨1, [some 2]⟩ ∧
        overtaken.agendas[2]? = some (.accept g deliveries callback :: rest) ∧
        overtaken.Selects g infoCall 0 deliveries := by
  have hstate : ((plain true [] (opening "warn")).run? untilCall).isSome = true ∧
      (calling.step? (.advance 2)).isSome = true ∧ calling.live.isSome = true ∧
      ((calling.after [.advance 2]).run? untilChoice).isSome = true ∧
      overtaken.channels.map (fun c => (c.module, c.table)) = [("db", ⟨2, [some 1]⟩)] ∧
      (overtaken.agendas[2]?.bind accepted?).map (RouteLevels.compute · "db") = some ⟨1, [some 2]⟩ := by decide +kernel
  obtain ⟨hbegun, hload, hlive, hchosen, hchannels, haccept⟩ := hstate
  have hrun : Run _ _ calling := run_history _ _ hbegun
  have hrun' : Run _ _ overtaken := run_history _ _ hchosen
  have hagenda : calling.agendas[2]? = some [.load infoCall] := rfl
  obtain ⟨⟨e₁, fx⟩, hload⟩ := Option.isSome_iff_exists.mp hload
  obtain ⟨g, hlive⟩ := Option.isSome_iff_exists.mp hlive
  have hafter : calling.after [.advance 2] = e₁ := by simp [Engine.after, run?, hload]
  rw [hafter] at hrun'
  obtain ⟨-, -, -, hselects⟩ := log_calls_select_by_own_generation hrun
  obtain ⟨agenda, hagenda', hfollows⟩ := hselects 2 infoCall [] _ _ 0 g e₁ fx hagenda rfl rfl hlive hload _ _ hrun'
  obtain ⟨g', hg', htable⟩ := Option.map_eq_some_iff.mp haccept
  rw [hagenda', Option.bind_some] at hg'
  obtain ⟨deliveries, callback, rest, rfl⟩ := eq_of_accepted? hg'
  obtain ⟨rfl, -, hchosen⟩ := hfollows g' deliveries callback (.inl List.mem_cons_self)
  exact ⟨hchannels, g', deliveries, callback, rest, htable, hagenda', hchosen⟩

end Engine

end LogDispatch
