import LogDispatch.Proofs.Files
import LogDispatch.Proofs.Release

/-! Numbers in bounds. Whatever a state refers to by its number has been given one (`Bounded`), and numbers are
    never taken back (`AtLeast`). -/

namespace LogDispatch

/-! ### Numbers that have been given out -/

/-- At least as many numbers have been given out as before. -/
structure Engine.AtLeast (e e' : Engine) : Prop where
  tasks : e.agendas.length ≤ e'.agendas.length
  ids : e.nextId ≤ e'.nextId
  transports : e.transports.length ≤ e'.transports.length
  writers : e.files.writers.length ≤ e'.files.writers.length

/-- The numbers in the generation have been given out. -/
structure Generation.Below (g : Generation) (e : Engine) : Prop where
  id : g.id < e.nextId
  transports : ∀ r ∈ g.routes, r.transport < e.transports.length

/-- The numbers in the action have been given out. -/
def Action.Below (e : Engine) : Action → Prop
  | .screen _ g | .select _ g .. | .accept g .. | .fan g .. | .attempt g .. | .letGo g | .install g | .recalcAll g
  | .recalc g _ => g.Below e
  | .make d _ | .awaitCreate d .. => d.generation.Below e
  | .refresh _ table => table.generation < e.nextId
  | .free _ t => t < e.transports.length
  | .send w _ | .write w _ | .rest w => w < e.files.writers.length
  | _ => True

/-- The numbers in the device of the transport have been given out. -/
def Transport.Below (e : Engine) (t : Transport) : Prop := ∀ outlet, t.device = .file outlet →
  outlet.writer < e.files.writers.length

namespace Engine

/-- All numbers in the state have been given out. -/
structure Bounded (e : Engine) : Prop where
  agendas : ∀ agenda ∈ e.agendas, ∀ a ∈ agenda, a.Below e
  live : ∀ g, e.live = some g → g.Below e
  released : ∀ id ∈ e.released, id < e.nextId
  channels : ∀ (i : ChannelId) (c : Channel), e.channels[i]? = some c → c.table.generation < e.nextId
  transports : ∀ t ∈ e.transports, t.Below e
  files : e.files.Sound

section bounds
variable {e e' : Engine} {task : TaskId} {a : Action} {m : Move} {g : Generation} {rest next agenda : List Action}
  {op : Op} {fx : List Effect} {es : List Event}

theorem AtLeast.refl (e : Engine) : AtLeast e e := ⟨Nat.le_refl _, Nat.le_refl _, Nat.le_refl _, Nat.le_refl _⟩

theorem AtLeast.generation (h : AtLeast e e') (hg : g.Below e) : g.Below e' where
  id := Nat.lt_of_lt_of_le hg.id h.ids
  transports r hr := Nat.lt_of_lt_of_le (hg.transports r hr) h.transports

theorem AtLeast.action (h : AtLeast e e') (ha : a.Below e) : a.Below e' := by
  cases a <;> first
    | exact h.generation ha
    | exact Nat.lt_of_lt_of_le ha h.ids
    | exact Nat.lt_of_lt_of_le ha h.transports
    | exact Nat.lt_of_lt_of_le ha h.writers
    | trivial

theorem AtLeast.transport {t : Transport} (h : AtLeast e e') (ht : t.Below e) : t.Below e' :=
  fun outlet ho => Nat.lt_of_lt_of_le (ht outlet ho) h.writers

/-- What making a transport leaves of the bounds. -/
theorem Makes.bounds {d : Draft} {isReload : Bool} (h : Makes e d isReload e' next) (hb : Bounded e)
    (hd : d.generation.Below e) : AtLeast e e' ∧ (∀ b ∈ next, b.Below e') ∧ (∀ t ∈ e'.transports, t.Below e') ∧
      e'.files.Sound := by
  have hbuilding : ∀ (e : Engine) (isReload : Bool) (outcome : Outcome), ∀ b ∈ building isReload outcome, b.Below e := by
    intro e isReload outcome b hb
    cases isReload <;> simp [building] at hb <;> rcases hb with rfl | rfl | rfl <;> trivial
  cases h with
  | publish =>
    refine ⟨.refl e, fun b hmem => ?_, hb.transports, hb.files⟩
    cases isReload
    · rcases List.mem_cons.mp hmem with rfl | hmem
      · exact hd
      · exact hbuilding _ _ _ b hmem
    · simp only [publishing, if_true, List.cons_append, List.nil_append, List.mem_cons] at hmem
      rcases hmem with rfl | rfl | rfl | rfl | hmem
      · exact hd
      · exact hd
      · trivial
      · exact hd
      · exact hbuilding _ _ _ b hmem
  | abandon =>
    refine ⟨.refl e, fun b hmem => ?_, hb.transports, hb.files⟩
    rcases List.mem_append.mp hmem with hmem | hmem
    · obtain ⟨r, hr, rfl⟩ := List.mem_map.mp hmem
      exact hd.transports r hr
    · exact hbuilding _ _ _ b hmem
  | await =>
    refine ⟨.refl e, fun b hmem => ?_, hb.transports, hb.files⟩
    rw [List.mem_singleton.mp hmem]
    exact hd
  | @attach spec plan device files hcrafts =>
    have hcount : (e.transports ++ [({ device } : Transport)]).length = e.transports.length + 1 := List.length_append
    have hwriters : e.files.writers.length ≤ files.writers.length := by
      cases hcrafts with
      | console | custom => exact Nat.le_refl _
      | file _ _ _ _ hcreate => exact (File.Store.provides_create hcreate).writers
    have hmore : AtLeast e { e with files, transports := e.transports ++ [{ device }] } :=
      ⟨Nat.le_refl _, Nat.le_refl _, hcount ▸ Nat.le_succ _, hwriters⟩
    refine ⟨hmore, fun b hmem => ?_, fun t ht => ?_, ?_⟩
    · rw [List.mem_singleton.mp hmem]
      refine ⟨hd.id, fun r hr => ?_⟩
      rw [Draft.routes_attach] at hr
      rcases List.mem_append.mp hr with hr | hr
      · exact Nat.lt_of_lt_of_le (hd.transports r hr) hmore.transports
      · rw [List.mem_singleton.mp hr]
        exact hcount ▸ Nat.lt_succ_self _
    · rcases List.mem_append.mp ht with ht | ht
      · exact hmore.transport (hb.transports t ht)
      · rw [List.mem_singleton.mp ht]
        intro outlet hdevice
        cases hcrafts with
        | console | custom => cases hdevice
        | file _ _ _ _ hcreate =>
          obtain rfl := Device.file.inj hdevice
          exact (File.Store.provides_create hcreate).writer hb.files
    · cases hcrafts with
      | console | custom => exact hb.files
      | file _ _ _ _ hcreate => exact (File.Store.provides_create hcreate).sound hb.files

/-- A state with the same transports and with files that are kept has the bounds it had. -/
theorem bounds_of_keeps (hb : Bounded e) (htransports : e'.transports = e.transports)
    (hk : File.Store.Keeps e.files e'.files) : (∀ t ∈ e'.transports, t.Below e') ∧ e'.files.Sound := by
  refine ⟨fun t ht outlet ho => ?_, hk.sound hb.files⟩
  rw [htransports] at ht
  rw [hk.writers]
  exact hb.transports t ht outlet ho

theorem below_set {ts : List Transport} {t : Transport} (hts : ∀ t' ∈ ts, t'.Below e) (ht : t.Below e) (i : TransportId) :
    ∀ t' ∈ ts.set i t, t'.Below e := fun _ hmem => by
  rcases List.mem_or_eq_of_mem_set hmem with hmem | rfl
  · exact hts _ hmem
  · exact ht

/-- What a release of a transport leaves of the bounds. -/
theorem free_bounds (task : TaskId) (hb : Bounded e) (route : String) (t : TransportId) :
    (e.free task route t).engine.files.writers.length = e.files.writers.length ∧
      (e.free task route t).engine.transports.length = e.transports.length ∧
      (∀ t' ∈ (e.free task route t).engine.transports, t'.Below e) ∧ (e.free task route t).engine.files.Sound := by
  unfold Engine.free
  dsimp only
  split
  · exact ⟨rfl, rfl, hb.transports, hb.files⟩
  · rename_i transport htransport
    have hold := hb.transports transport (List.mem_of_getElem? htransport)
    have hfreed : Transport.Below e { transport with isFreed := true } := hold
    split
    · exact ⟨rfl, List.length_set, below_set hb.transports hfreed t, hb.files⟩
    · exact ⟨rfl, List.length_set, below_set hb.transports hfreed t, hb.files⟩
    · rename_i outlet hdevice
      refine ⟨File.Store.length_release outlet, by simp, below_set (below_set hb.transports hfreed t) ?_ t,
        File.Store.sound_release hb.files outlet⟩
      intro o ho
      obtain rfl := Device.file.inj ho
      exact hold outlet hdevice

/-- The action makes the next transport of a draft. -/
def isMaking : Action → Bool
  | .make .. | .awaitCreate .. => true
  | _ => false

/-- The numbers in what comes next have been given out. -/
theorem Next.below (hn : Next e a next) (hb : Bounded e) (ha : a.Below e) (hmaking : isMaking a = false)
    (hmore : AtLeast e e') (htaken : ∀ config isReload, a = .build config isReload → e'.nextId = e.nextId + 1) :
    ∀ b ∈ next, b.Below e' := by
  have hlive : ∀ g, e.live = some g → g.Below e' := fun g hg => hmore.generation (hb.live g hg)
  have hfrees : ∀ g : Generation, g.Below e → ∀ b ∈ frees g.routes, b.Below e' := fun g hg b hmem => by
    obtain ⟨r, hr, rfl⟩ := List.mem_map.mp hmem
    exact (hmore.generation hg).transports r hr
  have hbuilding : ∀ (isReload : Bool) (outcome : Outcome), ∀ b ∈ building isReload outcome, b.Below e' := by
    intro isReload outcome b hmem
    cases isReload <;> simp [building] at hmem <;> rcases hmem with rfl | rfl | rfl <;> trivial
  intro b hmem
  cases hn with
  | nothing => cases hmem
  | forbidden hg =>
    simp only [leaving, List.mem_cons, List.not_mem_nil, or_false] at hmem
    rcases hmem with rfl | rfl | rfl
    · exact hlive _ hg
    · trivial
    · trivial
  | load hg =>
    simp only [leaving, List.mem_cons, List.not_mem_nil, or_false] at hmem
    rcases hmem with rfl | rfl | rfl | rfl
    · exact hlive _ hg
    · exact hlive _ hg
    · trivial
    · trivial
  | screen hadm =>
    rw [List.mem_singleton.mp hmem]
    rcases admission_cases hadm with ⟨_, _, _, rfl⟩ | ⟨_, rfl⟩ <;> exact hmore.generation ha
  | reject | alone | answered | awaitOut | tell | awaitFree | check =>
    rw [List.mem_singleton.mp hmem]
    trivial
  | @send _ _ _ r _ _ _ _ hdevice hsender _ =>
    rw [List.mem_singleton.mp hmem]
    obtain ⟨-, rfl⟩ := File.Outlet.sender?_eq_some.mp hsender
    obtain ⟨t, ht, hfile⟩ := Option.map_eq_some_iff.mp hdevice
    exact Nat.lt_of_lt_of_le (hb.transports t (List.mem_of_getElem? ht) _ hfile) hmore.writers
  | noChannel | select | accept =>
    rw [List.mem_singleton.mp hmem]
    exact hmore.generation ha
  | stale =>
    rcases List.mem_pair.mp hmem with rfl | rfl
    · exact (hmore.generation ha).id
    · exact hmore.generation ha
  | unrouted =>
    rcases List.mem_pair.mp hmem with rfl | rfl
    · trivial
    · exact hmore.generation ha
  | fan =>
    obtain ⟨d, -, rfl⟩ := List.mem_map.mp hmem
    exact hmore.generation ha
  | dropped | disabled =>
    rcases List.mem_pair.mp hmem with rfl | rfl <;> trivial
  | @answer ack answer x =>
    cases hresult : answer.result x.route <;> simp [hresult, answerSteps] at hmem <;>
      rcases hmem with rfl | rfl | rfl <;> trivial
  | letGo => exact hfrees _ ha b hmem
  | close hg => exact hfrees _ (hb.live _ hg) b hmem
  | leave hg | install hg =>
    rw [List.mem_singleton.mp hmem]
    exact hlive _ hg
  | refused | faulty => exact hbuilding _ _ b hmem
  | draft hd =>
    obtain ⟨hid, -, hroutes, -⟩ := Draft.ofConfig_eq_ok hd
    rw [List.mem_singleton.mp hmem]
    refine ⟨?_, fun r hr => ?_⟩
    · rw [hid, htaken _ _ rfl]
      exact Nat.lt_succ_self _
    · rw [hroutes] at hr
      cases hr
  | publish | awaitCreate | abandon | attach | created | notCreated => cases hmaking
  | recalcAll =>
    rcases List.mem_append.mp hmem with hmem | hmem
    · obtain ⟨c, -, rfl⟩ := List.mem_map.mp hmem
      exact hmore.generation ha
    · rw [List.mem_singleton.mp hmem]
      trivial
  | register hg =>
    simp only [List.mem_cons, List.not_mem_nil, or_false] at hmem
    rcases hmem with rfl | rfl | rfl
    · trivial
    · exact hlive _ hg
    · trivial
  | write =>
    obtain ⟨answer, -, rfl⟩ := List.mem_map.mp hmem
    trivial

/-- What an action leaves of the bounds. -/
theorem Does.bounds (h : Does e task a m) (hb : Bounded e) (ha : a.Below e) :
    AtLeast e m.engine ∧ (∀ b ∈ m.next, b.Below m.engine) ∧ (∀ t ∈ m.engine.transports, t.Below m.engine) ∧
      m.engine.files.Sound := by
  have htasks : e.agendas.length ≤ m.engine.agendas.length := by rw [h.agendas]
  have hids := h.nextId_le
  have htaken : ∀ config isReload, a = .build config isReload → m.engine.nextId = e.nextId + 1 := by
    rintro config isReload rfl
    exact h.nextId_build
  -- All actions but those of making and releasing transports keep the transports and the files.
  have keep : isMaking a = false → m.engine.transports = e.transports → File.Store.Keeps e.files m.engine.files →
      AtLeast e m.engine ∧ (∀ b ∈ m.next, b.Below m.engine) ∧ (∀ t ∈ m.engine.transports, t.Below m.engine) ∧
        m.engine.files.Sound := fun hmaking htransports hkeeps => by
    have hmore : AtLeast e m.engine := ⟨htasks, hids, by rw [htransports], by rw [hkeeps.writers]⟩
    exact ⟨hmore, h.next.below hb ha hmaking hmore htaken, bounds_of_keeps hb htransports hkeeps⟩
  have hf := h.frame
  cases a
  case make d isReload => exact (makes_make h).bounds hb ha
  case awaitCreate d spec plan isReload => exact (makes_awaitCreate h).bounds hb ha
  case free route t =>
    have hm : e.free task route t = m := by
      cases h with
      | perform hp => exact Option.some.inj hp
    obtain ⟨hwriters, hlength, htransports, hsound⟩ := free_bounds task hb route t
    rw [hm] at hwriters hlength htransports hsound
    have hmore : AtLeast e m.engine := ⟨htasks, hids, by rw [hlength], by rw [hwriters]⟩
    exact ⟨hmore, h.next.below hb ha rfl hmore htaken, fun t' ht' => hmore.transport (htransports t' ht'), hsound⟩
  case send w job =>
    cases h with
    | perform hp =>
      obtain rfl := Option.some.inj hp
      exact keep rfl rfl (File.Store.keeps_send w job)
  case write w batch =>
    cases h with
    | perform hp =>
      obtain rfl := Option.some.inj hp
      exact keep rfl rfl (File.Store.keeps_write w batch)
  case rest w =>
    cases h with
    | perform hp =>
      obtain rfl := Option.some.inj hp
      exact keep rfl rfl (File.Store.keeps_rest w)
  all_goals
    dsimp only [Action.Changes] at hf
    exact keep rfl (congrArg Engine.transports hf :) (by rw [congrArg Engine.files hf]; exact ⟨rfl, rfl⟩)

theorem below_setAgenda {task : TaskId} {rest : List Action} (h : a.Below e) : a.Below (e.setAgenda task rest) := by
  cases a <;> first | exact ⟨h.id, h.transports⟩ | exact h

namespace Bounded

theorem start (setup : Setup) {files : File.Store} (config : Config) (hfiles : files.Sound) :
    Bounded (start setup files config) where
  agendas agenda hmem a ha := by
    rw [List.mem_singleton.mp hmem] at ha
    rw [List.mem_singleton.mp ha]
    trivial
  live _ h := by cases h
  released _ h := by cases h
  channels _ _ h := by cases h
  transports _ h := by cases h
  files := hfiles

theorem setAgenda (h : Bounded e) (hagenda : e.agendas[task]? = some (a :: rest)) : Bounded (e.setAgenda task rest) where
  agendas agenda hmem b hb := by
    refine below_setAgenda ?_
    rcases List.mem_or_eq_of_mem_set hmem with hmem | rfl
    · exact h.agendas agenda hmem b hb
    · exact h.agendas _ (List.mem_of_getElem? hagenda) b (List.mem_cons_of_mem _ hb)
  live g hg := ⟨(h.live g hg).id, (h.live g hg).transports⟩
  released := h.released
  channels := h.channels
  transports := h.transports
  files := h.files

/-- A task that begins has to do with numbers that have been given out. -/
theorem begin_below {request : Request} (h : Bounded e) (hs : e.begin? request = some e') :
    File.Store.Keeps e.files e'.files ∧ ∃ agenda, e'.agendas = e.agendas ++ [agenda] ∧ ∀ b ∈ agenda, b.Below e := by
  cases request with
  | serve writer lines =>
    obtain ⟨⟨files, batch⟩, htake, rfl⟩ := Option.map_eq_some_iff.mp hs
    refine ⟨File.Store.keeps_take? htake, _, rfl, fun b hb => ?_⟩
    have hwriter : writer < e.files.writers.length := by
      by_contra hnone
      simp [File.Store.take?, List.getElem?_eq_none (Nat.le_of_not_lt hnone)] at htake
    simp only [List.mem_cons, List.not_mem_nil, or_false] at hb
    rcases hb with rfl | rfl | rfl
    · exact hwriter
    · exact hwriter
    · trivial
  | keep =>
    obtain ⟨-, hs⟩ := Option.ite_none_right_eq_some.mp hs
    obtain ⟨g, hlive, rfl⟩ := Option.map_eq_some_iff.mp hs
    refine ⟨⟨rfl, rfl⟩, _, rfl, fun b hb => ?_⟩
    rcases List.mem_pair.mp hb with rfl | rfl
    · exact h.live g hlive
    · trivial
  | call | openChannel =>
    obtain ⟨-, hs⟩ := Option.ite_none_right_eq_some.mp hs
    obtain rfl := Option.some.inj hs
    refine ⟨⟨rfl, rfl⟩, _, rfl, fun b hb => ?_⟩
    rw [List.mem_singleton.mp hb]
    trivial
  | reload | leave =>
    obtain ⟨-, hs⟩ := Option.ite_none_right_eq_some.mp hs
    obtain rfl := Option.some.inj hs
    refine ⟨⟨rfl, rfl⟩, _, rfl, fun b hb => ?_⟩
    rcases List.mem_pair.mp hb with rfl | rfl <;> trivial
  | shutdown =>
    obtain ⟨-, hs⟩ := Option.ite_none_right_eq_some.mp hs
    obtain rfl := Option.some.inj hs
    refine ⟨⟨rfl, rfl⟩, _, rfl, fun b hb => ?_⟩
    simp only [List.mem_cons, List.not_mem_nil, or_false] at hb
    rcases hb with rfl | rfl | rfl | rfl | rfl <;> trivial
  | closeChannel channel =>
    obtain ⟨c, -, rfl⟩ := Option.map_eq_some_iff.mp hs
    refine ⟨⟨rfl, rfl⟩, _, rfl, fun b hb => ?_⟩
    rcases List.mem_pair.mp hb with rfl | rfl <;> trivial
  | answer ack answer =>
    simp only [begin?] at hs
    split at hs
    · split at hs
      · cases hs
      · obtain rfl := Option.some.inj hs
        refine ⟨⟨rfl, rfl⟩, _, rfl, fun b hb => ?_⟩
        rcases List.mem_pair.mp hb with rfl | rfl <;> trivial
    · cases hs

theorem begin_step {request : Request} (h : Bounded e) (hs : e.begin? request = some e') : Bounded e' := by
  obtain ⟨-, -, -, hcalm⟩ := begin_cases hs
  obtain ⟨hkeeps, agenda, hagendas, hbelow⟩ := h.begin_below hs
  have hmore : AtLeast e e' :=
    ⟨by simp [hagendas], Nat.le_of_eq hcalm.nextId.symm, by rw [hcalm.transports], by rw [hkeeps.writers]⟩
  refine ⟨fun x hx b hb => hmore.action ?_, fun g hg => hmore.generation (h.live g (hcalm.live ▸ hg)), fun id hid => ?_,
    fun i c hi => ?_, fun t ht => hmore.transport (h.transports t (hcalm.transports ▸ ht)), hkeeps.sound h.files⟩
  · rw [hagendas] at hx
    rcases List.mem_append.mp hx with hx | hx
    · exact h.agendas x hx b hb
    · rw [List.mem_singleton.mp hx] at hb
      exact hbelow b hb
  · rw [hcalm.nextId]
    exact h.released id (hcalm.released ▸ hid)
  · obtain ⟨c₀, hi₀, hsame⟩ := hcalm.tables i c hi
    rw [hcalm.nextId, hsame.table]
    exact h.channels i c₀ hi₀

theorem does (h : Bounded e) (ha : a.Below e) (hdoes : Does e task a m) :
    (∀ g, m.engine.live = some g → g.Below m.engine) ∧ (∀ id ∈ m.engine.released, id < m.engine.nextId) ∧
      ∀ (i : ChannelId) (c : Channel), m.engine.channels[i]? = some c → c.table.generation < m.engine.nextId := by
  obtain ⟨hmore, -⟩ := hdoes.bounds h ha
  refine ⟨fun g hg => ?_, fun id hid => ?_, fun i c hi => ?_⟩
  · rcases hdoes.live hg with hg | rfl
    · exact hmore.generation (h.live g hg)
    · exact hmore.generation ha
  · refine Nat.lt_of_lt_of_le ?_ hmore.ids
    rcases hdoes.released with heq | ⟨g, hr, hwhich⟩
    · exact h.released id (heq ▸ hid)
    · rw [hr.released] at hid
      rcases List.mem_cons.mp hid with rfl | hid
      · rcases hwhich with ⟨rfl, -⟩ | ⟨-, hlive, -⟩
        · exact ha.id
        · exact (h.live g hlive).id
      · exact h.released id hid
  · refine Nat.lt_of_lt_of_le ?_ hmore.ids
    cases hdoes.channelStep hi with
    | kept hc hsame =>
      rw [hsame.table]
      exact h.channels _ _ hc
    | refreshed => exact ha
    | recalculated => exact ha.id
    | registered hlive => exact (h.live _ hlive).id

theorem step (h : Bounded e) (hs : e.step? op = some (e', fx)) : Bounded e' := by
  rcases step_cases hs with ⟨request, -, hb, -⟩ | ⟨task, a, rest, m, -, hagenda, hdoes, rfl, -⟩
  · exact h.begin_step hb
  · have hbefore := h.setAgenda hagenda
    have ha : a.Below (e.setAgenda task rest) :=
      below_setAgenda (h.agendas _ (List.mem_of_getElem? hagenda) a List.mem_cons_self)
    obtain ⟨hmore, hnext, htransports, hfiles⟩ := hdoes.bounds hbefore ha
    obtain ⟨hlive, hreleased, hchannels⟩ := hbefore.does ha hdoes
    refine ⟨fun agenda hmem b hb => below_setAgenda ?_, fun g hg => ⟨(hlive g hg).id, (hlive g hg).transports⟩,
      hreleased, hchannels, htransports, hfiles⟩
    rw [agendas_setAgenda, hdoes.agendas, agendas_setAgenda, List.set_set] at hmem
    rcases mem_set_cases hmem with rfl | ⟨j, hne, hj⟩
    · rcases List.mem_append.mp hb with hb | hb
      · exact hnext b hb
      · exact hmore.action (below_setAgenda (h.agendas _ (List.mem_of_getElem? hagenda) b (List.mem_cons_of_mem _ hb)))
    · exact hmore.action (below_setAgenda (h.agendas _ (List.mem_of_getElem? hj) b hb))

theorem run (h : Bounded e) (hr : Run e es e') : Bounded e' := by
  induction hr with
  | refl => exact h
  | step _ hs ih => exact ih.step hs

end Bounded

/-- What has been given out is never taken back. -/
theorem step_atLeast (h : Bounded e) (hs : e.step? op = some (e', fx)) : AtLeast e e' := by
  rcases step_cases hs with ⟨request, -, hb, -⟩ | ⟨task, a, rest, m, -, hagenda, hdoes, rfl, -⟩
  · obtain ⟨-, -, -, hcalm⟩ := begin_cases hb
    obtain ⟨hkeeps, agenda, hagendas, -⟩ := h.begin_below hb
    exact ⟨by simp [hagendas], Nat.le_of_eq hcalm.nextId.symm, by rw [hcalm.transports], by rw [hkeeps.writers]⟩
  · have ha : a.Below (e.setAgenda task rest) :=
      below_setAgenda (h.agendas _ (List.mem_of_getElem? hagenda) a List.mem_cons_self)
    obtain ⟨hmore, -⟩ := hdoes.bounds (h.setAgenda hagenda) ha
    have htasks := hmore.tasks
    simp only [agendas_setAgenda, List.length_set] at htasks
    exact ⟨by simpa using htasks, hmore.ids, hmore.transports, hmore.writers⟩

theorem run_atLeast (h : Bounded e) (hr : Run e es e') : AtLeast e e' := by
  induction hr with
  | refl => exact .refl e
  | step hr hs ih =>
    have hnext := step_atLeast (h.run hr) hs
    exact ⟨Nat.le_trans ih.tasks hnext.tasks, Nat.le_trans ih.ids hnext.ids,
      Nat.le_trans ih.transports hnext.transports, Nat.le_trans ih.writers hnext.writers⟩

end bounds

end Engine

end LogDispatch
