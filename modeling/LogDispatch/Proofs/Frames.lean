import LogDispatch.Proofs.WellFormed

/-! Where variables come from. A scope looks a name up from its most specific frame on, and the least specific one, the
    process frame, has been laid together from the variables of the host, of the configuration and of the process. So
    each name has the value of the first of six layers that binds it (`Generation.Built.resolve?_eq_value?`), and a
    template depends on these values only (`Template.render_congr`). -/

namespace LogDispatch

/-- The value of a variable in a configuration. Of the names that are the same when trimmed, the last one counts. -/
def configured? (vars : SortedDict Json) (name : String) : Option Value :=
  (vars.entries.reverse.find? fun e => Text.trim e.1 == name).map fun e => Value.ofJson e.2

/-- What the variables of a record come from, most specific first. -/
structure Layers where
  own : Frame
  /-- The frames of the caller, in the order in which they were added. -/
  caller : List Frame
  channel : Option Frame
  host : Frame
  configured : SortedDict Json
  process : Frame

/-- The value in the first layer that binds the name, even to null or false. -/
def Layers.value? (l : Layers) (name : String) : Option Value :=
  (l.own.get? name)
    |>.or (l.caller.reverse.findSome? (·.get? name))
    |>.or (l.channel.bind (·.get? name))
    |>.or (l.host.get? name)
    |>.or (configured? l.configured name)
    |>.or (l.process.get? name)

variable {name : String} {value : Value} {own : Frame} {caller : List Frame} {channel : Option Frame}

/-! ### Variables of the configuration -/

theorem configured?_greatest {vars : SortedDict Json} (h : configured? vars name = some value) :
    ∃ key json, vars.get? key = some json ∧ Text.trim key = name ∧ value = Value.ofJson json ∧
      ∀ key' json', vars.get? key' = some json' → Text.trim key' = name → key' ≤ key := by
  obtain ⟨⟨key, json⟩, hfound, rfl⟩ := Option.map_eq_some_iff.mp h
  obtain ⟨htrim, later, earlier, hsplit, hlater⟩ := List.find?_eq_some_iff_append.mp hfound
  have hentries : vars.entries = earlier.reverse ++ (key, json) :: later.reverse := by
    rw [← List.reverse_inj, hsplit]
    simp
  refine ⟨key, json, SortedDict.get?_eq_some_iff.mpr (by simp [hentries]), eq_of_beq htrim, rfl, ?_⟩
  intro key' json' hget htrim'
  have hmem : (key', json') ∈ earlier.reverse ++ (key, json) :: later.reverse := hentries ▸ SortedDict.mem_of_get? hget
  have hsorted := hentries ▸ vars.sorted
  rcases List.mem_append.mp hmem with hearlier | hrest
  · exact String.not_lt.mp (String.lt_asymm ((List.pairwise_append.mp hsorted).2.2 _ hearlier _ List.mem_cons_self))
  · rcases List.mem_cons.mp hrest with heq | hmem'
    · obtain ⟨rfl, -⟩ := Prod.mk.inj heq
      exact String.le_refl _
    · -- An entry behind the one that was found has another name.
      have hother := hlater _ (List.mem_reverse.mp hmem')
      simp [htrim'] at hother

theorem configured?_eq_some_iff {vars : SortedDict Json} : configured? vars name = some value ↔
    ∃ key json, vars.get? key = some json ∧ Text.trim key = name ∧ value = Value.ofJson json ∧
      ∀ key' json', vars.get? key' = some json' → Text.trim key' = name → key' ≤ key := by
  refine ⟨configured?_greatest, ?_⟩
  rintro ⟨key, json, hget, htrim, rfl, hgreatest⟩
  cases hfound : configured? vars name with
  | none =>
    rw [configured?, Option.map_eq_none_iff, List.find?_eq_none] at hfound
    have hother := hfound (key, json) (List.mem_reverse.mpr (SortedDict.mem_of_get? hget))
    simp [htrim] at hother
  | some value =>
    obtain ⟨key', json', hget', htrim', rfl, hgreatest'⟩ := configured?_greatest hfound
    obtain rfl : key' = key := String.le_antisymm (hgreatest _ _ hget' htrim') (hgreatest' _ _ hget htrim)
    obtain rfl := Option.some.inj (hget'.symm.trans hget)
    rfl

/-! ### Frames -/

theorem ProcessInfo.get?_frame {p : ProcessInfo} {vars : SortedDict Json} {extra : Frame} :
    (p.frame vars extra).get? name = ((extra.get? name).or (configured? vars name)).or (p.builtins.get? name) := by
  rw [frame, Dict.get?_merge, Dict.get?_insertAll, Option.or_assoc, ← List.map_reverse, List.find?_map, Option.map_map]
  rfl

theorem Generation.resolve?_scopeFor_eq {g : Generation} : (g.scopeFor channel caller own).resolve? name =
    ((own.get? name).or (caller.reverse.findSome? (·.get? name)) |>.or (channel.bind (·.get? name))).or
      (g.frame.get? name) := by
  have hframes : (g.scopeFor channel caller own).frames.reverse =
      own :: (caller.reverse ++ (channel.toList ++ [g.frame])) := by
    cases channel <;> simp [scopeFor]
  rw [Scope.resolve?, hframes, List.findSome?_cons, List.findSome?_append, List.findSome?_append]
  cases channel <;> cases own.get? name <;> simp [Option.or_assoc]

section
variable {setup : Setup} {config : Config} {d : Draft} {g : Generation}

/-- The process frame is the one that a generation made from the configuration has. -/
def Setup.Frames (setup : Setup) (config : Config) (frame : Frame) : Prop :=
  ∃ roles, NamePair.ofOption "roles" .roles config.roles = .ok roles ∧
    frame = ProcessInfo.frame ⟨setup.role, roles, setup.workerId, setup.surroundings⟩ config.vars setup.vars

/-- The process frame of a generation is that of its setup and configuration. -/
theorem Draft.frame_ofConfig {id : GenerationId} (h : ofConfig setup id config = .ok d) :
    setup.Frames config d.generation.frame := by
  unfold ofConfig at h
  obtain ⟨_, -, h⟩ := bind_eq_ok h
  obtain ⟨roles, hroles, h⟩ := bind_eq_ok h
  iterate 10 obtain ⟨_, -, h⟩ := bind_eq_ok h
  obtain rfl := Except.ok.inj h
  exact ⟨roles, checked_eq_ok hroles, rfl⟩

theorem Drafted.frame (h : Drafted setup config d) : setup.Frames config d.generation.frame := by
  induction h with
  | start h => exact Draft.frame_ofConfig h
  | attach _ _ _ _ ih => exact ih

theorem Generation.Built.frame (h : g.Built setup config) : setup.Frames config g.frame := by
  obtain ⟨hd, -⟩ := h
  exact hd.frame

/-- A scope of the generation gives each name the value in the first layer that binds it. -/
theorem Generation.Built.resolve?_eq_value? (h : g.Built setup config) :
    ∃ roles, NamePair.ofOption "roles" .roles config.roles = .ok roles ∧ ∀ channel caller own name,
      (g.scopeFor channel caller own).resolve? name = Layers.value? ⟨own, caller, channel, setup.vars, config.vars,
        ProcessInfo.builtins ⟨setup.role, roles, setup.workerId, setup.surroundings⟩⟩ name := by
  obtain ⟨roles, hroles, hframe⟩ := h.frame
  refine ⟨roles, hroles, fun channel caller own name => ?_⟩
  rw [Generation.resolve?_scopeFor_eq, hframe, ProcessInfo.get?_frame, Layers.value?]
  simp only [Option.or_assoc]

end

/-! ### Templates -/

section
variable {s s' : Scope}

theorem Reference.evaluate_congr {r : Reference} (h : s.resolve? r.name = s'.resolve? r.name) :
    r.evaluate s = r.evaluate s' := by
  rw [evaluate, evaluate, h]

theorem Template.render_congr {t : Template} (h : ∀ name ∈ t.variableNames, s.resolve? name = s'.resolve? name) :
    t.render s = t.render s' := by
  have hsegments : ∀ segment ∈ t.segments, segment.render s = segment.render s' := by
    intro segment hsegment
    cases segment with
    | literal => rfl
    | reference r =>
      have hname : r.name ∈ t.variableNames := List.mem_filterMap.mpr ⟨_, hsegment, rfl⟩
      rw [Segment.render, Segment.render, Reference.evaluate_congr (h r.name hname)]
  rw [render, render, mapM_congr hsegments]

end

end LogDispatch
