import LogDispatch.Config.Reader
import LogDispatch.Config.Writer
import LogDispatch.Proofs.JsonText

/-! A configuration read back from its text is the configuration that was printed (`parse_text`). -/

namespace LogDispatch.Config

/-! ### Fields -/

section
variable {α : Type} {members : List (String × Json)} {name : String} {default a : α} {read? : Json → Option α}

/-- Among members of different names a field is looked up. -/
theorem field?_eq_lookup (h : (members.map (·.1)).Nodup) :
    field? members name default read? = ((members.lookup name).map read?).getD (some default) := by
  induction members with
  | nil => rfl
  | cons m ms ih =>
    obtain ⟨key, j⟩ := m
    rw [List.map_cons, List.nodup_cons] at h
    by_cases hkey : key = name
    · subst hkey
      have hrest : ms.filter (·.1 == key) = [] := by
        rw [List.filter_eq_nil_iff]
        intro m hm heq
        exact h.1 (List.mem_map.mpr ⟨m, hm, beq_iff_eq.mp heq⟩)
      simp [field?, hrest]
    · have hne : (name == key) = false := by simpa using Ne.symm hkey
      rw [List.lookup_cons, hne, ← ih h.2]
      simp [field?, hkey]

theorem eq_default_or_of_field? (h : field? members name default read? = some a) :
    a = default ∨ ∃ m ∈ members, read? m.2 = some a := by
  unfold field? at h
  split at h
  · exact .inl (Option.some.inj h).symm
  · rename_i name' j hfilter
    have hmem : (name', j) ∈ members.filter (·.1 == name) := by simp [hfilter]
    exact .inr ⟨_, List.mem_of_mem_filter hmem, h⟩
  · cases h

end

/-! ### What is written is read back -/

section
variable {α : Type} {read? : Json → Option α} {write : α → Json}

theorem optional?_optionalJson {o : Option α} (hnull : ∀ a, write a ≠ .null) (h : ∀ a ∈ o, read? (write a) = some a) :
    optional? read? (optionalJson write o) = some o := by
  cases o with
  | none => rfl
  | some a =>
    rw [optionalJson, optional?, h a rfl, Option.map_some]
    exact hnull a

theorem list?_listJson {as : List α} (h : ∀ a ∈ as, read? (write a) = some a) :
    list? read? (listJson write as) = some as := by
  simp only [list?, listJson, Json.items?, Option.bind_eq_bind, Option.bind_some]
  induction as with
  | nil => rfl
  | cons a as ih =>
    rw [List.map_cons, List.mapM_cons, h a List.mem_cons_self, ih fun a ha => h a (List.mem_cons_of_mem _ ha)]
    rfl

theorem mapM_entries {es : List (String × α)} (h : ∀ e ∈ es, read? (write e.2) = some e.2) :
    (es.map fun e => (e.1, write e.2)).mapM (fun m => (read? m.2).map (m.1, ·)) = some es := by
  induction es with
  | nil => rfl
  | cons e es ih =>
    rw [List.map_cons, List.mapM_cons, h e List.mem_cons_self, ih fun e he => h e (List.mem_cons_of_mem _ he)]
    rfl

theorem dict?_dictJson {d : SortedDict α} (h : ∀ e ∈ d.entries, read? (write e.2) = some e.2) :
    dict? read? (dictJson write d) = some d := by
  simp only [dict?, dictJson, Json.members?, Option.bind_eq_bind, Option.bind_some]
  rw [mapM_entries h, Option.bind_some, SortedDict.ofList_entries]

end

theorem texts_readBack (o : Option (List String)) :
    optional? (list? Json.string?) (optionalJson (listJson Json.string) o) = some o :=
  optional?_optionalJson (fun _ => Json.noConfusion) fun _ _ => list?_listJson fun _ _ => rfl

theorem text_readBack (o : Option String) : optional? Json.string? (optionalJson Json.string o) = some o :=
  optional?_optionalJson (fun _ => Json.noConfusion) fun _ _ => rfl

theorem langEntry_readBack (e : LangEntry) : langEntry? (langEntryJson e) = some e := by
  cases e with
  | «alias» => rfl
  | catalog messages =>
    have h : dict? Json.string? (dictJson Json.string messages) = some messages := dict?_dictJson fun _ _ => rfl
    rw [langEntryJson, langEntry?, h, Option.map_some]
    exact fun _ => Json.noConfusion

theorem ruleEntry_readBack (e : RuleEntry) : ruleEntry? (ruleEntryJson e) = some e := by
  cases e with
  | pattern => rfl
  | levels byPattern =>
    have h : dict? Json.string? (dictJson Json.string byPattern) = some byPattern := dict?_dictJson fun _ _ => rfl
    rw [ruleEntryJson, ruleEntry?, h, Option.map_some]
    exact fun _ => Json.noConfusion

theorem handlers_readBack (h : Handlers) : handlers? (handlersJson h) = some h := by
  cases h with
  | one => rfl
  | many formats =>
    have h : list? Json.string? (listJson Json.string formats) = some formats := list?_listJson fun _ _ => rfl
    rw [handlersJson, handlers?, h, Option.map_some]
    exact fun _ => Json.noConfusion

theorem rules_readBack (o : Option (List RuleEntry)) :
    optional? (list? ruleEntry?) (optionalJson (listJson ruleEntryJson) o) = some o :=
  optional?_optionalJson (fun _ => Json.noConfusion) fun _ _ => list?_listJson fun e _ => ruleEntry_readBack e

theorem events_readBack (o : Option (SortedDict Handlers)) :
    optional? (dict? handlers?) (optionalJson (dictJson handlersJson) o) = some o :=
  optional?_optionalJson (fun _ => Json.noConfusion) fun _ _ => dict?_dictJson fun e _ => handlers_readBack e.2

/-- The settings of a route are under names of their own, each value in canonical form. -/
def HasOwnOptions (r : RouteSpec) : Prop :=
  ∀ e ∈ r.options.entries, e.1 ∉ routeFields ∧ e.2.canonical = e.2

theorem ownOptions_eq {r : RouteSpec} (h : HasOwnOptions r) {fixed : List (String × Json)}
    (hfixed : ∀ m ∈ fixed, m.1 ∈ routeFields) :
    SortedDict.ofList (((fixed ++ r.options.entries).filter fun m => !routeFields.contains m.1).map
      fun m => (m.1, m.2.canonical)) = r.options := by
  have hnone : fixed.filter (fun m => !routeFields.contains m.1) = [] := by
    refine List.filter_eq_nil_iff.mpr fun m hm => ?_
    simpa using hfixed m hm
  have hall : r.options.entries.filter (fun m => !routeFields.contains m.1) = r.options.entries := by
    refine List.filter_eq_self.mpr fun e he => ?_
    simpa using (h e he).1
  rw [List.filter_append, hnone, hall, List.nil_append]
  exact Json.canonical_entries fun e he => (h e he).2

theorem routeSpec_readBack {r : RouteSpec} (h : HasOwnOptions r) : routeSpec? (routeSpecJson r) = some r := by
  have hnodup : (routeFields ++ r.options.entries.map (·.1)).Nodup := by
    refine List.nodup_append.mpr ⟨by decide, SortedDict.nodup_keys, ?_⟩
    intro a ha b hb hab
    obtain ⟨e, he, rfl⟩ := List.mem_map.mp hb
    exact (h e he).1 (hab ▸ ha)
  have htags : list? Json.string? (listJson Json.string r.tags) = some r.tags := list?_listJson fun _ _ => rfl
  -- Not by simp, which goes through what follows a bind again for each bind before it.
  dsimp only [routeSpec?, routeSpecJson, Json.members?, Option.bind_eq_bind, Option.bind_some]
  rw [ownOptions_eq h (by simp [routeFields])]
  repeat rw [field?_eq_lookup (by rw [List.map_append]; exact hnodup)]
  dsimp only [List.cons_append, List.nil_append, List.lookup_cons, String.reduceBEq, Option.map_some, Option.getD_some]
  repeat first | rw [text_readBack] | rw [rules_readBack] | rw [events_readBack] | rw [htags]
  rfl

/-- What every configuration has that was read: its variables and the settings of its routes are in canonical form,
    and no setting of a route is under the name of a field. -/
structure IsCanonical (c : Config) : Prop where
  vars : ∀ e ∈ c.vars.entries, e.2.canonical = e.2
  routes : ∀ rs ∈ c.routes, ∀ r ∈ rs, HasOwnOptions r

theorem nodup_fields : fields.Nodup := by decide

/-- Writing and reading keep every field of a configuration. -/
theorem ofJson?_toJson {c : Config} (h : c.IsCanonical) : ofJson? c.toJson = some c := by
  have hvars : dict? (fun j => some j.canonical) (.object c.vars.entries) = some c.vars := by
    have hwrite : Json.object c.vars.entries = dictJson id c.vars := by simp [dictJson]
    rw [hwrite]
    exact dict?_dictJson fun e he => congrArg some (h.vars e he)
  have hmessages : optional? (dict? langEntry?) (optionalJson (dictJson langEntryJson) c.messages) = some c.messages :=
    optional?_optionalJson (fun _ => Json.noConfusion) fun _ _ => dict?_dictJson fun e _ => langEntry_readBack e.2
  have hformats : dict? Json.string? (dictJson Json.string c.formats) = some c.formats := dict?_dictJson fun _ _ => rfl
  have hroutes : optional? (list? routeSpec?) (optionalJson (listJson routeSpecJson) c.routes) = some c.routes :=
    optional?_optionalJson (fun _ => Json.noConfusion) fun rs hrs =>
      list?_listJson fun r hr => routeSpec_readBack (h.routes rs hrs r hr)
  dsimp only [toJson, ofJson?, ofMembers?, Option.bind_eq_bind]
  repeat rw [field?_eq_lookup (by exact nodup_fields)]
  dsimp only [List.lookup_cons, String.reduceBEq, Option.map_some, Option.getD_some]
  repeat first | rw [text_readBack] | rw [texts_readBack] | rw [rules_readBack] | rw [events_readBack]
  rw [hvars, hmessages, hformats, hroutes]
  rfl

/-! ### What was read -/

section
variable {α β : Type} {read? : Json → Option α} {j : Json}

theorem mem_of_mapM_eq_some {f : α → Option β} {xs : List α} {ys : List β} (h : xs.mapM f = some ys) :
    ∀ y ∈ ys, ∃ x ∈ xs, f x = some y := by
  induction xs generalizing ys with
  | nil =>
    obtain rfl := Option.some.inj h
    exact fun y hy => absurd hy List.not_mem_nil
  | cons x xs ih =>
    rw [List.mapM_cons] at h
    obtain ⟨y, hy, h⟩ := Option.bind_eq_some_iff.mp h
    obtain ⟨rest, hrest, h⟩ := Option.bind_eq_some_iff.mp h
    obtain rfl := Option.some.inj h
    refine List.forall_mem_cons.mpr ⟨⟨x, List.mem_cons_self, hy⟩, fun z hz => ?_⟩
    obtain ⟨x', hx', hz⟩ := ih hrest z hz
    exact ⟨x', List.mem_cons_of_mem x hx', hz⟩

theorem optional?_eq_some {o : Option α} (h : optional? read? j = some o) : ∀ a ∈ o, read? j = some a := by
  intro a ha
  cases j with
  | null =>
    obtain rfl := Option.some.inj h
    cases ha
  | _ =>
    obtain ⟨b, hb, rfl⟩ := Option.map_eq_some_iff.mp h
    rwa [← Option.mem_some_iff.mp ha]

theorem list?_eq_some {as : List α} (h : list? read? j = some as) :
    ∃ items, j = .array items ∧ ∀ a ∈ as, ∃ i ∈ items, read? i = some a := by
  obtain ⟨items, hitems, h⟩ := Option.bind_eq_some_iff.mp h
  cases j <;> cases hitems
  exact ⟨items, rfl, mem_of_mapM_eq_some h⟩

theorem dict?_eq_some {d : SortedDict α} (h : dict? read? j = some d) :
    ∃ members, j = .object members ∧ ∀ e ∈ d.entries, ∃ m ∈ members, read? m.2 = some e.2 := by
  simp only [dict?, Option.bind_eq_bind, Option.bind_eq_some_iff] at h
  obtain ⟨members, hmembers, entries, hentries, h⟩ := h
  obtain rfl := Option.some.inj h
  cases j <;> cases hmembers
  refine ⟨members, rfl, fun e he => ?_⟩
  obtain ⟨m, hm, hread⟩ := mem_of_mapM_eq_some hentries e (SortedDict.mem_of_mem_ofList he)
  obtain ⟨a, ha, rfl⟩ := Option.map_eq_some_iff.mp hread
  exact ⟨m, hm, ha⟩

end

/-- The values that a configuration keeps as they are stand so deep in a text that it can be printed again. -/
structure Within (d : Nat) (c : Config) : Prop where
  vars : ∀ e ∈ c.vars.entries, Json.Fits (d + 1) e.2
  routes : ∀ rs ∈ c.routes, ∀ r ∈ rs, ∀ e ∈ r.options.entries, Json.Fits d e.2

theorem options_of_routeSpec? {d : Nat} {j : Json} {r : RouteSpec} (h : routeSpec? j = some r)
    (hj : Json.Fits (d + 1) j) : HasOwnOptions r ∧ ∀ e ∈ r.options.entries, Json.Fits d e.2 := by
  obtain ⟨ms, hms, h⟩ := Option.bind_eq_some_iff.mp h
  iterate 12 obtain ⟨_, -, h⟩ := Option.bind_eq_some_iff.mp h
  obtain rfl := Option.some.inj h
  cases j <;> cases hms
  have hmem : ∀ e ∈ (SortedDict.ofList ((ms.filter fun m => !routeFields.contains m.1).map
      fun m => (m.1, m.2.canonical))).entries, ∃ m ∈ ms, m.1 ∉ routeFields ∧ e = (m.1, m.2.canonical) := by
    intro e he
    obtain ⟨m, hm, rfl⟩ := List.mem_map.mp (SortedDict.mem_of_mem_ofList he)
    obtain ⟨hm, hown⟩ := List.mem_filter.mp hm
    exact ⟨m, hm, by simpa using hown, rfl⟩
  constructor
  · intro e he
    obtain ⟨m, hm, hown, rfl⟩ := hmem e he
    exact ⟨hown, Json.canonical_canonical _⟩
  · intro e he
    obtain ⟨m, hm, -, rfl⟩ := hmem e he
    exact (Json.Fits.members hj m hm).canonical

theorem fields_of_ofMembers? {ms : List (String × Json)} {c : Config} (h : ofMembers? ms = some c) :
    field? ms "variables" .empty (dict? fun j => some j.canonical) = some c.vars ∧
      field? ms "routes" none (optional? (list? routeSpec?)) = some c.routes := by
  iterate 7 obtain ⟨_, -, h⟩ := Option.bind_eq_some_iff.mp h
  obtain ⟨vars, hvars, h⟩ := Option.bind_eq_some_iff.mp h
  iterate 8 obtain ⟨_, -, h⟩ := Option.bind_eq_some_iff.mp h
  obtain ⟨routes, hroutes, h⟩ := Option.bind_eq_some_iff.mp h
  obtain rfl := Option.some.inj h
  exact ⟨hvars, hroutes⟩

theorem members_of_ofJson? {d : Nat} {j : Json} {c : Config} (h : ofJson? j = some c) (hj : Json.Fits (d + 1) j) :
    ∃ ms, ofMembers? ms = some c ∧ ∀ m ∈ ms, Json.Fits d m.2 := by
  cases j with
  | object members => exact ⟨members, h, Json.Fits.members hj⟩
  | array items =>
    obtain ⟨-, h⟩ := Option.ite_none_right_eq_some.mp h
    exact ⟨_, h, fun m hm => Json.Fits.items hj m.2 (List.of_mem_zip hm).2⟩
  | _ => cases h

/-- What a configuration keeps of a value as it is, is in canonical form and within the limits of that value. -/
theorem kept_of_ofJson? {d : Nat} {j : Json} {c : Config} (h : ofJson? j = some c) (hj : Json.Fits (d + 3) j) :
    c.IsCanonical ∧ c.Within d := by
  obtain ⟨ms, h, hms⟩ := members_of_ofJson? h hj
  obtain ⟨hvars, hroutes⟩ := fields_of_ofMembers? h
  have hvar : ∀ e ∈ c.vars.entries, e.2.canonical = e.2 ∧ Json.Fits (d + 1) e.2 := by
    obtain heq | ⟨m, hm, hread⟩ := eq_default_or_of_field? hvars
    · intro e he
      rw [heq] at he
      cases he
    · intro e he
      obtain ⟨members, hobject, hentries⟩ := dict?_eq_some hread
      obtain ⟨v, hv, hcanonical⟩ := hentries e he
      have hfits := Json.Fits.members (hobject ▸ hms m hm) v hv
      rw [← Option.some.inj hcanonical]
      exact ⟨Json.canonical_canonical _, hfits.canonical⟩
  have hroute : ∀ rs ∈ c.routes, ∀ r ∈ rs, HasOwnOptions r ∧ ∀ e ∈ r.options.entries, Json.Fits d e.2 := by
    obtain heq | ⟨m, hm, hread⟩ := eq_default_or_of_field? hroutes
    · intro rs hrs
      rw [heq] at hrs
      cases hrs
    · intro rs hrs r hr
      obtain ⟨items, harray, hitems⟩ := list?_eq_some (optional?_eq_some hread rs hrs)
      obtain ⟨i, hi, hread⟩ := hitems r hr
      exact options_of_routeSpec? hread (Json.Fits.items (harray ▸ hms m hm) i hi)
  exact ⟨⟨fun e he => (hvar e he).1, fun rs hrs r hr => (hroute rs hrs r hr).1⟩,
    ⟨fun e he => (hvar e he).2, fun rs hrs r hr => (hroute rs hrs r hr).2⟩⟩

/-! ### The text of what was read -/

section
variable {α : Type} {d : Nat} {write : α → Json}

theorem fits_optionalJson {o : Option α} (h : ∀ a ∈ o, Json.Fits d (write a)) : Json.Fits d (optionalJson write o) := by
  cases o with
  | none => exact .null
  | some a => exact h a rfl

theorem fits_listJson {as : List α} (h : ∀ a ∈ as, Json.Fits d (write a)) : Json.Fits (d + 1) (listJson write as) :=
  .array fun j hj => by
    obtain ⟨a, ha, rfl⟩ := List.mem_map.mp hj
    exact h a ha

theorem fits_dictJson {dict : SortedDict α} (h : ∀ e ∈ dict.entries, Json.Fits d (write e.2)) :
    Json.Fits (d + 1) (dictJson write dict) :=
  .object fun m hm => by
    obtain ⟨e, he, rfl⟩ := List.mem_map.mp hm
    exact h e he

theorem fits_text (o : Option String) : Json.Fits d (optionalJson Json.string o) :=
  fits_optionalJson fun _ _ => .string

theorem fits_texts (o : Option (List String)) : Json.Fits (d + 1) (optionalJson (listJson Json.string) o) :=
  fits_optionalJson fun _ _ => fits_listJson fun _ _ => .string

theorem fits_langEntryJson (e : LangEntry) : Json.Fits (d + 1) (langEntryJson e) := by
  cases e with
  | «alias» => exact .string
  | catalog => exact fits_dictJson fun _ _ => .string

theorem fits_ruleEntryJson (e : RuleEntry) : Json.Fits (d + 1) (ruleEntryJson e) := by
  cases e with
  | pattern => exact .string
  | levels => exact fits_dictJson fun _ _ => .string

theorem fits_handlersJson (h : Handlers) : Json.Fits (d + 1) (handlersJson h) := by
  cases h with
  | one => exact .string
  | many => exact fits_listJson fun _ _ => .string

theorem fits_rules (o : Option (List RuleEntry)) : Json.Fits (d + 2) (optionalJson (listJson ruleEntryJson) o) :=
  fits_optionalJson fun _ _ => fits_listJson fun e _ => fits_ruleEntryJson e

theorem fits_events (o : Option (SortedDict Handlers)) : Json.Fits (d + 2) (optionalJson (dictJson handlersJson) o) :=
  fits_optionalJson fun _ _ => fits_dictJson fun e _ => fits_handlersJson e.2

theorem fits_routeSpecJson {r : RouteSpec} (h : ∀ e ∈ r.options.entries, Json.Fits (d + 2) e.2) :
    Json.Fits (d + 3) (routeSpecJson r) := by
  refine .object (List.forall_mem_append.mpr ⟨?_, h⟩)
  simp only [List.forall_mem_cons]
  exact ⟨fits_text _, fits_text _, fits_text _, fits_text _, fits_rules _, fits_rules _, fits_rules _, fits_rules _,
    fits_text _, fits_text _, fits_events _, fits_listJson fun _ _ => .string, fun m hm => absurd hm List.not_mem_nil⟩

/-- What is written around the kept values is less deep than a reader allows. -/
theorem fits_toJson {c : Config} (h : c.Within (d + 2)) : Json.Fits (d + 5) c.toJson := by
  refine .object ?_
  simp only [List.forall_mem_cons]
  exact ⟨fits_text _, fits_texts _, fits_texts _, fits_texts _, .bool,
    fits_optionalJson fun _ _ => fits_dictJson fun e _ => fits_langEntryJson e.2, fits_text _, .object h.vars,
    fits_dictJson fun _ _ => .string, fits_text _, fits_text _, fits_text _, fits_text _, fits_rules _, fits_rules _,
    fits_events _, fits_optionalJson fun rs hrs => fits_listJson fun r hr => fits_routeSpecJson (h.routes rs hrs r hr),
    fun m hm => absurd hm List.not_mem_nil⟩

end

theorem knownMembers?_eq_self {d : Nat} {entries : List (List Json.Piece × Json.Shape)}
    {members : List (String × Json)} (h : Json.ofMembers? d entries = some members)
    (hknown : ∀ m ∈ members, m.1 ∈ fields) : knownMembers? entries = some entries := by
  induction entries generalizing members with
  | nil => rfl
  | cons e entries ih =>
    obtain ⟨name, s⟩ := e
    rw [Json.ofMembers?] at h
    simp only [Option.bind_eq_bind, Option.bind_eq_some_iff] at h
    obtain ⟨key, hkey, j, -, rest, hrest, h⟩ := h
    obtain rfl := Option.some.inj h
    obtain ⟨hhead, htail⟩ := List.forall_mem_cons.mp hknown
    simp [knownMembers?, hkey, ih hrest htail, show key ∈ fields from hhead]

theorem json?_text {c : Config} (h : Json.Fits Json.maxDepth c.toJson)
    (hreal : ∀ f, .real f ∈ c.toJson.numbers → (Json.Number.real f).ReadsBack) : json? c.text = some c.toJson := by
  obtain ⟨s, htext, hvalue⟩ := h.ofText?_text hreal
  have hobject : ∃ entries, s = .object entries ∧ knownMembers? entries = some entries := by
    rw [toJson] at hvalue
    cases s with
    | object entries =>
      obtain ⟨members, hmembers, heq⟩ := Option.map_eq_some_iff.mp hvalue
      obtain rfl := Json.object.inj heq
      exact ⟨entries, rfl, knownMembers?_eq_self hmembers (by simp [fields])⟩
    | _ => simp [Json.ofShape?, Json.maxDepth] at hvalue
  obtain ⟨entries, rfl, hknown⟩ := hobject
  rw [json?, text, htext]
  simp [hknown, hvalue]

theorem exists_of_parse {s : String} {c : Config} (h : parse s = .ok c) :
    ∃ j, Json.Fits Json.maxDepth j ∧ ofJson? j = some c := by
  unfold parse at h
  split at h
  · rename_i c' hparse
    obtain rfl := Except.ok.inj h
    obtain ⟨j, hj, hread⟩ := Option.bind_eq_some_iff.mp hparse
    obtain ⟨shape, -, hj⟩ := Option.bind_eq_some_iff.mp hj
    have hvalue : ∃ shape', Json.ofShape? Json.maxDepth shape' = some j := by
      split at hj
      · obtain ⟨shape', -, hvalue⟩ := Option.bind_eq_some_iff.mp hj
        exact ⟨shape', hvalue⟩
      · exact ⟨shape, hj⟩
    obtain ⟨shape', hvalue⟩ := hvalue
    exact ⟨j, Json.fits_of_ofShape? hvalue, hread⟩
  · cases h

/-- A configuration that was read is the one that is read off its own text: no setting of a route, list of rules,
    entry or variable is lost, renamed or changed. That doubles are read back as they were printed is assumed. -/
theorem parse_text {s : String} {c : Config} (h : parse s = .ok c) :
    ofJson? c.toJson = some c ∧
      ((∀ f, .real f ∈ c.toJson.numbers → (Json.Number.real f).ReadsBack) → parse c.text = .ok c) := by
  obtain ⟨j, hj, hread⟩ := exists_of_parse h
  obtain ⟨hcanonical, hwithin⟩ := kept_of_ofJson? (d := 124) hread hj
  have hvalue := ofJson?_toJson hcanonical
  refine ⟨hvalue, fun hreal => ?_⟩
  have hjson := json?_text (fits_toJson (d := 122) hwithin) hreal
  rw [parse, hjson, Option.bind_eq_bind, Option.bind_some, hvalue]

/-- A language that follows another, a plain rule and one with a level, a list of formats, and a setting. -/
def sample : String :=
  "\x7b\"messages\":\x7b\"en\":\"fr\"\x7d,\"include\":[\"a\"]," ++
    "\"routes\":[\x7b\"include+\":[\x7b\"db\":\"warn\"\x7d],\"events\":\x7b\"x\":[\"a\"]\x7d,\"n\":42\x7d]\x7d"

theorem parse_text_sample : ∃ c, parse sample = .ok c ∧ ofJson? c.toJson = some c ∧ parse c.text = .ok c := by
  have hints : (match parse sample with
      | .ok c => c.toJson.numbers.all fun n => n.toInt?.isSome
      | .error _ => false) = true := by decide +kernel
  cases h : parse sample with
  | error => simp [h] at hints
  | ok c =>
    simp only [h] at hints
    obtain ⟨hvalue, htext⟩ := parse_text h
    refine ⟨c, rfl, hvalue, htext fun f hf => ?_⟩
    simpa [Json.Number.toInt?] using List.all_eq_true.mp hints _ hf

end LogDispatch.Config
