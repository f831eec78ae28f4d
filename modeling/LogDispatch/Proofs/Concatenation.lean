import LogDispatch.Proofs.Outcomes
import LogDispatch.Proofs.Readable

/-! Templates one after the other. Main statement: two templates, the first of which does not end in a backslash or a
    dollar sign, are one template together, which renders what the first renders and then what the second renders. Hence
    a reference without a value leaves the text around it as it is (`template_append`).

    Nothing that the reader holds back crosses the seam: the first text is closed, so the reader stands outside of
    references there, and no character of it waits for the next one (`chunks_append`). -/

namespace LogDispatch

namespace Template

variable {cs ds : List Char} {c : Char}

/-! ### The chunks of two texts -/

/-- A chunk in front of others. Literal text goes on in a literal that follows. -/
def Chunk.before : Chunk → List Chunk → List Chunk
  | .literal cs, cks => cs.foldr consLiteral cks
  | ck, cks => ck :: cks

theorem foldr_before_consLiteral (cks more : List Chunk) :
    (consLiteral c cks).foldr Chunk.before more = consLiteral c (cks.foldr Chunk.before more) := by
  unfold consLiteral
  split <;> rfl

theorem unclosed_consLiteral {cks : List Chunk} : .unclosed ∉ consLiteral c cks ↔ .unclosed ∉ cks := by
  unfold consLiteral
  split <;> simp

/-- No character at the end of a text is read together with what follows. -/
structure Loose (cs : List Char) : Prop where
  escape : cs.getLast? ≠ some '\\'
  opening : cs.getLast? ≠ some '$'

theorem Loose.tail (h : Loose (c :: cs)) : Loose cs := ⟨getLast?_tail h.escape, getLast?_tail h.opening⟩

/-- A mark that a backslash keeps from being read does not reach over the end of a text. -/
theorem Loose.keptMark {mark : List Char} (h : Loose ('\\' :: cs)) (hmark : mark ∈ keptMarks)
    (hstarts : mark <+: cs ++ ds) : mark <+: cs := by
  obtain ⟨tail, htail⟩ := hstarts
  cases cs with
  | nil => exact absurd rfl h.escape
  | cons d cs =>
    simp only [keptMarks, List.mem_cons, List.not_mem_nil, or_false] at hmark
    rcases hmark with rfl | rfl | rfl
    · obtain rfl : '$' = d := (List.cons.inj htail).1
      cases cs with
      | nil => exact absurd rfl h.opening
      | cons e cs =>
        obtain rfl : '\x7b' = e := (List.cons.inj (List.cons.inj htail).2).1
        exact List.prefix_append ['$', '\x7b'] cs
    · obtain rfl := (List.cons.inj htail).1
      exact List.prefix_append ['\x7b'] cs
    · obtain rfl := (List.cons.inj htail).1
      exact List.prefix_append [','] cs

/-- The induction is on what the reader does with the first text, inside of references too. -/
theorem chunks_append (place : Place) (cs : List Char) (hclosed : .unclosed ∉ chunks place cs) (hloose : Loose cs) :
    chunks place (cs ++ ds) = (chunks place cs).foldr Chunk.before (chunks .outside ds) := by
  induction place, cs using chunks.induct with
  | case1 cs ih =>
    simp only [chunks, unclosed_consLiteral] at hclosed
    simp only [List.cons_append, chunks, foldr_before_consLiteral, ih hclosed hloose.tail.tail.tail]
  | case2 cs ih =>
    simp only [chunks, unclosed_consLiteral] at hclosed
    simp only [List.cons_append, chunks, foldr_before_consLiteral, ih hclosed hloose.tail.tail]
  | case3 cs ih =>
    simp only [chunks, unclosed_consLiteral] at hclosed
    simp only [List.cons_append, chunks, foldr_before_consLiteral, ih hclosed hloose.tail.tail]
  | case4 cs ih =>
    rw [chunks] at hclosed
    rw [List.cons_append, List.cons_append, chunks, chunks, ih hclosed hloose.tail.tail]
  | case5 c cs hdollar hbrace hcomma hopen ih =>
    have hescape := not_keptMark hdollar hbrace hcomma
    have hhead := head?_ne_of_forall hopen
    rw [chunks_outside_cons hescape hhead] at hclosed ⊢
    rw [List.cons_append, chunks_outside_cons, ih (unclosed_consLiteral.mp hclosed) hloose.tail, foldr_before_consLiteral]
    · rintro rfl mark hmark hstarts
      exact hescape rfl mark hmark (hloose.keptMark hmark hstarts)
    · rintro rfl
      cases cs with
      | nil => exact absurd rfl hloose.opening
      | cons d cs => exact hhead rfl
  | case6 => rfl
  | case7 acc cs ih =>
    rw [chunks] at hclosed
    rw [List.cons_append, List.cons_append, chunks, chunks, ih hclosed hloose.tail.tail]
  | case8 acc cs ih =>
    simp only [chunks, List.mem_cons, not_or] at hclosed
    rw [List.cons_append, chunks, chunks, ih hclosed.2 hloose.tail]
    rfl
  | case9 acc c cs hpair hc ih =>
    have hhead := head?_ne_of_forall hpair
    rw [chunks_inside_cons hc hhead] at hclosed ⊢
    rw [List.cons_append, chunks_inside_cons hc, ih hclosed hloose.tail]
    rintro rfl
    cases cs with
    | nil => exact absurd rfl hloose.escape
    | cons d cs => exact hhead rfl
  | case10 acc => exact absurd (by simp [chunks]) hclosed

/-! ### What is read without a fault -/

section
variable {formatters : Formatters} (source source' : String)

theorem readStage_within (pipe : List Char) :
    Within (readStage source formatters pipe) (readStage source' formatters pipe) :=
  (Within.mapError _ _ _).bind fun _ => .refl _

theorem readReference_within (body : List Char) :
    Within (readReference source formatters body) (readReference source' formatters body) := by
  unfold readReference
  split
  · exact .of_error _ _
  · exact (Within.mapError _ _ _).bind fun _ => (Within.mapM (readStage_within source source') _).bind fun _ => .refl _

/-- The source itself stands in refusals only. -/
theorem readChunks_within (cks : List Chunk) :
    Within (readChunks source formatters cks) (readChunks source' formatters cks) := by
  induction cks with
  | nil => exact .refl _
  | cons ck cks ih =>
    cases ck with
    | literal cs => exact ih.bind fun _ => .refl _
    | body cs => exact (readReference_within source source' cs).bind fun _ => ih.bind fun _ => .refl _
    | unclosed => exact .of_error _ _

end

section
variable {source : String} {formatters : Formatters} {segments : List Segment} {cks : List Chunk}

theorem readChunks_closed (h : readChunks source formatters cks = .ok segments) : .unclosed ∉ cks := by
  induction cks generalizing segments with
  | nil => simp
  | cons ck cks ih =>
    cases ck with
    | literal cs =>
      obtain ⟨rest, hrest, -⟩ := bind_eq_ok h
      simpa using ih hrest
    | body cs =>
      obtain ⟨r, -, h⟩ := bind_eq_ok h
      obtain ⟨rest, hrest, -⟩ := bind_eq_ok h
      simpa using ih hrest
    | unclosed => cases h

theorem readStage_formatter {pipe : List Char} {s : Stage} (h : readStage source formatters pipe = .ok s) :
    s.formatter = formatters.get? s.name := by
  obtain ⟨⟨name, args⟩, -, h⟩ := bind_eq_ok h
  cases hget : formatters.get? name with
  | none =>
    simp only [hget] at h
    obtain rfl := Except.ok.inj h
    exact hget.symm
  | some f =>
    simp only [hget] at h
    obtain ⟨readied, -, h⟩ := bind_eq_ok h
    obtain rfl := Except.ok.inj h
    exact hget.symm

theorem readReference_formatter {body : List Char} {r : Reference} (h : readReference source formatters body = .ok r) :
    ∀ s ∈ r.stages, s.formatter = formatters.get? s.name := by
  intro s hs
  unfold readReference at h
  split at h
  · cases h
  · obtain ⟨named, -, h⟩ := bind_eq_ok h
    obtain ⟨stages, hstages, h⟩ := bind_eq_ok h
    obtain rfl := Except.ok.inj h
    obtain ⟨pipe, -, hpipe⟩ := mem_of_mapM_eq_ok hstages s hs
    exact readStage_formatter hpipe

theorem readChunks_formatter (h : readChunks source formatters cks = .ok segments) :
    ∀ r, .reference r ∈ segments → ∀ s ∈ r.stages, s.formatter = formatters.get? s.name := by
  induction cks generalizing segments with
  | nil =>
    obtain rfl := Except.ok.inj h
    simp
  | cons ck cks ih =>
    cases ck with
    | literal cs =>
      obtain ⟨rest, hrest, h⟩ := bind_eq_ok h
      obtain rfl := Except.ok.inj h
      simpa using ih hrest
    | body cs =>
      obtain ⟨r, hr, h⟩ := bind_eq_ok h
      obtain ⟨rest, hrest, h⟩ := bind_eq_ok h
      obtain rfl := Except.ok.inj h
      intro r' hr'
      rcases List.mem_cons.mp hr' with heq | hr'
      · obtain rfl := Segment.reference.inj heq
        exact readReference_formatter hr
      · exact ih hrest r' hr'
    | unclosed => cases h

theorem compile_eq_ok {t : Template} (h : compile source formatters = .ok t) :
    readChunks source formatters (chunks .outside source.toList) = .ok t.segments ∧ t.source = source := by
  obtain ⟨segments, hsegments, h⟩ := bind_eq_ok h
  obtain rfl := Except.ok.inj h
  exact ⟨hsegments, rfl⟩

end

/-! ### The text of segments -/

section
variable {source : String} {formatters : Formatters} {x a b xa ab u : List Segment} {cks more : List Chunk}

/-- A text, followed by another. -/
def followed (first second : Except Panic String) : Except Panic String := do
  let s ← first
  let t ← second
  pure (s ++ t)

theorem followed_assoc (s t u : Except Panic String) : followed (followed s t) u = followed s (followed t u) := by
  simp only [followed, bind_assoc, pure_bind, String.append_assoc]

theorem empty_followed (s : Except Panic String) : followed (.ok "") s = s := by
  cases s with
  | error => rfl
  | ok s => exact congrArg Except.ok String.empty_append

/-- The text of some segments in a scope. -/
def rendered (segments : List Segment) (scope : Scope) : Except Panic String := do
  let texts ← segments.mapM (Segment.render scope)
  pure (String.join texts)

/-- The variables that some segments name. -/
def names (segments : List Segment) : List String := segments.filterMap fun
  | .literal _ => none
  | .reference r => some r.name

theorem rendered_append (scope : Scope) : rendered (a ++ b) scope = followed (rendered a scope) (rendered b scope) := by
  simp [rendered, followed, List.mapM_append, String.join_append]

theorem rendered_literal (text : String) (scope : Scope) : rendered [.literal text] scope = .ok text := by
  simp [rendered, Segment.render]

theorem rendered_cons (text : String) (scope : Scope) :
    rendered (.literal text :: a) scope = followed (.ok text) (rendered a scope) := by
  rw [← List.singleton_append, rendered_append, rendered_literal]

/-- `u` names and renders what `a` does, followed by what `b` does. -/
structure Joins (a b u : List Segment) : Prop where
  names : names u = names a ++ names b
  rendered : ∀ scope, rendered u scope = followed (rendered a scope) (rendered b scope)

theorem Joins.append (a b : List Segment) : Joins a b (a ++ b) := ⟨List.filterMap_append, rendered_append⟩

theorem Joins.literals (s t : String) : Joins [.literal s] [.literal t] [.literal (s ++ t)] := by
  refine ⟨rfl, fun scope => ?_⟩
  rw [rendered_literal, rendered_literal, rendered_literal]
  rfl

theorem Joins.empty (a : List Segment) : Joins [.literal ""] a a := by
  refine ⟨rfl, fun scope => ?_⟩
  rw [rendered_literal, empty_followed]

theorem Joins.regroup (hxa : Joins x a xa) (hab : Joins a b ab) (hu : Joins x ab u) : Joins xa b u where
  names := by rw [hu.names, hxa.names, hab.names, List.append_assoc]
  rendered scope := by rw [hu.rendered, hxa.rendered, hab.rendered, followed_assoc]

theorem readChunks_consLiteral (h : readChunks source formatters cks = .ok a) :
    ∃ u, readChunks source formatters (consLiteral c cks) = .ok u ∧ Joins [.literal (String.singleton c)] a u := by
  unfold consLiteral
  split
  · next cs cks =>
    obtain ⟨rest, hrest, h⟩ := bind_eq_ok h
    obtain rfl := Except.ok.inj h
    refine ⟨.literal (String.ofList (c :: cs)) :: rest, by rw [readChunks, hrest]; rfl, rfl, fun scope => ?_⟩
    rw [rendered_literal, rendered_cons, rendered_cons, ← followed_assoc, String.ofList_cons]
    rfl
  · exact ⟨_ :: a, by rw [readChunks, h]; rfl, .append [_] a⟩

theorem readChunks_literal (cs : List Char) (h : readChunks source formatters cks = .ok a) :
    ∃ u, readChunks source formatters (cs.foldr consLiteral cks) = .ok u ∧ Joins [.literal (String.ofList cs)] a u := by
  induction cs with
  | nil => exact ⟨a, h, .empty a⟩
  | cons c cs ih =>
    obtain ⟨v, hv, hjoins⟩ := ih
    obtain ⟨u, hu, hcons⟩ := readChunks_consLiteral (c := c) hv
    have hliterals := Joins.literals (String.singleton c) (String.ofList cs)
    rw [← String.ofList_cons] at hliterals
    exact ⟨u, hu, hliterals.regroup hjoins hcons⟩

theorem readChunks_before (ha : readChunks source formatters cks = .ok a) (hb : readChunks source formatters more = .ok b) :
    ∃ u, readChunks source formatters (cks.foldr Chunk.before more) = .ok u ∧ Joins a b u := by
  induction cks generalizing a with
  | nil =>
    obtain rfl := Except.ok.inj ha
    exact ⟨b, hb, .append [] b⟩
  | cons ck cks ih =>
    cases ck with
    | literal cs =>
      obtain ⟨rest, hrest, h⟩ := bind_eq_ok ha
      obtain rfl := Except.ok.inj h
      obtain ⟨v, hv, hjoins⟩ := ih hrest
      obtain ⟨u, hu, hliteral⟩ := readChunks_literal cs hv
      exact ⟨u, hu, .regroup (.append [_] rest) hjoins hliteral⟩
    | body cs =>
      obtain ⟨r, hr, h⟩ := bind_eq_ok ha
      obtain ⟨rest, hrest, h⟩ := bind_eq_ok h
      obtain rfl := Except.ok.inj h
      obtain ⟨v, hv, hjoins⟩ := ih hrest
      refine ⟨.reference r :: v, ?_, .regroup (.append [_] rest) hjoins (.append [_] v)⟩
      rw [List.foldr_cons, Chunk.before, readChunks, hr, hv]
      · rfl
      · intro ds hds
        cases hds
    | unclosed => cases ha

/-- Two templates are one together. -/
theorem compile_append {s t : String} {first second : Template} (hs : compile s formatters = .ok first)
    (ht : compile t formatters = .ok second) (hloose : Loose s.toList) :
    ∃ both, compile (s ++ t) formatters = .ok both ∧ Joins first.segments second.segments both.segments := by
  have hfirst := (compile_eq_ok hs).1
  have hsecond := (compile_eq_ok ht).1
  obtain ⟨segments, hsegments, hjoins⟩ := readChunks_before (readChunks_within s (s ++ t) _ _ hfirst)
    (readChunks_within t (s ++ t) _ _ hsecond)
  refine ⟨⟨s ++ t, segments⟩, ?_, hjoins⟩
  rw [compile, String.toList_append, chunks_append .outside s.toList (readChunks_closed hfirst) hloose, hsegments]
  rfl

end

/-! ### References without a value -/

section
variable {formatters : Formatters} {r : Reference} {scope : Scope} {s : Stage} {ss : List Stage} {v : Value}

/-- The variable is not in scope, or a call of it has no answer, or a value gets to a stage whose formatter is not known or
    has no answer for it. -/
inductive YieldsNothing (formatters : Formatters) (r : Reference) (scope : Scope) : Prop
  | unresolved (h : scope.resolve? r.name = none)
  | uncalled {v : Value} (hv : scope.resolve? r.name = some v) (h : v.call r.callArgs = .ok none)
  | unknown {v w u : Value} {before after : List Stage} {s : Stage} (hv : scope.resolve? r.name = some v)
      (hw : v.call r.callArgs = .ok (some w)) (hstages : r.stages = before ++ s :: after)
      (hu : Stage.applyAll before w = .ok (some u)) (h : formatters.get? s.name = none)
  | unanswered {v w u : Value} {before after : List Stage} {s : Stage} {f : Formatter}
      (hv : scope.resolve? r.name = some v) (hw : v.call r.callArgs = .ok (some w))
      (hstages : r.stages = before ++ s :: after) (hu : Stage.applyAll before w = .ok (some u))
      (hf : formatters.get? s.name = some f) (h : f.apply u s.args = .ok none)

theorem apply_eq_none_iff :
    s.apply v = .ok none ↔ s.formatter = none ∨ ∃ f, s.formatter = some f ∧ f.apply v s.args = .ok none := by
  unfold Stage.apply
  cases s.formatter <;> simp

theorem applyAll_eq_none_iff : Stage.applyAll ss v = .ok none ↔
    ∃ before s after u, ss = before ++ s :: after ∧ Stage.applyAll before v = .ok (some u) ∧ s.apply u = .ok none := by
  constructor
  · intro h
    induction ss generalizing v with
    | nil => cases h
    | cons s ss ih =>
      obtain ⟨w?, hw, h⟩ := bind_eq_ok h
      cases w? with
      | none => exact ⟨[], s, ss, v, rfl, rfl, hw⟩
      | some w =>
        obtain ⟨before, s', after, u, rfl, hu, hs'⟩ := ih h
        refine ⟨s :: before, s', after, u, rfl, ?_, hs'⟩
        rw [Stage.applyAll, hw]
        exact hu
  · rintro ⟨before, s, after, u, rfl, hu, hs⟩
    induction before generalizing v with
    | nil =>
      obtain rfl := Option.some.inj (Except.ok.inj hu)
      rw [List.nil_append, Stage.applyAll, hs]
      rfl
    | cons s' before ih =>
      obtain ⟨w?, hw, hu⟩ := bind_eq_ok hu
      cases w? with
      | none => cases hu
      | some w =>
        rw [List.cons_append, Stage.applyAll, hw]
        exact ih hu

theorem evaluate_eq_none_iff (hknown : ∀ s ∈ r.stages, s.formatter = formatters.get? s.name) :
    r.evaluate scope = .ok none ↔ YieldsNothing formatters r scope := by
  constructor
  · intro h
    unfold Reference.evaluate at h
    cases hv : scope.resolve? r.name with
    | none => exact .unresolved hv
    | some v =>
      simp only [hv] at h
      obtain ⟨w?, hw, h⟩ := bind_eq_ok h
      cases w? with
      | none => exact .uncalled hv hw
      | some w =>
        obtain ⟨before, s, after, u, hstages, hu, hs⟩ := applyAll_eq_none_iff.mp h
        have hformatter := hknown s (by simp [hstages])
        rcases apply_eq_none_iff.mp hs with hnone | ⟨f, hf, happly⟩
        · exact .unknown hv hw hstages hu (hformatter ▸ hnone)
        · exact .unanswered hv hw hstages hu (hformatter ▸ hf) happly
  · intro h
    have stuck : ∀ {v w u : Value} {before after : List Stage} {s : Stage}, scope.resolve? r.name = some v →
        v.call r.callArgs = .ok (some w) → r.stages = before ++ s :: after → Stage.applyAll before w = .ok (some u) →
        s.apply u = .ok none → r.evaluate scope = .ok none := by
      intro v w u before after s hv hw hstages hu hs
      simp only [Reference.evaluate, hv, hw]
      exact applyAll_eq_none_iff.mpr ⟨before, s, after, u, hstages, hu, hs⟩
    cases h with
    | unresolved h => simp only [Reference.evaluate, h]
    | uncalled hv h =>
      simp only [Reference.evaluate, hv, h]
      rfl
    | @unknown v w u before after s hv hw hstages hu h =>
      have hformatter := hknown s (by simp [hstages])
      exact stuck hv hw hstages hu (apply_eq_none_iff.mpr (.inl (hformatter.trans h)))
    | @unanswered v w u before after s f hv hw hstages hu hf h =>
      have hformatter := hknown s (by simp [hstages])
      exact stuck hv hw hstages hu (apply_eq_none_iff.mpr (.inr ⟨f, hformatter.trans hf, h⟩))

theorem rendered_around {before after : List Segment} (h : r.evaluate scope = .ok none) :
    rendered (before ++ .reference r :: after) scope = followed (rendered before scope) (rendered after scope) := by
  have hsegment : Segment.render scope (.reference r) = .ok "" := by
    rw [Segment.render, h]
    rfl
  have hreference : rendered [.reference r] scope = .ok "" := by simp [rendered, hsegment]
  rw [rendered_append, ← List.singleton_append, rendered_append, hreference, empty_followed]

theorem rendered_of_names_eq_nil {segments : List Segment} (h : names segments = []) :
    ∃ text, ∀ scope, rendered segments scope = .ok text := by
  induction segments with
  | nil => exact ⟨"", fun _ => rfl⟩
  | cons segment segments ih =>
    cases segment with
    | literal text =>
      obtain ⟨rest, hrest⟩ := ih h
      exact ⟨text ++ rest, fun scope => by rw [rendered_cons, hrest scope]; rfl⟩
    | reference r => cases h

end

/-- Two templates one after the other; references without a value; templates without references. -/
theorem template_append (formatters : Formatters) :
    (∀ (s t : String) (first second : Template), compile s formatters = .ok first → compile t formatters = .ok second →
      s.toList.getLast? ≠ some '\\' → s.toList.getLast? ≠ some '$' →
      ∃ both, compile (s ++ t) formatters = .ok both ∧
        both.variableNames = first.variableNames ++ second.variableNames ∧
        ∀ scope, both.render scope = followed (first.render scope) (second.render scope)) ∧
    ∀ (source : String) (t : Template), compile source formatters = .ok t →
      (∀ (before after : List Segment) (r : Reference), t.segments = before ++ .reference r :: after → ∀ scope,
        (r.evaluate scope = .ok none ↔ YieldsNothing formatters r scope) ∧
        (YieldsNothing formatters r scope →
          t.render scope = followed (rendered before scope) (rendered after scope))) ∧
      (t.variableNames = [] → ∃ text, ∀ scope, t.render scope = .ok text) := by
  refine ⟨fun s t first second hs ht hescape hopening => ?_, fun source t ht => ⟨?_, rendered_of_names_eq_nil⟩⟩
  · obtain ⟨both, hboth, hjoins⟩ := compile_append hs ht ⟨hescape, hopening⟩
    exact ⟨both, hboth, hjoins.names, hjoins.rendered⟩
  · intro before after r hsegments scope
    have hknown := readChunks_formatter (compile_eq_ok ht).1 r (by simp [hsegments])
    have hnone : r.evaluate scope = .ok none ↔ _ := evaluate_eq_none_iff hknown
    refine ⟨hnone, fun h => ?_⟩
    show rendered t.segments scope = _
    rw [hsegments]
    exact rendered_around (hnone.mpr h)

def numbered : Scope := ⟨[Dict.empty.insert "x" (.int 1), Dict.empty.insert "y" (.int 2)]⟩

/-- The stage `bogus` is not known. -/
def bogusTemplate : Template :=
  ⟨"A\\$\x7b$\x7bx|bogus\x7dB",
    [.literal "A$\x7b", .reference ⟨"x", [], [⟨"bogus", .empty, none⟩]⟩, .literal "B"]⟩

theorem bogus_stage_empty_at_seam : ∃ second both : Template,
    compile bogusTemplate.source .empty = .ok bogusTemplate ∧ compile "$\x7by\x7d$" .empty = .ok second ∧
    compile (bogusTemplate.source ++ "$\x7by\x7d$") .empty = .ok both ∧ both.variableNames = ["x", "y"] ∧
    bogusTemplate.render numbered = .ok "A$\x7bB" ∧ both.render numbered = .ok "A$\x7bB2$" := by
  have hfirst : compile bogusTemplate.source .empty = .ok bogusTemplate := rfl
  have hsecond : compile "$\x7by\x7d$" .empty = .ok ⟨"$\x7by\x7d$", [.reference ⟨"y", [], []⟩, .literal "$"]⟩ := rfl
  obtain ⟨hjoined, haround⟩ := template_append .empty
  obtain ⟨both, hboth, hnames, hrender⟩ := hjoined _ _ _ _ hfirst hsecond (by decide) (by decide)
  have hnothing : YieldsNothing .empty ⟨"x", [], [⟨"bogus", .empty, none⟩]⟩ numbered :=
    .unknown (v := .int 1) (w := .int 1) (u := .int 1) rfl rfl (show [_] = [] ++ _ :: _ from rfl) rfl rfl
  have hbogus := ((haround _ _ hfirst).1 [.literal "A$\x7b"] [.literal "B"] _ rfl numbered).2 hnothing
  refine ⟨_, both, hfirst, hsecond, hboth, hnames, hbogus, ?_⟩
  rw [hrender numbered, hbogus]
  rfl

end Template

end LogDispatch
