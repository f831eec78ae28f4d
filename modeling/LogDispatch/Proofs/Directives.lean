import LogDispatch.Message
import Mathlib.Tactic.Common

/-! Arguments filled into a text. Main statement: the text alone says where directives stand in it, and then the first
    directive shows the first argument, the second the second, and so on; directives without an argument are copied, and
    arguments without a directive follow. So each argument shows once and in its place, and nothing in an argument is taken
    for a directive (`render_parts`).

    The filler threads the arguments through the text; the rule counts the directives before each place instead. Both take
    a piece of the text off the front in the same way (`parts_directive`, `fill_directive`). -/

namespace LogDispatch

namespace Message

/-! ### The rule -/

/-- The letters of directives, each with its directive. -/
def directives : List (Char × Directive) :=
  [('s', .text), ('d', .number), ('i', .whole), ('f', .number), ('j', .json), ('o', .object), ('O', .object)]

/-- A piece of a text that arguments are filled into. -/
inductive Piece where
  | plain (c : Char)
  /-- A percent sign written twice. -/
  | percent
  | directive (letter : Char) (d : Directive)

/-- A percent sign stands in front that belongs to a second one or to a directive. -/
def StartsDirective : List Char → Prop
  | '%' :: c :: _ => c = '%' ∨ c ∈ directives.map Prod.fst
  | _ => False

/-- The text, read from left to right, is made of the pieces. -/
inductive Cut : List Char → List Piece → Prop
  | nil : Cut [] []
  | percent {cs : List Char} {ps : List Piece} (h : Cut cs ps) : Cut ('%' :: '%' :: cs) (.percent :: ps)
  | directive {letter : Char} {d : Directive} {cs : List Char} {ps : List Piece} (hd : (letter, d) ∈ directives)
      (h : Cut cs ps) : Cut ('%' :: letter :: cs) (.directive letter d :: ps)
  | plain {c : Char} {cs : List Char} {ps : List Piece} (hc : ¬StartsDirective (c :: cs)) (h : Cut cs ps) :
      Cut (c :: cs) (.plain c :: ps)

/-- A part of a filled text. -/
inductive Part where
  | copied (cs : List Char)
  | filled (d : Directive) (v : Value)
  | unused (v : Value)

def Part.text : Part → List Char
  | .copied cs => cs
  | .filled d v => (d.show v).toList
  | .unused v => ' ' :: v.display.toList

/-- The argument that a part shows. -/
def Part.argument? : Part → Option Value
  | .copied _ => none
  | .filled _ v => some v
  | .unused v => some v

/-- A piece with its argument, if there is one for it. -/
def Piece.part : Piece → Option Value → Part
  | .plain c, _ => .copied [c]
  | .percent, _ => .copied ['%']
  | .directive _ d, some v => .filled d v
  | .directive letter _, none => .copied ['%', letter]

def Piece.isDirective : Piece → Bool
  | .directive _ _ => true
  | _ => false

/-- The parts of a filled text. A directive that stands behind `k` others has the argument behind `k` others. -/
def parts (ps : List Piece) (args : List Value) : List Part :=
  (ps.mapIdx fun i p => p.part args[(ps.take i).countP Piece.isDirective]?) ++
    (args.drop (ps.countP Piece.isDirective)).map .unused

/-- The text with each percent sign written twice. -/
def doubled (text : String) : String := String.ofList (text.toList.flatMap twice)
where
  twice (c : Char) : List Char := if c = '%' then ['%', '%'] else [c]

/-! ### Parts -/

section
variable {ps : List Piece} {p : Piece} {args : List Value} {v : Value} {letter : Char} {d : Directive}

theorem parts_nil (args : List Value) : parts [] args = args.map .unused := by
  simp [parts]

theorem parts_cons (hp : p.isDirective = false) : parts (p :: ps) args = p.part none :: parts ps args := by
  have hpart : ∀ arg, p.part arg = p.part none := by
    intro arg
    cases p with
    | plain c => rfl
    | percent => rfl
    | directive letter d => cases hp
  simp [parts, List.mapIdx_cons, hp, hpart]

theorem countP_directive : (Piece.directive letter d :: ps).countP Piece.isDirective = ps.countP Piece.isDirective + 1 :=
  List.countP_cons_of_pos rfl

theorem parts_directive : parts (.directive letter d :: ps) (v :: args) = .filled d v :: parts ps args := by
  simp [parts, List.mapIdx_cons, Piece.part, countP_directive]

theorem parts_directive_nil : parts (.directive letter d :: ps) [] = .copied ['%', letter] :: parts ps [] := by
  simp [parts, List.mapIdx_cons, Piece.part]

/-- Each argument shows in one part, and they do in order. -/
theorem filterMap_argument?_parts (ps : List Piece) (args : List Value) :
    (parts ps args).filterMap Part.argument? = args := by
  induction ps generalizing args with
  | nil =>
    rw [parts_nil, List.filterMap_map]
    exact List.filterMap_some
  | cons p ps ih =>
    cases p with
    | plain c => rw [parts_cons rfl, List.filterMap_cons_none rfl, ih]
    | percent => rw [parts_cons rfl, List.filterMap_cons_none rfl, ih]
    | directive letter d =>
      cases args with
      | nil => rw [parts_directive_nil, List.filterMap_cons_none rfl, ih]
      | cons v args => rw [parts_directive, List.filterMap_cons_some (f := Part.argument?) rfl, ih]

end

/-! ### The filler -/

section
variable {c letter : Char} {cs : List Char} {d : Directive} {args : List Value} {v : Value} {ps qs : List Piece}

theorem ofChar?_of_mem (hd : (letter, d) ∈ directives) : Directive.ofChar? letter = some d ∧ letter ≠ '%' := by
  have hall : ∀ e ∈ directives, Directive.ofChar? e.1 = some e.2 ∧ e.1 ≠ '%' := by decide
  exact hall _ hd

theorem ofChar?_of_notMem (h : c ∉ directives.map Prod.fst) : Directive.ofChar? c = none := by
  simp only [directives, List.map_cons, List.map_nil, List.mem_cons, List.not_mem_nil, or_false, not_or] at h
  simp [Directive.ofChar?, h]

theorem leftovers_eq (args : List Value) : leftovers args = args.flatMap fun v => ' ' :: v.display.toList := by
  induction args with
  | nil => rfl
  | cons v args ih =>
    rw [List.flatMap_cons, ← ih]
    cases v <;> rfl

theorem StartsDirective.percent (h : StartsDirective (c :: cs)) : c = '%' := by
  unfold StartsDirective at h
  split at h
  · next heq => exact (List.cons.inj heq).1
  · exact h.elim

theorem fill_percent : fill ('%' :: '%' :: cs) args = '%' :: fill cs args := by
  rw [fill]

theorem fill_directive (hd : (letter, d) ∈ directives) :
    fill ('%' :: letter :: cs) (v :: args) = (d.show v).toList ++ fill cs args := by
  obtain ⟨hdirective, hpercent⟩ := ofChar?_of_mem hd
  rw [fill]
  · exact hpercent
  · exact hdirective

theorem fill_directive_nil (hd : (letter, d) ∈ directives) :
    fill ('%' :: letter :: cs) [] = '%' :: letter :: fill cs [] := by
  obtain ⟨hdirective, hpercent⟩ := ofChar?_of_mem hd
  rw [fill]
  · exact hpercent
  · exact d
  · exact hdirective

theorem fill_plain (hc : ¬StartsDirective (c :: cs)) : fill (c :: cs) args = c :: fill cs args := by
  by_cases hpercent : c = '%'
  · subst hpercent
    cases cs with
    | nil => rw [fill] <;> simp
    | cons c cs =>
      obtain ⟨hne, hletter⟩ := not_or.mp hc
      rw [fill]
      · exact hne
      · exact ofChar?_of_notMem hletter
  · rw [fill] <;> simp [hpercent]

theorem fill_of_cut (h : Cut cs ps) (args : List Value) : fill cs args = (parts ps args).flatMap Part.text := by
  induction h generalizing args with
  | nil =>
    rw [fill, leftovers_eq, parts_nil, List.flatMap_map]
    rfl
  | percent _ ih =>
    rw [fill_percent, parts_cons rfl, ih]
    rfl
  | directive hd _ ih =>
    cases args with
    | nil =>
      rw [fill_directive_nil hd, parts_directive_nil, ih]
      rfl
    | cons v args =>
      rw [fill_directive hd, parts_directive, ih]
      rfl
  | plain hc _ ih =>
    rw [fill_plain hc, parts_cons rfl, ih]
    rfl

theorem fill_doubled (cs : List Char) : fill (cs.flatMap doubled.twice) [] = cs := by
  induction cs with
  | nil => rfl
  | cons c cs ih =>
    rw [List.flatMap_cons, doubled.twice]
    by_cases hc : c = '%'
    · rw [if_pos hc, List.cons_append, List.cons_append, fill_percent, List.nil_append, ih, hc]
    · rw [if_neg hc, List.singleton_append, fill_plain (fun hstarts => hc (StartsDirective.percent hstarts)), ih]

/-! ### Pieces -/

theorem exists_cut (cs : List Char) : ∃ ps, Cut cs ps := by
  -- A percent sign and the letter behind it go together, so texts with one character more are looked at as well.
  suffices both : (∃ ps, Cut cs ps) ∧ ∀ c, ∃ ps, Cut (c :: cs) ps from both.1
  induction cs with
  | nil => exact ⟨⟨_, .nil⟩, fun c => ⟨_, .plain (by simp [StartsDirective]) .nil⟩⟩
  | cons letter cs ih =>
    obtain ⟨⟨ps, hps⟩, hcons⟩ := ih
    refine ⟨hcons letter, fun c => ?_⟩
    by_cases hstarts : StartsDirective (c :: letter :: cs)
    · obtain rfl := StartsDirective.percent hstarts
      rcases hstarts with rfl | hletter
      · exact ⟨_, .percent hps⟩
      · obtain ⟨⟨_, d⟩, hd, rfl⟩ := List.mem_map.mp hletter
        exact ⟨_, .directive hd hps⟩
    · obtain ⟨qs, hqs⟩ := hcons letter
      exact ⟨_, .plain hstarts hqs⟩

theorem startsDirective_percent : StartsDirective ('%' :: '%' :: cs) := .inl rfl

theorem startsDirective_directive (hd : (letter, d) ∈ directives) : StartsDirective ('%' :: letter :: cs) :=
  .inr (List.mem_map_of_mem hd)

theorem Cut.unique (h : Cut cs ps) (h' : Cut cs qs) : qs = ps := by
  induction h generalizing qs with
  | nil =>
    cases h'
    rfl
  | percent _ ih =>
    cases h' with
    | percent h' => rw [ih h']
    | directive hd => exact absurd rfl (ofChar?_of_mem hd).2
    | plain hc => exact absurd startsDirective_percent hc
  | directive hd _ ih =>
    cases h' with
    | percent => exact absurd rfl (ofChar?_of_mem hd).2
    | directive hd' h' =>
      have hdirective := (ofChar?_of_mem hd).1.symm.trans (ofChar?_of_mem hd').1
      rw [ih h', Option.some.inj hdirective]
    | plain hc => exact absurd (startsDirective_directive hd) hc
  | plain hc _ ih =>
    cases h' with
    | percent => exact absurd startsDirective_percent hc
    | directive hd => exact absurd (startsDirective_directive hd) hc
    | plain _ h' => rw [ih h']

end

/-- A text says by itself where its directives stand. Filled in is then one argument after the other, and each shows once and
    in order, whatever the arguments are. A text with its percent signs doubled is shown as it is. -/
theorem render_parts :
    (∀ s : String, ∃ ps, (∀ qs, Cut s.toList qs ↔ qs = ps) ∧ ∀ args : List Value,
      render (.format (.text s :: args)) = .ok (String.ofList ((parts ps args).flatMap Part.text)) ∧
        (parts ps args).filterMap Part.argument? = args) ∧
    ∀ text : String, render (.format [.text (doubled text)]) = .ok text := by
  refine ⟨fun s => ?_, fun text => ?_⟩
  · obtain ⟨ps, hps⟩ := exists_cut s.toList
    refine ⟨ps, fun qs => ⟨hps.unique, fun heq => heq ▸ hps⟩, fun args => ⟨?_, filterMap_argument?_parts ps args⟩⟩
    show Except.ok (argumentsText _) = _
    rw [argumentsText, fill_of_cut hps]
  · show Except.ok (argumentsText _) = _
    rw [argumentsText, doubled, String.toList_ofList, fill_doubled, String.ofList_toList]

example : fill "%s, %o, %s: 100%%%".toList [.text "a%s", .text "b"] = "a%s, 'b', %s: 100%%".toList := by decide

end Message

end LogDispatch
