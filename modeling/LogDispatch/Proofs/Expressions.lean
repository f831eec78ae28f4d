import LogDispatch.Inspect
import LogDispatch.Proofs.Globs
import LogDispatch.Template.Printer

/-! The expression of a wildcard pattern. It is the pattern with all characters escaped that an expression has a use
    for, in which the escaped `*` and `?` are replaced by `.*` and `.` (`expression_eq_patched`), however backslashes
    and wildcards follow each other. It can always be read, and searching for it finds what the pattern covers
    (`finds_expression`). A rule applies just to these channels (`Rule.appliesTo_globs`). -/

namespace LogDispatch

namespace Glob

/-! ### From patterns to expressions -/

/-- Each `a` directly followed by `b` becomes `image`, from left to right. -/
def replacePair (a b : Char) (image : List Char) : List Char → List Char
  | x :: y :: cs => if x = a ∧ y = b then image ++ replacePair a b image cs else x :: replacePair a b image (y :: cs)
  | cs => cs

/-- The pattern escaped, then patched for its stars, then for its question marks, between both ends of a text. -/
def patched (pattern : List Char) : List Char :=
  '^' :: replacePair '\\' '?' ['.'] (replacePair '\\' '*' ['.', '*'] (Template.escape metaChars pattern)) ++ ['$']

/-! ### Reading expressions -/

/-- What stands for one character: any one of a line, or itself in either case. -/
inductive Atom where
  | any
  | char (c : Char)

inductive Item where
  | start
  | stop
  | one (a : Atom)
  | many (a : Atom)

/-- The expression as items. A star is read behind a dot, a backslash in front of a mark, and no other mark at all. -/
def read? : List Char → Option (List Item)
  | [] => some []
  | '^' :: cs => (read? cs).map (.start :: ·)
  | '$' :: cs => (read? cs).map (.stop :: ·)
  | '.' :: '*' :: cs => (read? cs).map (.many .any :: ·)
  | '.' :: cs => (read? cs).map (.one .any :: ·)
  | '\\' :: c :: cs => if c ∈ metaChars then (read? cs).map (.one (.char c) :: ·) else none
  | c :: cs => if c ∈ metaChars then none else (read? cs).map (.one (.char c) :: ·)

/-! ### What an expression finds -/

def Atom.Admits : Atom → Char → Prop
  | .any, c => c ≠ '\n'
  | .char x, c => Text.foldChar x = Text.foldChar c

/-- The items match in front of `rest`, from the place after `before`, whose nearest character comes first. -/
inductive Fits : List Item → List Char → List Char → Prop
  | nil {before rest : List Char} : Fits [] before rest
  | start {items : List Item} {rest : List Char} : Fits items [] rest → Fits (.start :: items) [] rest
  | stop {items : List Item} {before : List Char} : Fits items before [] → Fits (.stop :: items) before []
  | one {items : List Item} {before rest : List Char} {a : Atom} {c : Char} : a.Admits c →
      Fits items (c :: before) rest → Fits (.one a :: items) before (c :: rest)
  | none {items : List Item} {before rest : List Char} {a : Atom} : Fits items before rest →
      Fits (.many a :: items) before rest
  | more {items : List Item} {before rest : List Char} {a : Atom} {c : Char} : a.Admits c →
      Fits (.many a :: items) (c :: before) rest → Fits (.many a :: items) before (c :: rest)

/-- The items match somewhere in the text. -/
def Finds (items : List Item) (text : List Char) : Prop :=
  ∃ before rest, text = before.reverse ++ rest ∧ Fits items before rest

variable {a b c : Char} {image cs pattern text before : List Char} {items : List Item} {atom : Atom}

/-! ### Replacing in pieces -/

theorem replacePair_pair : replacePair a b image (a :: b :: cs) = image ++ replacePair a b image cs := by
  rw [replacePair, if_pos ⟨rfl, rfl⟩]

theorem replacePair_cons (h : c = a → cs.head? ≠ some b) :
    replacePair a b image (c :: cs) = c :: replacePair a b image cs := by
  cases cs with
  | nil => rfl
  | cons d cs =>
    rw [replacePair, if_neg]
    rintro ⟨hc, rfl⟩
    exact h hc rfl

theorem head?_flatMap_ne {f : Char → List Char} (hhead : ∀ c, (f c).head? ≠ some b) {rest : List Char}
    (hrest : rest.head? ≠ some b) : (cs.flatMap f ++ rest).head? ≠ some b := by
  induction cs with
  | nil => exact hrest
  | cons c cs ih =>
    rw [List.flatMap_cons, List.append_assoc, List.head?_append]
    cases hfirst : (f c).head? with
    | none => exact ih
    | some d => exact fun heq => hhead c (hfirst.trans heq)

/-- Where each piece is the pair to be replaced or keeps all its characters, the pieces are replaced one by one. -/
theorem replacePair_flatMap {f g : Char → List Char} (hhead : ∀ c, (f c).head? ≠ some b)
    (hpiece : ∀ c, f c = [a, b] ∧ g c = image ∨ g c = f c ∧ ∀ rest : List Char, rest.head? ≠ some b →
      replacePair a b image (f c ++ rest) = f c ++ replacePair a b image rest) :
    replacePair a b image (cs.flatMap f) = cs.flatMap g := by
  induction cs with
  | nil => rfl
  | cons c cs ih =>
    rw [List.flatMap_cons, List.flatMap_cons, ← ih]
    rcases hpiece c with ⟨hpair, himage⟩ | ⟨hsame, hkept⟩
    · rw [hpair, himage]
      exact replacePair_pair
    · rw [hsame]
      refine hkept _ ?_
      rw [← List.append_nil (cs.flatMap f)]
      exact head?_flatMap_ne hhead nofun

/-- A character of the escaped pattern. -/
def guarded (c : Char) : List Char := if c ∈ metaChars then ['\\', c] else [c]

/-- A character of the pattern with the stars replaced only. -/
def starred (c : Char) : List Char := if c = '*' then ['.', '*'] else guarded c

/-- A character of the pattern in the expression. -/
theorem expression_ofChar :
    (Token.ofChar c).expression = if c = '*' then ['.', '*'] else if c = '?' then ['.'] else guarded c := by
  unfold Token.ofChar
  split
  · rfl
  · split
    · rfl
    · simp [Token.expression, guarded]

/-- An escaped character other than the wildcard keeps its backslash. -/
theorem replacePair_guarded (hc : c ≠ b) {rest : List Char} (hrest : rest.head? ≠ some b) :
    replacePair '\\' b image (guarded c ++ rest) = guarded c ++ replacePair '\\' b image rest := by
  have hself : replacePair '\\' b image (c :: rest) = c :: replacePair '\\' b image rest :=
    replacePair_cons fun _ => hrest
  unfold guarded
  split
  · have hfirst : replacePair '\\' b image ('\\' :: c :: rest) = '\\' :: replacePair '\\' b image (c :: rest) :=
      replacePair_cons fun _ heq => hc (Option.some.inj heq)
    rw [List.cons_append, List.cons_append, List.nil_append, hfirst, hself]
    rfl
  · exact hself

theorem head?_guarded (hb : b ∈ metaChars) (hb' : b ≠ '\\') : (guarded c).head? ≠ some b := by
  unfold guarded
  split
  · exact fun heq => hb' (Option.some.inj heq).symm
  · rename_i hmark
    intro heq
    exact hmark (Option.some.inj heq ▸ hb)

theorem replacePair_stars : replacePair '\\' '*' ['.', '*'] (Template.escape metaChars cs) = cs.flatMap starred := by
  refine replacePair_flatMap (fun _ => head?_guarded (by decide) (by decide)) fun c => ?_
  by_cases hstar : c = '*'
  · subst hstar
    exact .inl ⟨rfl, rfl⟩
  · exact .inr ⟨if_neg hstar, fun rest hrest => replacePair_guarded hstar hrest⟩

theorem replacePair_questions : replacePair '\\' '?' ['.'] (cs.flatMap starred) =
    cs.flatMap fun c => (Token.ofChar c).expression := by
  refine replacePair_flatMap (fun c => ?_) fun c => ?_
  · by_cases hstar : c = '*'
    · subst hstar
      decide
    · rw [starred, if_neg hstar]
      exact head?_guarded (by decide) (by decide)
  · by_cases hstar : c = '*'
    · subst hstar
      refine .inr ⟨rfl, fun rest _ => ?_⟩
      have hdot : replacePair '\\' '?' ['.'] ('.' :: '*' :: rest) = '.' :: replacePair '\\' '?' ['.'] ('*' :: rest) :=
        replacePair_cons fun heq => absurd heq (by decide)
      exact hdot.trans (congrArg ('.' :: ·) (replacePair_cons fun heq => absurd heq (by decide)))
    · rw [starred, expression_ofChar, if_neg hstar, if_neg hstar]
      by_cases hquestion : c = '?'
      · subst hquestion
        exact .inl ⟨rfl, rfl⟩
      · exact .inr ⟨if_neg hquestion, fun rest hrest => replacePair_guarded hquestion hrest⟩

theorem expression_eq_patched (pattern : String) : (expression pattern).toList = patched pattern.toList := by
  rw [patched, replacePair_stars, replacePair_questions, expression, String.toList_ofList, tokens, List.flatMap_map]
  rfl

/-! ### Reading in pieces -/

def item (c : Char) : Item :=
  if c = '*' then .many .any else if c = '?' then .one .any else .one (.char c)

theorem read?_literal (h : c ∉ metaChars) : read? (c :: cs) = (read? cs).map (.one (.char c) :: ·) := by
  have hne : ∀ mark ∈ metaChars, c = mark → False := fun mark hmark heq => h (heq ▸ hmark)
  rw [read?, if_neg h]
  · exact hne '^' (by decide)
  · exact hne '$' (by decide)
  · exact fun _ hdot _ => hne '.' (by decide) hdot
  · exact hne '.' (by decide)
  · exact fun _ _ hbackslash _ => hne '\\' (by decide) hbackslash

theorem read?_dot (h : cs.head? ≠ some '*') : read? ('.' :: cs) = (read? cs).map (.one .any :: ·) := by
  rw [read?]
  rintro rest rfl
  exact h rfl

theorem read?_piece (h : cs.head? ≠ some '*') :
    read? ((Token.ofChar c).expression ++ cs) = (read? cs).map (item c :: ·) := by
  by_cases hstar : c = '*'
  · subst hstar
    rfl
  · by_cases hquestion : c = '?'
    · subst hquestion
      exact read?_dot h
    · rw [expression_ofChar, item, if_neg hstar, if_neg hstar, if_neg hquestion, if_neg hquestion]
      unfold guarded
      split
      · rename_i hmark
        exact if_pos hmark
      · rename_i hmark
        exact read?_literal hmark

theorem head?_expression_ne : (Token.ofChar c).expression.head? ≠ some '*' := by
  by_cases hstar : c = '*'
  · subst hstar
    decide
  · rw [expression_ofChar, if_neg hstar]
    split
    · decide
    · exact head?_guarded (by decide) (by decide)

theorem read?_pieces : read? ((pattern.flatMap fun c => (Token.ofChar c).expression) ++ ['$']) =
    some (pattern.map item ++ [.stop]) := by
  induction pattern with
  | nil => rfl
  | cons c pattern ih =>
    have hnext : ((pattern.flatMap fun c => (Token.ofChar c).expression) ++ ['$']).head? ≠ some '*' :=
      head?_flatMap_ne (fun _ => head?_expression_ne) (by decide)
    rw [List.flatMap_cons, List.append_assoc, read?_piece hnext, ih]
    rfl

theorem read?_expression (pattern : String) :
    read? (expression pattern).toList = some (.start :: pattern.toList.map item ++ [.stop]) := by
  rw [expression, String.toList_ofList, tokens, List.flatMap_map]
  exact congrArg (Option.map (Item.start :: ·)) read?_pieces

/-! ### Matching -/

theorem fits_one : Fits (.one atom :: items) before text ↔
    ∃ c rest, text = c :: rest ∧ atom.Admits c ∧ Fits items (c :: before) rest := by
  constructor
  · rintro (_ | _ | _ | ⟨hadmits, hrest⟩)
    exact ⟨_, _, rfl, hadmits, hrest⟩
  · rintro ⟨c, rest, rfl, hadmits, hrest⟩
    exact .one hadmits hrest

/-- What is repeated stands for a run of any length. -/
theorem fits_many : Fits (.many atom :: items) before text ↔
    ∃ run rest, text = run ++ rest ∧ (∀ c ∈ run, atom.Admits c) ∧ Fits items (run.reverse ++ before) rest := by
  constructor
  · intro h
    generalize hmany : Item.many atom :: items = all at h
    induction h with
    | none hrest =>
      obtain ⟨heq, rfl⟩ := List.cons.inj hmany
      exact ⟨[], _, rfl, fun _ hc => absurd hc List.not_mem_nil, hrest⟩
    | more hadmits _ ih =>
      obtain ⟨heq, -⟩ := List.cons.inj hmany
      obtain ⟨run, rest, rfl, hrun, hrest⟩ := ih hmany
      refine ⟨_ :: run, rest, rfl, List.forall_mem_cons.mpr ⟨Item.many.inj heq ▸ hadmits, hrun⟩, ?_⟩
      rwa [List.reverse_cons, List.append_assoc]
    | _ => cases hmany
  · rintro ⟨run, rest, rfl, hrun, hrest⟩
    induction run generalizing before with
    | nil => exact .none hrest
    | cons c run ih =>
      obtain ⟨hadmits, hrun⟩ := List.forall_mem_cons.mp hrun
      rw [List.reverse_cons, List.append_assoc] at hrest
      exact .more hadmits (ih hrun hrest)

theorem fits_stop : Fits [.stop] before text ↔ text = [] := by
  constructor
  · rintro ⟨⟩
    rfl
  · rintro rfl
    exact .stop .nil

/-- Up to the end of the text, the items of a pattern match just what it covers. -/
theorem fits_items : Fits (pattern.map item ++ [.stop]) before text ↔ Covers pattern text := by
  induction pattern generalizing before text with
  | nil => exact fits_stop.trans covers_nil.symm
  | cons c pattern ih =>
    rw [covers_cons, List.map_cons, List.cons_append]
    by_cases hstar : c = '*'
    · subst hstar
      refine fits_many.trans (exists_congr fun run => exists_congr fun rest => ?_)
      rw [ih]
      exact and_congr_right fun _ => and_congr_left fun _ =>
        ⟨fun hrun hnewline => hrun _ hnewline rfl, fun hrun d hd heq => hrun (heq ▸ hd)⟩
    · by_cases hquestion : c = '?'
      · subst hquestion
        refine fits_one.trans (exists_congr fun d => exists_congr fun rest => ?_)
        rw [ih]
        rfl
      · rw [item, Token.ofChar, if_neg hstar, if_neg hstar, if_neg hquestion, if_neg hquestion]
        refine fits_one.trans (exists_congr fun d => exists_congr fun rest => ?_)
        rw [ih]
        rfl

/-- The expression of a pattern can be read, and searching a text for it tells whether the pattern covers the text. -/
theorem finds_expression (pattern : String) : ∃ items, read? (expression pattern).toList = some items ∧
    ∀ text, Finds items text ↔ Covers pattern.toList text := by
  refine ⟨_, read?_expression pattern, fun text => ⟨?_, fun h => ⟨[], text, rfl, .start (fits_items.mpr h)⟩⟩⟩
  rintro ⟨before, rest, rfl, hfits⟩
  cases hfits with
  | start hitems => exact fits_items.mp hitems

end Glob

open Glob

theorem Rule.ofPattern_eq_ok_iff {pattern : String} {threshold : Threshold} {rule : Rule} :
    ofPattern pattern threshold = .ok rule ↔
      ('*' ∈ pattern.toList ∨ '?' ∈ pattern.toList → programSize pattern ≤ sizeLimit) ∧
        rule = ⟨pattern, threshold⟩ := by
  rw [← isWild_iff]
  unfold ofPattern
  split
  · rename_i hlarge
    rw [Bool.and_eq_true, decide_eq_true_iff] at hlarge
    exact iff_of_false nofun fun h => Nat.not_lt.mpr (h.1 hlarge.1) hlarge.2
  · rename_i hfits
    rw [Bool.and_eq_true, decide_eq_true_iff, not_and, Nat.not_lt] at hfits
    exact ⟨fun h => ⟨hfits, (Except.ok.inj h).symm⟩, fun h => congrArg Except.ok h.2.symm⟩

/-- A pattern makes a rule, unless it has a wildcard and is too large. Without a wildcard the rule applies to the
    channel of that name only. With one it applies to the channels that the pattern covers; these are the ones in which
    its expression is found, which is the escaped pattern, patched, and can always be read. -/
theorem Rule.appliesTo_globs (pattern : String) (threshold : Threshold) :
    ((∃ rule, ofPattern pattern threshold = .ok rule) ↔
      ('*' ∈ pattern.toList ∨ '?' ∈ pattern.toList → programSize pattern ≤ sizeLimit)) ∧
    ∀ rule, ofPattern pattern threshold = .ok rule → rule = ⟨pattern, threshold⟩ ∧ ∀ channel : String,
      ('*' ∉ pattern.toList → '?' ∉ pattern.toList → (rule.appliesTo channel = true ↔ channel = pattern)) ∧
      ('*' ∈ pattern.toList ∨ '?' ∈ pattern.toList →
        (rule.appliesTo channel = true ↔ Covers pattern.toList channel.toList) ∧
        (expression pattern).toList = patched pattern.toList ∧
        ∃ items, read? (expression pattern).toList = some items ∧
          (rule.appliesTo channel = true ↔ Finds items channel.toList)) := by
  refine ⟨⟨fun ⟨_, h⟩ => (ofPattern_eq_ok_iff.mp h).1, fun h => ⟨_, ofPattern_eq_ok_iff.mpr ⟨h, rfl⟩⟩⟩, ?_⟩
  intro rule hrule
  obtain ⟨-, rfl⟩ := ofPattern_eq_ok_iff.mp hrule
  refine ⟨rfl, fun channel => ⟨fun hstar hquestion => ?_, fun hwild => ?_⟩⟩
  · have hexact : isWild pattern = false := by
      rw [← Bool.not_eq_true, isWild_iff, not_or]
      exact ⟨hstar, hquestion⟩
    rw [appliesTo, hexact, if_neg Bool.false_ne_true, beq_iff_eq, eq_comm]
  · obtain ⟨items, hitems, hfinds⟩ := finds_expression pattern
    rw [appliesTo, isWild_iff.mpr hwild, if_pos rfl, fits_iff]
    exact ⟨.rfl, expression_eq_patched pattern, items, hitems, (hfinds _).symm⟩

/-- A backslash, a dot and both wildcards next to each other. -/
theorem Rule.appliesTo_globs_backslash : ∃ rule, ofPattern "A\\*.?" .always = .ok rule ∧
    Covers "A\\*.?".toList "a\\b.c.d".toList ∧ ¬Covers "A\\*.?".toList "a\\b.cd".toList := by
  obtain ⟨rule, hrule⟩ := (appliesTo_globs "A\\*.?" .always).1.mpr fun _ => by decide +kernel
  obtain ⟨rfl, happlies⟩ := (appliesTo_globs "A\\*.?" .always).2 rule hrule
  have hwild : '*' ∈ "A\\*.?".toList ∨ '?' ∈ "A\\*.?".toList := by decide
  refine ⟨_, hrule, ?_, ?_⟩
  · rw [← ((happlies _).2 hwild).1]
    decide +kernel
  · rw [← ((happlies _).2 hwild).1]
    decide +kernel

end LogDispatch
