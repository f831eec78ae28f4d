import LogDispatch.Json.Printer
import LogDispatch.Json.Reader
import LogDispatch.Proofs.Digits
import LogDispatch.Proofs.Sorted
import Mathlib.Data.List.DropRight
import Mathlib.Data.List.Forall2
import Mathlib.Data.List.TakeWhile

/-! Reading a printed JSON value gives it back (`Fits.ofText?_text`), if it is within the limits of the reader, as
    every value is that a reader gave (`fits_of_ofShape?`). Doubles alone are taken on trust.

    What is printed for a value is read in front of any text that cannot go on with a numeral (`Ends`). -/

namespace LogDispatch.Json

/-! ### String literals -/

theorem hexDigit?_digitChar {k : Nat} (hk : k < 16) : hexDigit? (Nat.digitChar k) = some k := by
  revert k
  decide

theorem pieces?_escape {e c : Char} (he : e ≠ 'u') (h : escape? e = some c) (cs : List Char) :
    pieces? ('\\' :: e :: cs) = (pieces? cs).map fun (ps, r) => (.char c :: ps, r) := by
  simp [pieces?, he, h, Option.map_eq_bind, Function.comp_def]

/-- What is printed for a character is one piece, which stands for that character. -/
theorem pieces?_escapedChar (c : Char) :
    ∃ p, (∀ cs, pieces? (escapedChar c ++ cs) = (pieces? cs).map fun (ps, r) => (p :: ps, r)) ∧
      ∀ ps, decode? (p :: ps) = (decode? ps).map (c :: ·) := by
  have escaped (e : Char) (he : e ≠ 'u') (h : escape? e = some c) (hc : escapedChar c = ['\\', e]) :
      ∃ p, (∀ cs, pieces? (escapedChar c ++ cs) = (pieces? cs).map fun (ps, r) => (p :: ps, r)) ∧
        ∀ ps, decode? (p :: ps) = (decode? ps).map (c :: ·) := by
    refine ⟨.char c, fun cs => ?_, fun ps => rfl⟩
    rw [hc]
    exact pieces?_escape he h cs
  by_cases hmark : c = '"' ∨ c = '\\'
  · rcases hmark with rfl | rfl
    · exact escaped '"' (by decide) rfl rfl
    · exact escaped '\\' (by decide) rfl rfl
  by_cases hn : c = '\n'
  · exact escaped 'n' (by decide) (hn ▸ rfl) (hn ▸ rfl)
  by_cases hr : c = '\r'
  · exact escaped 'r' (by decide) (hr ▸ rfl) (hr ▸ rfl)
  by_cases ht : c = '\t'
  · exact escaped 't' (by decide) (ht ▸ rfl) (ht ▸ rfl)
  by_cases hb : c = Char.ofNat 8
  · exact escaped 'b' (by decide) (hb ▸ rfl) (hb ▸ rfl)
  by_cases hf : c = Char.ofNat 12
  · exact escaped 'f' (by decide) (hf ▸ rfl) (hf ▸ rfl)
  simp only [escapedChar, hmark, hn, hr, ht, hb, hf, if_false]
  by_cases hsmall : c.toNat < 32
  · have hhigh : hexDigit? (Nat.digitChar (c.toNat / 16)) = some (c.toNat / 16) := hexDigit?_digitChar (by omega)
    have hlow : hexDigit? (Nat.digitChar (c.toNat % 16)) = some (c.toNat % 16) := hexDigit?_digitChar (by omega)
    have hvalue : 16 * (c.toNat / 16) + c.toNat % 16 = c.toNat := Nat.div_add_mod ..
    have hzero : hexDigit? '0' = some 0 := by decide
    refine ⟨.unit c.toNat, fun cs => ?_, fun ps => ?_⟩
    · simp [hsmall, pieces?, hhigh, hlow, hzero, hvalue, Option.map_eq_bind, Function.comp_def]
    · have hplain : c.toNat < 0xd800 ∨ 0xdfff < c.toNat := .inl (by omega)
      rw [decode?.eq_def]
      simp only [if_pos hplain, Char.ofNat_toNat]
  · refine ⟨.char c, fun cs => ?_, fun ps => rfl⟩
    rw [not_or] at hmark
    simp [pieces?, hmark, hsmall]

/-- The pieces of a printed literal stand for its text. -/
theorem pieces?_literal (cs : List Char) :
    ∃ ps, decode? ps = some cs ∧ ∀ rest, pieces? (cs.flatMap escapedChar ++ '"' :: rest) = some (ps, rest) := by
  induction cs with
  | nil => exact ⟨[], rfl, fun rest => by simp [pieces?]⟩
  | cons c cs ih =>
    obtain ⟨p, hread, hdecode⟩ := pieces?_escapedChar c
    obtain ⟨ps, hcs, hps⟩ := ih
    refine ⟨p :: ps, by rw [hdecode, hcs, Option.map_some], fun rest => ?_⟩
    rw [List.flatMap_cons, List.append_assoc, hread, hps, Option.map_some]

/-! ### Numerals -/

/-- The text of a value ends here: no character follows that a numeral goes on with. -/
def Ends (rest : List Char) : Prop :=
  ∀ c ∈ rest.head?, c.isDigit = false ∧ c ≠ '.' ∧ c ≠ 'e' ∧ c ≠ 'E'

section
variable {cs rest : List Char}

theorem Ends.takeWhile_append (h : Ends rest) :
    (cs ++ rest).takeWhile Char.isDigit = cs.takeWhile Char.isDigit := by
  induction cs with
  | nil =>
    cases rest with
    | nil => rfl
    | cons c rest => simp [(h c rfl).1]
  | cons c cs ih => by_cases hc : c.isDigit <;> simp [hc, ih]

theorem Ends.dropWhile_append (h : Ends rest) :
    (cs ++ rest).dropWhile Char.isDigit = cs.dropWhile Char.isDigit ++ rest := by
  induction cs with
  | nil =>
    cases rest with
    | nil => rfl
    | cons c rest => simp [(h c rfl).1]
  | cons c cs ih => by_cases hc : c.isDigit <;> simp [hc, ih]

theorem takeSign_append (h : cs ≠ []) :
    Decimal.takeSign (cs ++ rest) = ((Decimal.takeSign cs).1, (Decimal.takeSign cs).2 ++ rest) := by
  obtain ⟨c, cs, rfl⟩ := List.exists_cons_of_ne_nil h
  unfold Decimal.takeSign
  by_cases hm : c = '-'
  · subst hm
    rfl
  by_cases hp : c = '+'
  · subst hp
    rfl
  · simp [hm, hp]

theorem fraction?_append {ds r : List Char} (h : fraction? cs = some (ds, r)) (hrest : Ends rest) :
    fraction? (cs ++ rest) = some (ds, r ++ rest) := by
  cases cs with
  | nil =>
    obtain ⟨rfl, rfl⟩ := Prod.mk.inj (Option.some.inj h)
    cases rest with
    | nil => rfl
    | cons c rest => simp [fraction?, (hrest c rfl).2.1]
  | cons c cs =>
    by_cases hc : c = '.'
    · subst hc
      simp only [fraction?, Option.ite_none_left_eq_some] at h
      obtain ⟨hne, heq⟩ := h
      obtain ⟨rfl, rfl⟩ := Prod.mk.inj (Option.some.inj heq)
      simp [fraction?, hrest.takeWhile_append, hrest.dropWhile_append, hne]
    · have hplain (ds : List Char) : fraction? (c :: ds) = some ([], c :: ds) := by simp [fraction?, hc]
      rw [hplain] at h
      obtain ⟨rfl, rfl⟩ := Prod.mk.inj (Option.some.inj h)
      exact hplain _

theorem exponentPart?_append {e : Option (Bool × List Char)} {r : List Char}
    (h : exponentPart? cs = some (e, r)) (hrest : Ends rest) : exponentPart? (cs ++ rest) = some (e, r ++ rest) := by
  cases cs with
  | nil =>
    obtain ⟨rfl, rfl⟩ := Prod.mk.inj (Option.some.inj h)
    cases rest with
    | nil => rfl
    | cons c rest => simp [exponentPart?, (hrest c rfl).2.2]
  | cons c cs =>
    rw [List.cons_append]
    rw [exponentPart?] at h ⊢
    by_cases hc : c = 'e' ∨ c = 'E'
    · rw [if_pos hc] at h ⊢
      by_cases hcs : cs = []
      · subst hcs
        cases h
      · simp only [takeSign_append hcs, hrest.takeWhile_append, hrest.dropWhile_append]
        simp only [Option.ite_none_left_eq_some] at h ⊢
        obtain ⟨hne, heq⟩ := h
        obtain ⟨rfl, rfl⟩ := Prod.mk.inj (Option.some.inj heq)
        exact ⟨hne, rfl⟩
    · rw [if_neg hc] at h ⊢
      obtain ⟨rfl, rfl⟩ := Prod.mk.inj (Option.some.inj h)
      rfl

/-- A numeral does not go on into what stands behind a value. -/
theorem numeral?_append {negative : Bool} {n : Numeral} {r : List Char} (h : numeral? negative cs = some (n, r))
    (hrest : Ends rest) : numeral? negative (cs ++ rest) = some (n, r ++ rest) := by
  simp only [numeral?, Option.ite_none_left_eq_some, Option.bind_eq_bind, Option.bind_eq_some_iff,
    hrest.takeWhile_append, hrest.dropWhile_append] at h ⊢
  obtain ⟨hwhole, ⟨fraction, cs₁⟩, hfraction, ⟨exponent, cs₂⟩, hexponent, heq⟩ := h
  obtain ⟨rfl, rfl⟩ := Prod.mk.inj (Option.some.inj heq)
  exact ⟨hwhole, _, fraction?_append hfraction hrest, _, exponentPart?_append hexponent hrest, rfl⟩

end

/-! ### Integers -/

theorem takeWhile_toDigits {n : Nat} {rest : List Char} (hrest : Ends rest) :
    (Nat.toDigits 10 n ++ rest).takeWhile Char.isDigit = Nat.toDigits 10 n ∧
      (Nat.toDigits 10 n ++ rest).dropWhile Char.isDigit = rest := by
  have hdigits : ∀ c ∈ Nat.toDigits 10 n, c.isDigit := fun c hc => Nat.isDigit_of_mem_toDigits (by decide) (by decide) hc
  rw [hrest.takeWhile_append, hrest.dropWhile_append]
  simp [List.takeWhile_eq_self_iff.mpr hdigits, List.dropWhile_eq_nil_iff.mpr hdigits]

theorem numeral?_toDigits (negative : Bool) (n : Nat) :
    numeral? negative (Nat.toDigits 10 n) = some (⟨negative, Nat.toDigits 10 n, [], none⟩, []) := by
  have hends : Ends [] := fun c hc => nomatch hc
  obtain ⟨htake, hdrop⟩ := takeWhile_toDigits (n := n) hends
  rw [List.append_nil] at htake hdrop
  have hlead : ¬ ((Nat.toDigits 10 n).isEmpty ||
      ((Nat.toDigits 10 n).head? == some '0' && 1 < (Nat.toDigits 10 n).length)) := by
    by_cases hn : n = 0
    · subst hn
      decide
    · simp [Nat.toDigits_ne_nil, Decimal.head?_toDigits (Nat.pos_of_ne_zero hn)]
  simp only [numeral?, htake, hdrop, if_neg hlead]
  rfl

/-! ### Numbers -/

section
variable {cs ds rest r : List Char} {fuel fuel' : Nat} {c : Char}

theorem shape?_minus (h : skipSpace cs = '-' :: ds) :
    shape? (fuel + 1) cs = (numeral? true ds).map fun (n, r) => (.number n, r) := by
  rw [shape?, h]
  rfl

theorem shape?_digit (h : skipSpace cs = c :: ds) (hc : c.isDigit) :
    shape? (fuel + 1) cs = (numeral? false (c :: ds)).map fun (n, r) => (.number n, r) := by
  rw [shape?.eq_def]
  simp only [h]
  split
  case h_8 => rfl
  all_goals
    rename_i heq
    obtain ⟨rfl, -⟩ := List.cons.inj heq
    exact absurd hc (by decide)

theorem isDigit_of_numeral? {negative : Bool} {n : Numeral} (h : numeral? negative cs = some (n, r)) :
    ∃ c ds, cs = c :: ds ∧ c.isDigit := by
  cases cs with
  | nil => cases h
  | cons c ds =>
    refine ⟨c, ds, rfl, ?_⟩
    by_contra hc
    simp [numeral?, hc] at h

theorem skipSpace_append (h : skipSpace cs = c :: ds) : skipSpace (cs ++ rest) = c :: (ds ++ rest) := by
  rw [skipSpace, List.dropWhile_append, ← skipSpace, h]
  rfl

/-- A number is read off its numeral whatever stands behind the value. -/
theorem shape?_number_append {m : Numeral} (h : shape? (fuel + 1) cs = some (.number m, r)) (hrest : Ends rest) :
    shape? (fuel' + 1) (cs ++ rest) = some (.number m, r ++ rest) := by
  rw [shape?.eq_def] at h
  simp only at h
  split at h
  case h_5 ds hs =>
    obtain ⟨⟨m', r'⟩, hm, heq⟩ := Option.map_eq_some_iff.mp h
    obtain ⟨rfl, rfl⟩ : m' = m ∧ r' = r := by simpa using heq
    rw [shape?_minus (skipSpace_append hs), numeral?_append hm hrest]
    rfl
  case h_8 =>
    obtain ⟨⟨m', r'⟩, hm, heq⟩ := Option.map_eq_some_iff.mp h
    obtain ⟨rfl, rfl⟩ : m' = m ∧ r' = r := by simpa using heq
    obtain ⟨c, ds, hs, hc⟩ := isDigit_of_numeral? hm
    rw [hs] at hm
    rw [shape?_digit (skipSpace_append hs) hc, ← List.cons_append, numeral?_append hm hrest]
    rfl
  case h_6 => split at h <;> simp at h
  case h_7 => split at h <;> simp at h
  all_goals simp at h

/-- The text of the number is read as that number. -/
def Number.ReadsBack (n : Number) : Prop := ofText? n.text = some (.number n)

theorem Number.ReadsBack.shape? {n : Number} (h : n.ReadsBack) :
    ∃ m r, m.number? = some n ∧ skipSpace r = [] ∧
      ∀ rest fuel, Ends rest → Json.shape? (fuel + 1) (n.text.toList ++ rest) = some (.number m, r ++ rest) := by
  obtain ⟨s, hs, hvalue⟩ := Option.bind_eq_some_iff.mp h
  simp only [Shape.ofText?, Option.bind_eq_bind, Option.bind_eq_some_iff, Prod.exists] at hs
  obtain ⟨s', r, hread, hs⟩ := hs
  obtain ⟨hend, hs⟩ := Option.ite_none_right_eq_some.mp hs
  obtain rfl := Option.some.inj hs
  have hshape : ∃ m, s' = .number m ∧ m.number? = some n := by
    cases s' with
    | number m => exact ⟨m, rfl, by simpa [ofShape?] using hvalue⟩
    | _ => simp [ofShape?, maxDepth] at hvalue
  obtain ⟨m, rfl, hm⟩ := hshape
  exact ⟨m, r, hm, List.isEmpty_iff.mp hend, fun rest fuel hrest => shape?_number_append hread hrest⟩

/-- An integer of 64 bits. Doubles are not limited. -/
def Number.InRange : Number → Prop
  | .int i => -(Nat.pow 2 63 : Int) ≤ i ∧ i < (Nat.pow 2 64 : Int)
  | .real _ => True

theorem skipSpace_of_digit (hc : c.isDigit) : skipSpace (c :: ds) = c :: ds := by
  refine List.dropWhile_cons_of_neg fun hspace => ?_
  simp only [isSpace, Bool.or_eq_true, beq_iff_eq, or_assoc] at hspace
  rcases hspace with rfl | rfl | rfl | rfl <;> exact absurd hc (by decide)

theorem Number.readsBack_of_shape? {n : Number} {m : Numeral} (hm : m.number? = some n)
    (h : ∀ fuel, Json.shape? (fuel + 1) n.text.toList = some (.number m, [])) : n.ReadsBack := by
  have hshape : Shape.ofText? n.text = some (.number m) := by
    rw [Shape.ofText?, h]
    rfl
  rw [ReadsBack, ofText?, hshape]
  exact (congrArg (Option.map Json.number) hm :)

theorem Number.readsBack_int {i : Int} (h : (Number.int i).InRange) : (Number.int i).ReadsBack := by
  obtain ⟨hlow, hhigh⟩ := h
  cases i with
  | ofNat n =>
    have htext : (Number.int (.ofNat n)).text.toList = Nat.toDigits 10 n := by
      simp [Number.text, Int.toString_eq_repr, Int.repr, Nat.repr_eq_ofList_toDigits]
    obtain ⟨c, ds, hs⟩ := List.exists_cons_of_ne_nil (Nat.toDigits_ne_nil (n := n) (b := 10))
    have hc : c.isDigit := Nat.isDigit_of_mem_toDigits (by decide) (by decide) (hs ▸ List.mem_cons_self)
    refine readsBack_of_shape? (m := ⟨false, Nat.toDigits 10 n, [], none⟩) ?_ fun fuel => ?_
    · have hlt : n < Nat.pow 2 64 := Int.ofNat_lt.mp hhigh
      simp [Numeral.number?, Decimal.digitsValue_toDigits, hlt]
    · rw [htext, hs, shape?_digit (skipSpace_of_digit hc) hc, ← hs, numeral?_toDigits]
      rfl
  | negSucc n =>
    have htext : (Number.int (.negSucc n)).text.toList = '-' :: Nat.toDigits 10 (n + 1) := by
      simp [Number.text, Int.toString_eq_repr, Int.repr, Nat.repr_eq_ofList_toDigits]
    refine readsBack_of_shape? (m := ⟨true, Nat.toDigits 10 (n + 1), [], none⟩) ?_ fun fuel => ?_
    · have hle : n + 1 ≤ Nat.pow 2 63 := by omega
      simp [Numeral.number?, Decimal.digitsValue_toDigits, hle]
      omega
    · have hminus : skipSpace ('-' :: Nat.toDigits 10 (n + 1)) = '-' :: Nat.toDigits 10 (n + 1) := rfl
      rw [htext, shape?_minus hminus, numeral?_toDigits]
      rfl

theorem Number.inRange_of_number? {m : Numeral} {n : Number} (h : m.number? = some n) : n.InRange := by
  unfold Numeral.number? at h
  simp only at h
  split_ifs at h with hnat hneg
  · obtain rfl := Option.some.inj h
    simp only [InRange]
    omega
  · obtain rfl := Option.some.inj h
    simp only [InRange]
    omega
  · obtain ⟨f, -, rfl⟩ := Option.map_eq_some_iff.mp h
    trivial

/-! ### Values -/

mutual

/-- The numbers that stand in the value. -/
def numbers : Json → List Number
  | .number n => [n]
  | .array items => itemsNumbers items
  | .object members => membersNumbers members
  | _ => []

def itemsNumbers : List Json → List Number
  | [] => []
  | j :: js => numbers j ++ itemsNumbers js

def membersNumbers : List (String × Json) → List Number
  | [] => []
  | (_, j) :: ms => numbers j ++ membersNumbers ms

end

/-- Within the limits of the reader: at most so many containers in each other, and integers of 64 bits. -/
inductive Fits : Nat → Json → Prop
  | null {d : Nat} : Fits d .null
  | bool {d : Nat} {b : Bool} : Fits d (.bool b)
  | number {d : Nat} {n : Number} (range : n.InRange) : Fits d (.number n)
  | string {d : Nat} {s : String} : Fits d (.string s)
  | array {d : Nat} {items : List Json} (items_fit : ∀ j ∈ items, Fits d j) : Fits (d + 1) (.array items)
  | object {d : Nat} {members : List (String × Json)} (members_fit : ∀ m ∈ members, Fits d m.2) :
    Fits (d + 1) (.object members)

theorem Fits.items {d : Nat} {items : List Json} (h : Fits (d + 1) (.array items)) : ∀ j ∈ items, Fits d j := by
  cases h with
  | array items_fit => exact items_fit

theorem Fits.members {d : Nat} {members : List (String × Json)} (h : Fits (d + 1) (.object members)) :
    ∀ m ∈ members, Fits d m.2 := by
  cases h with
  | object members_fit => exact members_fit

/-- The text of the value, in front of the end of a value, is read as this shape. -/
def ReadsAs (j : Json) (s : Shape) : Prop :=
  ∀ rest fuel, Ends rest → 2 * j.text.toList.length + 1 ≤ fuel →
    ∃ r, shape? fuel (j.text.toList ++ rest) = some (s, r) ∧ skipSpace r = skipSpace rest

def NameReadsAs (name : String) (ps : List Piece) : Prop :=
  decodeText? ps = some name ∧
    ∀ rest, pieces? (name.toList.flatMap escapedChar ++ '"' :: rest) = some (ps, rest)

theorem exists_nameReadsAs (name : String) : ∃ ps, NameReadsAs name ps := by
  obtain ⟨ps, hdecode, hread⟩ := pieces?_literal name.toList
  exact ⟨ps, by rw [decodeText?, hdecode, Option.map_some, String.ofList_toList], hread⟩

theorem toList_literal (s : String) : (literal s).toList = '"' :: (s.toList.flatMap escapedChar ++ ['"']) := by
  simp [literal]

section
variable {rest r : List Char} {fuel depth : Nat} {items : List Json} {shapes : List Shape}
  {members : List (String × Json)} {entries : List (List Piece × Shape)}

theorem ends_close (h : c ∈ [',', ']', '\x7d']) : Ends (c :: rest) := by
  rintro d ⟨⟩
  simp only [List.mem_cons, List.not_mem_nil, or_false] at h
  rcases h with rfl | rfl | rfl <;> decide

theorem skipSpace_close (h : c ∈ [',', ']', '\x7d']) : skipSpace (c :: rest) = c :: rest := by
  simp only [List.mem_cons, List.not_mem_nil, or_false] at h
  rcases h with rfl | rfl | rfl <;> rfl

theorem skipSpace_skipSpace : skipSpace (skipSpace cs) = skipSpace cs := List.dropWhile_idempotent isSpace cs

theorem shape?_skipSpace : shape? fuel (skipSpace cs) = shape? fuel cs := by
  cases fuel with
  | zero => rfl
  | succ fuel => simp only [shape?, skipSpace_skipSpace]

theorem shapeItems?_skipSpace : shapeItems? fuel (skipSpace cs) = shapeItems? fuel cs := by
  cases fuel with
  | zero => rfl
  | succ fuel => rw [shapeItems?, shapeItems?, shape?_skipSpace]

theorem shape?_array (h : shapeItems? fuel cs = some (shapes, r)) :
    shape? (fuel + 1) ('[' :: cs) = some (.array shapes, r) := by
  have hopen : skipSpace ('[' :: cs) = '[' :: cs := rfl
  rw [shape?.eq_def]
  simp only [hopen]
  split
  case h_1 rest hclose =>
    -- no value starts with a closing bracket
    rw [← shapeItems?_skipSpace, hclose] at h
    rcases fuel with _ | _ | fuel
    · cases h
    · cases h
    · cases h
  case h_2 => rw [shapeItems?_skipSpace, h, Option.map_some]

theorem shapeItems?_itemsText (hne : items ≠ []) (h : List.Forall₂ ReadsAs items shapes) (rest : List Char)
    (hfuel : 2 * (itemsText items).toList.length + 2 ≤ fuel) :
    shapeItems? fuel ((itemsText items).toList ++ ']' :: rest) = some (shapes, rest) := by
  induction h generalizing fuel with
  | nil => exact absurd rfl hne
  | @cons j s js ss hj hjs ih =>
    cases fuel with
    | zero => omega
    | succ fuel =>
      rcases js with _ | ⟨j', js⟩
      · cases hjs
        rw [itemsText] at hfuel ⊢
        obtain ⟨r, hread, hr⟩ := hj (']' :: rest) fuel (ends_close (by simp)) (by omega)
        simp [shapeItems?, hread, hr, skipSpace_close]
      · have htext : (itemsText (j :: j' :: js)).toList = j.text.toList ++ ',' :: (itemsText (j' :: js)).toList := by
          simp [itemsText]
        rw [htext, List.length_append, List.length_cons] at hfuel
        obtain ⟨r, hread, hr⟩ := hj (',' :: (itemsText (j' :: js)).toList ++ ']' :: rest) fuel (ends_close (by simp))
          (by omega)
        have hrest := @ih fuel (List.cons_ne_nil _ _) (by omega)
        rw [List.cons_append] at hread hr
        simp [htext, shapeItems?, hread, hr, skipSpace_close, hrest]

theorem ofItems?_eq_some (h : List.Forall₂ (fun j s => ofShape? depth s = some j) items shapes) :
    ofItems? depth shapes = some items := by
  induction h with
  | nil => rfl
  | cons hj _ ih => simp [ofItems?, hj, ih]

/-- What a shape of a member reads off its text. -/
def MemberReadsAs (m : String × Json) (e : List Piece × Shape) : Prop :=
  NameReadsAs m.1 e.1 ∧ ReadsAs m.2 e.2

theorem shapeMembers?_membersText (hne : members ≠ []) (h : List.Forall₂ MemberReadsAs members entries)
    (rest : List Char) (hfuel : 2 * (membersText members).toList.length + 2 ≤ fuel) :
    shapeMembers? fuel ((membersText members).toList ++ '\x7d' :: rest) = some (entries, rest) := by
  induction h generalizing fuel with
  | nil => exact absurd rfl hne
  | @cons m e ms es hm hms ih =>
    obtain ⟨name, j⟩ := m
    obtain ⟨ps, s⟩ := e
    obtain ⟨⟨-, hname : ∀ rest, pieces? (name.toList.flatMap escapedChar ++ '"' :: rest) = some (ps, rest)⟩,
      hj : ReadsAs j s⟩ := hm
    have hquote (cs : List Char) : skipSpace ('"' :: cs) = '"' :: cs := rfl
    have hcolon (cs : List Char) : skipSpace (':' :: cs) = ':' :: cs := rfl
    cases fuel with
    | zero => omega
    | succ fuel =>
      rcases ms with _ | ⟨m', ms⟩
      · cases hms
        have htext : (membersText [(name, j)]).toList =
            '"' :: (name.toList.flatMap escapedChar ++ '"' :: ':' :: j.text.toList) := by
          simp [membersText, toList_literal]
        rw [htext] at hfuel ⊢
        simp only [List.length_cons, List.length_append] at hfuel
        obtain ⟨r, hread, hr⟩ := hj ('\x7d' :: rest) fuel (ends_close (by simp)) (by omega)
        simp [shapeMembers?, hquote, hname, hcolon, hread, hr, skipSpace_close]
      · have htext : (membersText ((name, j) :: m' :: ms)).toList =
            '"' :: (name.toList.flatMap escapedChar ++ '"' :: ':' ::
              (j.text.toList ++ ',' :: (membersText (m' :: ms)).toList)) := by
          simp [membersText, toList_literal]
        rw [htext] at hfuel ⊢
        simp only [List.length_cons, List.length_append] at hfuel
        obtain ⟨r, hread, hr⟩ := hj (',' :: (membersText (m' :: ms)).toList ++ '\x7d' :: rest) fuel
          (ends_close (by simp)) (by omega)
        have hrest := @ih fuel (List.cons_ne_nil _ _) (by omega)
        simp only [List.cons_append] at hread hr
        simp [shapeMembers?, hquote, hname, hcolon, hread, hr, skipSpace_close, hrest]

theorem ofMembers?_eq_some
    (h : List.Forall₂ (fun m e => decodeText? e.1 = some m.1 ∧ ofShape? depth e.2 = some m.2) members entries) :
    ofMembers? depth entries = some members := by
  induction h with
  | nil => rfl
  | cons hm _ ih => simp [ofMembers?, hm, ih]

/-- The reader meets the quote of the first name, no closing brace. -/
theorem shape?_object (hne : members ≠ []) {cs : List Char}
    (h : shapeMembers? fuel ((membersText members).toList ++ cs) = some (entries, r)) :
    shape? (fuel + 1) ('\x7b' :: ((membersText members).toList ++ cs)) = some (.object entries, r) := by
  have hquote : ∃ ds, (membersText members).toList ++ cs = '"' :: ds := by
    obtain ⟨⟨name, j⟩, ms, rfl⟩ := List.exists_cons_of_ne_nil hne
    cases ms <;> simp [membersText, toList_literal]
  obtain ⟨ds, hds⟩ := hquote
  have hopen (c : Char) (hc : isSpace c = false) (cs : List Char) : skipSpace (c :: cs) = c :: cs := by
    simp [skipSpace, hc]
  rw [hds] at h ⊢
  rw [shape?, hopen _ (by decide)]
  simp only [hopen '"' (by decide)]
  change Option.map _ (shapeMembers? fuel ('"' :: ds)) = _
  rw [h]
  rfl

theorem forall₂_of_forall_exists {α β : Type} {R : α → β → Prop} {as : List α} (h : ∀ a ∈ as, ∃ b, R a b) :
    ∃ bs, List.Forall₂ R as bs := by
  induction as with
  | nil => exact ⟨[], .nil⟩
  | cons a as ih =>
    obtain ⟨b, hb⟩ := h a List.mem_cons_self
    obtain ⟨bs, hbs⟩ := ih fun a ha => h a (List.mem_cons_of_mem _ ha)
    exact ⟨b :: bs, .cons hb hbs⟩

theorem mem_itemsNumbers {j : Json} {n : Number} (hj : j ∈ items) (hn : n ∈ j.numbers) : n ∈ itemsNumbers items := by
  induction hj with
  | head => exact List.mem_append_left _ hn
  | tail _ _ ih => exact List.mem_append_right _ ih

theorem mem_membersNumbers {m : String × Json} {n : Number} (hm : m ∈ members) (hn : n ∈ m.2.numbers) :
    n ∈ membersNumbers members := by
  induction hm with
  | head => exact List.mem_append_left _ hn
  | tail _ _ ih => exact List.mem_append_right _ ih

theorem Number.ReadsBack.readsAs {n : Number} (h : n.ReadsBack) :
    ∃ s, ReadsAs (.number n) s ∧ ofShape? depth s = some (.number n) := by
  obtain ⟨m, r, hm, hr, hread⟩ := h.shape?
  refine ⟨.number m, fun rest fuel hrest hfuel => ?_, by simp [ofShape?, hm]⟩
  cases fuel with
  | zero => omega
  | succ fuel =>
    refine ⟨_, hread rest fuel hrest, ?_⟩
    rw [skipSpace, List.dropWhile_append, ← skipSpace, hr]
    rfl

/-- A value within the limits of the reader is read off its text, if its doubles are. -/
theorem Fits.readsAs {j : Json} (h : Fits depth j) (hreal : ∀ f, .real f ∈ j.numbers → (Number.real f).ReadsBack) :
    ∃ s, ReadsAs j s ∧ ofShape? depth s = some j := by
  induction h with
  | null => exact ⟨.null, fun rest fuel _ hfuel => ⟨rest, by cases fuel with | zero => omega | succ fuel => rfl, rfl⟩, rfl⟩
  | @bool d b =>
    refine ⟨.bool b, fun rest fuel _ hfuel => ⟨rest, ?_, rfl⟩, rfl⟩
    cases fuel with
    | zero => omega
    | succ fuel => cases b <;> rfl
  | @number d n range =>
    cases n with
    | int i => exact (Number.readsBack_int range).readsAs
    | real f => exact (hreal f List.mem_cons_self).readsAs
  | @string d s =>
    obtain ⟨ps, hdecode, hread⟩ := exists_nameReadsAs s
    refine ⟨.string ps, fun rest fuel _ hfuel => ⟨rest, ?_, rfl⟩, by simp [ofShape?, hdecode]⟩
    cases fuel with
    | zero => omega
    | succ fuel =>
      have hopen (cs : List Char) : skipSpace ('"' :: cs) = '"' :: cs := rfl
      simp [text, toList_literal, shape?, hopen, hread]
  | @array d items items_fit ih =>
    obtain ⟨ss, hss⟩ := forall₂_of_forall_exists fun j hj =>
      ih j hj fun f hf => hreal f (mem_itemsNumbers hj hf)
    refine ⟨.array ss, fun rest fuel _ hfuel => ⟨rest, ?_, rfl⟩, ?_⟩
    · have htext : (Json.array items).text.toList = '[' :: ((itemsText items).toList ++ [']']) := by simp [text]
      rw [htext] at hfuel ⊢
      simp only [List.length_cons, List.length_append, List.length_nil] at hfuel
      cases fuel with
      | zero => omega
      | succ fuel =>
        rcases eq_or_ne items [] with rfl | hne
        · cases hss
          rfl
        · rw [List.cons_append, List.append_assoc]
          exact shape?_array (shapeItems?_itemsText hne (hss.imp fun _ _ h => h.1) rest (by omega))
    · rw [ofShape?, ofItems?_eq_some (hss.imp fun _ _ h => h.2), Option.map_some]
  | @object d members members_fit ih =>
    have hmembers : ∀ m ∈ members, ∃ e : List Piece × Shape, NameReadsAs m.1 e.1 ∧ ReadsAs m.2 e.2 ∧
        ofShape? d e.2 = some m.2 := by
      intro m hm
      obtain ⟨ps, hname⟩ := exists_nameReadsAs m.1
      obtain ⟨s, hread, hvalue⟩ := ih m hm fun f hf => hreal f (mem_membersNumbers hm hf)
      exact ⟨(ps, s), hname, hread, hvalue⟩
    obtain ⟨es, hes⟩ := forall₂_of_forall_exists hmembers
    refine ⟨.object es, fun rest fuel _ hfuel => ⟨rest, ?_, rfl⟩, ?_⟩
    · have htext : (Json.object members).text.toList = '\x7b' :: ((membersText members).toList ++ ['\x7d']) := by
        simp [text]
      rw [htext] at hfuel ⊢
      simp only [List.length_cons, List.length_append, List.length_nil] at hfuel
      cases fuel with
      | zero => omega
      | succ fuel =>
        rcases eq_or_ne members [] with rfl | hne
        · cases hes
          rfl
        · rw [List.cons_append, List.append_assoc]
          refine shape?_object hne ?_
          exact shapeMembers?_membersText hne (hes.imp fun _ _ h => ⟨h.1, h.2.1⟩) rest (by omega)
    · rw [ofShape?, ofMembers?_eq_some (hes.imp fun _ _ h => ⟨h.1.1, h.2.2⟩), Option.map_some]

/-- The shape of a printed value has that value. -/
theorem Fits.ofText?_text {j : Json} (h : Fits depth j)
    (hreal : ∀ f, .real f ∈ j.numbers → (Number.real f).ReadsBack) :
    ∃ s, Shape.ofText? j.text = some s ∧ ofShape? depth s = some j := by
  obtain ⟨s, hread, hvalue⟩ := h.readsAs hreal
  obtain ⟨r, hshape, hr⟩ := hread [] (2 * j.text.toList.length + 2) (fun c hc => nomatch hc) (by omega)
  rw [List.append_nil] at hshape
  refine ⟨s, ?_, hvalue⟩
  rw [Shape.ofText?]
  simp only [Option.bind_eq_bind, hshape, Option.bind_some, hr]
  rfl

end

end

/-! ### What a reader gives -/

mutual

theorem fits_of_ofShape? : ∀ {d : Nat} {s : Shape} {j : Json}, ofShape? d s = some j → Fits d j
  | _, .null, _, h => by
    obtain rfl := Option.some.inj (by simpa [ofShape?] using h)
    exact .null
  | _, .bool b, _, h => by
    obtain rfl := Option.some.inj (by simpa [ofShape?] using h)
    exact .bool
  | _, .number m, _, h => by
    obtain ⟨n, hn, rfl⟩ : ∃ n, m.number? = some n ∧ Json.number n = _ := by simpa [ofShape?] using h
    exact .number (Number.inRange_of_number? hn)
  | _, .string ps, _, h => by
    obtain ⟨s, -, rfl⟩ : ∃ s, decodeText? ps = some s ∧ Json.string s = _ := by simpa [ofShape?] using h
    exact .string
  | d + 1, .array ss, _, h => by
    obtain ⟨js, hjs, rfl⟩ : ∃ js, ofItems? d ss = some js ∧ Json.array js = _ := by simpa [ofShape?] using h
    exact .array (fits_of_ofItems? hjs)
  | d + 1, .object es, _, h => by
    obtain ⟨ms, hms, rfl⟩ : ∃ ms, ofMembers? d es = some ms ∧ Json.object ms = _ := by simpa [ofShape?] using h
    exact .object (fits_of_ofMembers? hms)

theorem fits_of_ofItems? : ∀ {d : Nat} {ss : List Shape} {js : List Json},
    ofItems? d ss = some js → ∀ j ∈ js, Fits d j
  | _, [], _, h => by
    obtain rfl := Option.some.inj (by simpa [ofItems?] using h)
    exact fun j hj => absurd hj List.not_mem_nil
  | d, s :: ss, _, h => by
    obtain ⟨j, hj, js, hjs, rfl⟩ : ∃ j, ofShape? d s = some j ∧ ∃ js, ofItems? d ss = some js ∧ j :: js = _ := by
      simpa [ofItems?, Option.bind_eq_some_iff] using h
    exact List.forall_mem_cons.mpr ⟨fits_of_ofShape? hj, fits_of_ofItems? hjs⟩

theorem fits_of_ofMembers? : ∀ {d : Nat} {es : List (List Piece × Shape)} {ms : List (String × Json)},
    ofMembers? d es = some ms → ∀ m ∈ ms, Fits d m.2
  | _, [], _, h => by
    obtain rfl := Option.some.inj (by simpa [ofMembers?] using h)
    exact fun m hm => absurd hm List.not_mem_nil
  | d, (name, s) :: es, _, h => by
    obtain ⟨k, -, j, hj, ms, hms, rfl⟩ : ∃ k, decodeText? name = some k ∧ ∃ j, ofShape? d s = some j ∧
        ∃ ms, ofMembers? d es = some ms ∧ (k, j) :: ms = _ := by
      simpa [ofMembers?, Option.bind_eq_some_iff] using h
    exact List.forall_mem_cons.mpr ⟨fits_of_ofShape? hj, fits_of_ofMembers? hms⟩

end

/-! ### Canonical form -/

theorem canonicalItems_eq (js : List Json) : canonicalItems js = js.map canonical := by
  induction js with
  | nil => rfl
  | cons j js ih => rw [canonicalItems, ih, List.map_cons]

theorem canonicalMembers_eq (ms done : List (String × Json)) :
    canonicalMembers ms done = SortedDict.ofList (done.reverse ++ ms.map fun m => (m.1, m.2.canonical)) := by
  induction ms generalizing done with
  | nil => simp [canonicalMembers]
  | cons m ms ih => simp [canonicalMembers, ih]

theorem canonical_object (ms : List (String × Json)) :
    canonical (.object ms) = .object (SortedDict.ofList (ms.map fun m => (m.1, m.2.canonical))).entries := by
  rw [canonical, canonicalMembers_eq, List.reverse_nil, List.nil_append]

/-- A dictionary of values in canonical form is in canonical form. -/
theorem canonical_entries {d : SortedDict Json} (h : ∀ e ∈ d.entries, e.2.canonical = e.2) :
    SortedDict.ofList (d.entries.map fun e => (e.1, e.2.canonical)) = d := by
  have hmap : d.entries.map (fun e => (e.1, e.2.canonical)) = d.entries := by
    refine (List.map_congr_left fun e he => ?_).trans (List.map_id _)
    rw [h e he]
    rfl
  rw [hmap, SortedDict.ofList_entries]

theorem exists_of_mem_canonical {ms : List (String × Json)} {e : String × Json}
    (h : e ∈ (SortedDict.ofList (ms.map fun m => (m.1, m.2.canonical))).entries) :
    ∃ m ∈ ms, e = (m.1, m.2.canonical) := by
  obtain ⟨m, hm, rfl⟩ := List.mem_map.mp (SortedDict.mem_of_mem_ofList h)
  exact ⟨m, hm, rfl⟩

theorem Fits.canonical {d : Nat} {j : Json} (h : Fits d j) : Fits d j.canonical := by
  induction h with
  | null => exact .null
  | bool => exact .bool
  | number range => exact .number range
  | string => exact .string
  | array _ ih =>
    rw [Json.canonical, canonicalItems_eq]
    refine .array fun j hj => ?_
    obtain ⟨item, hitem, rfl⟩ := List.mem_map.mp hj
    exact ih item hitem
  | object _ ih =>
    rw [canonical_object]
    refine .object fun e he => ?_
    obtain ⟨m, hm, rfl⟩ := exists_of_mem_canonical he
    exact ih m hm

mutual

theorem canonical_canonical : ∀ j : Json, j.canonical.canonical = j.canonical
  | .null => rfl
  | .bool _ => rfl
  | .number _ => rfl
  | .string _ => rfl
  | .array items => by
    rw [canonical, canonical, canonicalItems_canonicalItems items]
  | .object members => by
    rw [canonical_object members, canonical_object, canonical_entries]
    intro e he
    obtain ⟨m, hm, rfl⟩ := exists_of_mem_canonical he
    exact canonical_canonical_member members m hm

theorem canonicalItems_canonicalItems : ∀ js : List Json, canonicalItems (canonicalItems js) = canonicalItems js
  | [] => rfl
  | j :: js => by
    rw [canonicalItems, canonicalItems, canonical_canonical j, canonicalItems_canonicalItems js]

theorem canonical_canonical_member : ∀ ms : List (String × Json), ∀ m ∈ ms, m.2.canonical.canonical = m.2.canonical
  | [] => fun _ hm => absurd hm List.not_mem_nil
  | (_, j) :: ms => List.forall_mem_cons.mpr ⟨canonical_canonical j, canonical_canonical_member ms⟩

end

end LogDispatch.Json
