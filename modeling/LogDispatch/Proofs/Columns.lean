import LogDispatch.Formatter.Align
import LogDispatch.Proofs.Dict
import LogDispatch.Proofs.Digits
import Mathlib.Data.List.DropRight

/-! Texts set to a width. Main statement: the arguments are readied without loss, and a text then comes out padded or
    cropped on its free side as they say, unless the padding has more characters than there can be bytes of memory
    (`texts_set_to_width`).

    A text comes out as long as the width for it (`Settings.length_place`). So there is no room to fill and nothing to cut
    off when it is set once more (`Settings.place_of_length`). -/

namespace LogDispatch

namespace Align

/-! ### The rule -/

/-- The text shows a number of at most 64 bits in digits, with or without a plus sign. -/
def Numeral (t : String) (n : Nat) : Prop :=
  ∃ ds : List Char, ds ≠ [] ∧ (∀ c ∈ ds, c.isDigit = true) ∧ (t.toList = ds ∨ t.toList = '+' :: ds) ∧
    Decimal.worth ds = n ∧ n < Nat.pow 2 64

/-- The first `n` characters of the filler repeated without end, or of blanks when it is empty. -/
def repeated (filler : List Char) (n : Nat) : List Char :=
  (List.range n).map fun i => filler.getD (i % filler.length) ' '

namespace Settings

/-- The settings in the words of arguments: whether the text stands on the right, whether it may be cropped, and what is
    given as width and as filler. -/
structure Means (s : Settings) (right crop : Prop) (width filler : Option String) : Prop where
  right : s.right = true ↔ right
  crop : s.crop = true ↔ crop
  /-- No width is set by a zero or by a text that shows no number. -/
  width : ∀ n, 0 < n → (s.width = n ↔ ∃ t, width = some t ∧ Numeral t n)
  filler : s.filler = (filler.getD " ").toList

/-- How a text comes out. -/
structure Sets (s : Settings) (text out : List Char) : Prop where
  unset : s.width = 0 → out = text
  padded : text.length ≤ s.width → out =
    if s.right then repeated s.filler (s.width - text.length) ++ text
    else text ++ repeated s.filler (s.width - text.length)
  whole : s.width < text.length → s.crop = false → out = text
  cropped : 0 < s.width → s.width < text.length → s.crop = true → out =
    if s.right then text.rtake s.width else text.take s.width
  length_unset : s.width = 0 → out.length = text.length
  length_whole : s.crop = false → out.length = max s.width text.length
  length_cropped : s.crop = true → 0 < s.width → out.length = s.width

end Settings

/-! ### Widths in numerals -/

section
variable {t : String} {ds : List Char} {n : Nat} {given : Option String}

theorem withoutPlus_cases (cs : List Char) : cs = withoutPlus cs ∨ cs = '+' :: withoutPlus cs := by
  unfold withoutPlus
  split
  · exact .inr rfl
  · exact .inl rfl

theorem withoutPlus_of_digits (hds : ∀ c ∈ ds, c.isDigit = true) : withoutPlus ds = ds := by
  unfold withoutPlus
  split
  · exact absurd (hds '+' List.mem_cons_self) (by decide)
  · rfl

theorem natural?_eq_some_iff : natural? t = some n ↔ Numeral t n := by
  simp only [natural?]
  constructor
  · intro h
    split at h
    · cases h
    · rename_i hdigits
      simp only [Bool.or_eq_true, Bool.not_eq_true', not_or, Bool.not_eq_false, List.isEmpty_iff, List.all_eq_true]
        at hdigits
      split at h
      · rename_i hlt
        obtain rfl := Option.some.inj h
        exact ⟨_, hdigits.1, hdigits.2, withoutPlus_cases _, (Decimal.digitsValue_eq_worth _).symm, hlt⟩
      · cases h
  · rintro ⟨ds, hsome, hdigits, htext, rfl, hlt⟩
    have hds : withoutPlus t.toList = ds := by
      rcases htext with htext | htext
      · rw [htext, withoutPlus_of_digits hdigits]
      · rw [htext]
        rfl
    rw [hds, if_neg, Decimal.digitsValue_eq_worth, if_pos hlt]
    simpa [hsome] using hdigits

theorem natural?_toString (hlt : n < Nat.pow 2 64) : natural? (toString n) = some n :=
  natural?_eq_some_iff.mpr ⟨Nat.toDigits 10 n, Nat.toDigits_ne_nil, fun _ => Decimal.isDigit_toDigits,
    .inl Nat.toList_repr, Nat.ofDigitChars_ten_toDigits, hlt⟩

theorem widthOf_eq_iff (hn : 0 < n) : widthOf given = n ↔ ∃ t, given = some t ∧ Numeral t n := by
  rw [widthOf, Option.getD_eq_iff, Option.bind_eq_some_iff]
  simp only [natural?_eq_some_iff]
  exact or_iff_left fun h => Nat.ne_of_lt hn h.2

theorem widthOf_lt (given : Option String) : widthOf given < Nat.pow 2 64 := by
  rw [widthOf]
  cases hwidth : given.bind natural? with
  | none => decide
  | some n =>
    obtain ⟨t, -, ht⟩ := Option.bind_eq_some_iff.mp hwidth
    obtain ⟨-, -, -, -, -, hlt⟩ := natural?_eq_some_iff.mp ht
    exact hlt

end

/-! ### Readying -/

section
variable (args : Args)

theorem means_ofArgs : (Settings.ofArgs args).Means (args.get? "side" = some "right") (args.get? "crop" = some "yes")
    (args.get? "width") (args.get? "filler") where
  right := beq_iff_eq
  crop := beq_iff_eq
  width _ hn := widthOf_eq_iff hn
  filler := rfl

theorem get?_prepare :
    (prepare args).get? "side" = some (if isWord (args.get? "s") "right" then "right" else "left") ∧
    (prepare args).get? "width" = some (toString (widthOf ((args.get? "w").map Text.trim))) ∧
    (prepare args).get? "crop" = some (if isWord (args.get? "c") "yes" then "yes" else "no") ∧
    (prepare args).get? "filler" = some ((args.get? "f").getD " ") := by
  simp [prepare, Dict.get?_ofList]

theorem ofArgs_prepare : Settings.ofArgs (prepare args) =
    { right := isWord (args.get? "s") "right"
      width := widthOf ((args.get? "w").map Text.trim)
      crop := isWord (args.get? "c") "yes"
      filler := ((args.get? "f").getD " ").toList } := by
  have hword (b : Bool) {yes no : String} (hne : no ≠ yes) : (some (if b then yes else no) == some yes) = b := by
    cases b <;> simp [hne]
  have hwidth (given : Option String) : widthOf (some (toString (widthOf given))) = widthOf given := by
    rw [widthOf, Option.bind_some, natural?_toString (widthOf_lt given), Option.getD_some]
  obtain ⟨hside, hgiven, hcrop, hfiller⟩ := get?_prepare args
  rw [Settings.ofArgs, hside, hgiven, hcrop, hfiller, hword _ (by decide), hword _ (by decide), hwidth, Option.getD_some]

theorem means_ofArgs_prepare : (Settings.ofArgs (prepare args)).Means (isWord (args.get? "s") "right")
    (isWord (args.get? "c") "yes") ((args.get? "w").map Text.trim) (args.get? "f") := by
  rw [ofArgs_prepare]
  exact ⟨.rfl, .rfl, fun _ hn => widthOf_eq_iff hn, rfl⟩

end

/-! ### Padding -/

section
variable {filler text : List Char} {n : Nat}

@[simp] theorem length_repeated (filler : List Char) (n : Nat) : (repeated filler n).length = n := by
  rw [repeated, List.length_map, List.length_range]

theorem getElem?_flatten_replicate {k i : Nat} (hi : i < k * filler.length) :
    (List.replicate k filler).flatten[i]? = filler[i % filler.length]? := by
  induction k generalizing i with
  | zero =>
    rw [Nat.zero_mul] at hi
    exact absurd hi (Nat.not_lt_zero i)
  | succ k ih =>
    rw [List.replicate_succ, List.flatten_cons]
    by_cases hfirst : i < filler.length
    · rw [List.getElem?_append_left hfirst, Nat.mod_eq_of_lt hfirst]
    · have hbehind := Nat.le_of_not_lt hfirst
      rw [Nat.succ_mul] at hi
      rw [List.getElem?_append_right hbehind, ih (by omega), Nat.mod_eq_sub_mod hbehind]

theorem take_flatten_replicate (hfiller : filler ≠ []) :
    (List.replicate (n / filler.length + 1) filler).flatten.take n = repeated filler n := by
  have hpos : 0 < filler.length := List.length_pos_iff.mpr hfiller
  refine List.ext_getElem? fun i => ?_
  by_cases hi : i < n
  · have hplace : i < (n / filler.length + 1) * filler.length := by
      rw [Nat.mul_comm]
      exact Nat.lt_trans hi (Nat.lt_mul_div_succ n hpos)
    have hmod : i % filler.length < filler.length := Nat.mod_lt i hpos
    rw [List.getElem?_take_of_lt hi, getElem?_flatten_replicate hplace, repeated, List.getElem?_map,
      List.getElem?_range hi, Option.map_some, List.getD_eq_getElem?_getD, List.getElem?_eq_getElem hmod,
      Option.getD_some]
  · have hlong := Nat.le_of_not_lt hi
    rw [List.getElem?_take_eq_none hlong, List.getElem?_eq_none (by rwa [length_repeated])]

theorem padding_eq_repeated (filler : List Char) (n : Nat) : padding filler n = repeated filler n := by
  rw [padding]
  split
  · rename_i hempty
    obtain rfl := List.isEmpty_iff.mp hempty
    rw [take_flatten_replicate (List.cons_ne_nil _ _)]
    simp [repeated, Nat.mod_one]
  · rename_i hsome
    exact take_flatten_replicate fun hempty => hsome (List.isEmpty_iff.mpr hempty)

theorem sliceFrom_wordDifference (hle : n ≤ text.length) :
    sliceFrom (wordDifference text.length n) text = .ok (text.rtake n) := by
  rw [wordDifference, if_pos hle, sliceFrom, if_pos (Nat.sub_le _ _), List.rtake]

end

/-! ### Setting a text -/

namespace Settings

variable {s : Settings} {text : List Char} {length : Nat}

theorem widthFor_of_zero (h : s.width = 0) : s.widthFor length = length := if_pos (.inl h)

theorem widthFor_of_whole (hlt : s.width < length) (hcrop : s.crop = false) : s.widthFor length = length :=
  if_pos (.inr ⟨hlt, by rw [hcrop]; rfl⟩)

theorem widthFor_of_le (hle : length ≤ s.width) : s.widthFor length = s.width := by
  by_cases hzero : s.width = 0
  · rw [widthFor_of_zero hzero]
    omega
  · exact if_neg fun h => h.elim hzero fun h => Nat.not_lt.mpr hle h.1

theorem widthFor_of_crop (hpos : 0 < s.width) (hcrop : s.crop = true) : s.widthFor length = s.width :=
  if_neg fun h => h.elim (Nat.ne_of_gt hpos) fun h => by simp [hcrop] at h

/-- The padding is what the width has over the text. A longer text takes none, cropped or not. -/
theorem widthFor_sub (s : Settings) (length : Nat) : s.widthFor length - length = s.width - length := by
  rw [widthFor]
  split <;> omega

theorem width_le_widthFor (s : Settings) (length : Nat) : s.width ≤ s.widthFor length := by
  rw [widthFor]
  split <;> omega

theorem widthFor_widthFor (s : Settings) (length : Nat) : s.widthFor (s.widthFor length) = s.widthFor length := by
  by_cases hzero : s.width = 0
  · exact widthFor_of_zero hzero
  · by_cases hle : length ≤ s.width
    · rw [widthFor_of_le hle, widthFor_of_le (Nat.le_refl _)]
    · cases hcrop : s.crop with
      | true =>
        have hpos := Nat.pos_of_ne_zero hzero
        rw [widthFor_of_crop hpos hcrop, widthFor_of_crop hpos hcrop]
      | false =>
        have hwhole : s.widthFor length = length := widthFor_of_whole (Nat.lt_of_not_le hle) hcrop
        rw [hwhole, hwhole]

/-- The text in its place, filled up or cropped to the width for it. -/
def place (s : Settings) (text : List Char) : List Char :=
  let fill := repeated s.filler (s.width - text.length)
  if s.right then (fill ++ text).rtake (s.widthFor text.length) else (text ++ fill).take (s.widthFor text.length)

/-- Text and padding together are long enough, so that cropping never starts before them. -/
theorem widthFor_le_add (s : Settings) (length : Nat) : s.widthFor length ≤ s.width - length + length := by
  have hroom := s.widthFor_sub length
  omega

theorem length_place (s : Settings) (text : List Char) : (s.place text).length = s.widthFor text.length := by
  have hle := s.widthFor_le_add text.length
  rw [place]
  split
  · rw [List.rtake, List.length_drop, List.length_append, length_repeated]
    omega
  · rw [List.length_take, List.length_append, length_repeated]
    omega

theorem place_of_length (h : s.widthFor text.length = text.length) : s.place text = text := by
  have hroom : s.width - text.length = 0 := by rw [← s.widthFor_sub, h, Nat.sub_self]
  simp [place, hroom, h, repeated, List.rtake]

theorem place_place (s : Settings) (text : List Char) : s.place (s.place text) = s.place text := by
  apply place_of_length
  rw [length_place, widthFor_widthFor]

theorem sets_place (s : Settings) (text : List Char) : s.Sets text (s.place text) where
  unset hzero := place_of_length (widthFor_of_zero hzero)
  padded hle := by
    have hlength : (repeated s.filler (s.width - text.length)).length + text.length = s.width := by
      rw [length_repeated]
      omega
    rw [place, widthFor_of_le hle]
    split
    · rw [List.rtake, List.length_append, hlength, Nat.sub_self, List.drop_zero]
    · exact List.take_of_length_le (by rw [List.length_append]; omega)
  whole hlt hcrop := place_of_length (widthFor_of_whole hlt hcrop)
  cropped hpos hlt hcrop := by
    have hroom : s.width - text.length = 0 := by omega
    rw [place, widthFor_of_crop hpos hcrop, hroom, repeated, List.range_zero, List.map_nil, List.nil_append,
      List.append_nil]
  length_unset hzero := by rw [length_place, widthFor_of_zero hzero]
  length_whole hcrop := by
    rw [length_place]
    by_cases hle : text.length ≤ s.width
    · rw [widthFor_of_le hle, Nat.max_eq_left hle]
    · have hlt := Nat.lt_of_not_le hle
      rw [widthFor_of_whole hlt hcrop, Nat.max_eq_right (Nat.le_of_lt hlt)]
  length_cropped hcrop hpos := by rw [length_place, widthFor_of_crop hpos hcrop]

end Settings

section
variable {s : Settings} {text : List Char}

theorem widthFor_le_joined (s : Settings) (text : List Char) :
    s.widthFor text.length ≤ (padding s.filler (s.widthFor text.length - text.length) ++ text).length := by
  rw [List.length_append, padding_eq_repeated, length_repeated, s.widthFor_sub]
  exact s.widthFor_le_add text.length

theorem align_eq_ok (hroom : s.width - text.length ≤ largestPadding) : align s text = .ok (s.place text) := by
  have hslice := sliceFrom_wordDifference (widthFor_le_joined s text)
  simp only [padding_eq_repeated, s.widthFor_sub] at hslice
  simp only [align, s.widthFor_sub, if_neg (Nat.not_lt.mpr hroom), padding_eq_repeated, hslice, Settings.place]
  split <;> rfl

theorem align_eq_error (hroom : largestPadding < s.width - text.length) : align s text = .error capacityOverflow := by
  simp only [align, s.widthFor_sub, if_pos hroom]

variable {v : Value} {ready : Args}

theorem apply_eq_ok (hroom : (Settings.ofArgs ready).width - v.display.toList.length ≤ largestPadding) :
    formatter.apply v ready = .ok (some (.text (String.ofList ((Settings.ofArgs ready).place v.display.toList)))) := by
  simp only [formatter, align_eq_ok hroom, Except.map]

theorem apply_eq_error (hroom : largestPadding < (Settings.ofArgs ready).width - v.display.toList.length) :
    formatter.apply v ready = .error capacityOverflow := by
  simp only [formatter, align_eq_error hroom, Except.map]

end

/-- The stage readies its arguments without loss. With arguments that were readied, or with any others, it takes the
    settings that they spell out and lets a text come out as these say, and just so when it goes through once more. What is
    kept of a text on the right is never longer than padding and text together. The stage gives up only on padding of more
    characters than it can ask the memory for bytes. -/
theorem texts_set_to_width :
    (∀ args : Args, ∃ ready, formatter.prepare args = .ok ready ∧
      (Settings.ofArgs ready).Means (isWord (args.get? "s") "right") (isWord (args.get? "c") "yes")
        ((args.get? "w").map Text.trim) (args.get? "f")) ∧
    ∀ ready : Args,
      (Settings.ofArgs ready).Means (ready.get? "side" = some "right") (ready.get? "crop" = some "yes")
        (ready.get? "width") (ready.get? "filler") ∧
      ∀ v : Value,
        let s := Settings.ofArgs ready
        let text := v.display.toList
        let width := s.widthFor text.length
        width ≤ (padding s.filler (width - text.length) ++ text).length ∧
        (s.width - text.length ≤ largestPadding → ∃ out : List Char, s.Sets text out ∧
          formatter.apply v ready = .ok (some (.text (String.ofList out))) ∧
          formatter.apply (.text (String.ofList out)) ready = .ok (some (.text (String.ofList out)))) ∧
        (largestPadding < s.width - text.length → formatter.apply v ready = .error capacityOverflow) := by
  refine ⟨fun args => ⟨prepare args, rfl, means_ofArgs_prepare args⟩, fun ready => ⟨means_ofArgs ready, fun v => ?_⟩⟩
  intro s text width
  refine ⟨widthFor_le_joined s text, fun hroom => ⟨s.place text, s.sets_place text, apply_eq_ok hroom, ?_⟩,
    apply_eq_error⟩
  have hagain : (Value.text (String.ofList (s.place text))).display.toList = s.place text := String.toList_ofList
  have hfull : s.width - (Value.text (String.ofList (s.place text))).display.toList.length ≤ largestPadding := by
    rw [hagain, s.length_place, Nat.sub_eq_zero_of_le (s.width_le_widthFor _)]
    exact Nat.zero_le _
  rw [apply_eq_ok hfull, hagain, s.place_place]

/-- Eight characters on the right, in the spelling of a template. -/
def eightOnTheRight : Args := Dict.ofList [("s", " Right "), ("w", "+8"), ("c", "YES"), ("f", "-=")]

/-- A text that is padded, the same text once more, and one that is cropped. -/
theorem short_and_long_text_set :
    formatter.prepare eightOnTheRight = .ok (prepare eightOnTheRight) ∧
      (Settings.ofArgs (prepare eightOnTheRight)).width - "abc".toList.length ≤ largestPadding ∧
      formatter.apply (.text "abc") (prepare eightOnTheRight) = .ok (some (.text "-=-=-abc")) ∧
      formatter.apply (.text "-=-=-abc") (prepare eightOnTheRight) = .ok (some (.text "-=-=-abc")) ∧
      (Settings.ofArgs (prepare eightOnTheRight)).width - "out of paper".toList.length ≤ largestPadding ∧
      formatter.apply (.text "out of paper") (prepare eightOnTheRight) = .ok (some (.text "of paper")) := by
  obtain ⟨hready, hset⟩ := texts_set_to_width
  obtain ⟨ready, hprepare, -⟩ := hready eightOnTheRight
  obtain rfl : prepare eightOnTheRight = ready := Except.ok.inj hprepare
  have hsettings : Settings.ofArgs (prepare eightOnTheRight) = ⟨true, 8, true, ['-', '=']⟩ := by decide +kernel
  obtain ⟨-, hset⟩ := hset (prepare eightOnTheRight)
  have hshort : (Settings.ofArgs (prepare eightOnTheRight)).width - "abc".toList.length ≤ largestPadding := by
    rw [hsettings]
    decide
  have hlong : (Settings.ofArgs (prepare eightOnTheRight)).width - "out of paper".toList.length ≤ largestPadding := by
    rw [hsettings]
    decide
  obtain ⟨-, hfits, -⟩ := hset (.text "abc")
  obtain ⟨short, hsets, hfirst, hagain⟩ := hfits hshort
  obtain rfl : short = "-=-=-abc".toList := by
    have hpadded := hsets.padded
    rw [hsettings] at hpadded
    exact hpadded (by decide)
  obtain ⟨-, hfits, -⟩ := hset (.text "out of paper")
  obtain ⟨long, hsets, hcropped, -⟩ := hfits hlong
  obtain rfl : long = "of paper".toList := by
    have hcut := hsets.cropped
    rw [hsettings] at hcut
    exact hcut (by decide) (by decide) rfl
  rw [String.ofList_toList] at hfirst hagain hcropped
  exact ⟨hprepare, hshort, hfirst, hagain, hlong, hcropped⟩

/-- As many characters as the largest number of 64 bits, for a text of one. -/
def widest : Args := Dict.ofList [("w", "18446744073709551615")]

/-- Without crop there is no text of that width, as the padding asks for more bytes than memory can have. -/
theorem widest_column_refused : (Settings.ofArgs (prepare widest)).width = 18446744073709551615 ∧
    (Settings.ofArgs (prepare widest)).crop = false ∧
    formatter.apply (.text "m") (prepare widest) = .error capacityOverflow ∧
    ¬∃ out : List Char, formatter.apply (.text "m") (prepare widest) = .ok (some (.text (String.ofList out))) ∧
      out.length = max 18446744073709551615 1 := by
  have hsettings : Settings.ofArgs (prepare widest) = ⟨false, 18446744073709551615, false, [' ']⟩ := by decide +kernel
  have hrefused : formatter.apply (.text "m") (prepare widest) = .error capacityOverflow :=
    apply_eq_error (by rw [hsettings]; decide)
  refine ⟨congrArg Settings.width hsettings, congrArg Settings.crop hsettings, hrefused, ?_⟩
  rintro ⟨out, hout, -⟩
  rw [hrefused] at hout
  cases hout

end Align

end LogDispatch
