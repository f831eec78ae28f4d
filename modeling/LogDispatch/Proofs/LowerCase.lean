import LogDispatch.Proofs.Text
import LogDispatch.Text.Lower

/-! Lower case done twice is lower case done once (`lower_lower`), and a trimmed text stays trimmed
    (`trim_lower_trim`). The runs of the case table are checked once: none maps to what one of them maps from
    (`lowerRuns_apart`), to a blank, or to one of the two characters that have a rule of their own
    (`lowerRuns_image`). -/

namespace LogDispatch.Text

variable {c d : Char} {before rest cs : List Char} {r r' : Run} {shift : Nat}

/-! ### Runs of the case table -/

theorem Run.image?_eq_some (h : r.image? c = some d) :
    ∃ shift ≤ r.last - r.first, shift % r.step = 0 ∧ d = Char.ofNat (r.image + shift) := by
  unfold image? at h
  split at h
  · rename_i hcovers
    obtain ⟨-, hlast, hstep⟩ := hcovers
    exact ⟨c.toNat - r.first, Nat.sub_le_sub_right hlast _, hstep, (Option.some.inj h).symm⟩
  · cases h

/-- Nothing that the first run maps to is something that the second one maps from: one lies below the other, or they
    take every other place in turn. -/
def Run.apart (r r' : Run) : Bool :=
  bif Nat.ble r.image r'.last then
    bif Nat.ble r'.first (r.image + (r.last - r.first)) then
      (r.step == 2 || r.first == r.last) && (r'.step == 2 && (r.image + r'.first) % 2 == 1)
    else true
  else true

theorem Run.image?_of_apart (h : r.apart r' = true) (hshift : shift ≤ r.last - r.first) (hstep : shift % r.step = 0)
    (hd : d.toNat = r.image + shift) : r'.image? d = none := by
  refine if_neg fun hcovers => ?_
  obtain ⟨hfirst, hlast, hstep'⟩ := hcovers
  rw [apart, Nat.ble_eq.mpr (by omega), Nat.ble_eq.mpr (by omega), cond_true, cond_true] at h
  simp only [Bool.or_eq_true, Bool.and_eq_true, beq_iff_eq] at h
  obtain ⟨heven, htwo, hodd⟩ := h
  have hshift' : shift % 2 = 0 := by
    rcases heven with htwo | hone
    · rwa [htwo] at hstep
    · have hzero : shift = 0 := by omega
      rw [hzero]
  rw [htwo] at hstep'
  omega

theorem lowerRuns_apart : (lowerRuns.all fun r => lowerRuns.all r.apart) = true := by decide +kernel

theorem lowerRuns_image : ∀ r ∈ lowerRuns, ∀ shift ∈ List.range (r.last - r.first + 1),
    (r.image + shift).isValidChar ∧ Char.ofNat (r.image + shift) ≠ 'Σ' ∧ Char.ofNat (r.image + shift) ≠ 'İ' ∧
      isBlank (Char.ofNat (r.image + shift)) = false := by
  decide +kernel

theorem mapRuns_eq_self {runs : List Run} (h : ∀ r ∈ runs, r.image? c = none) : mapRuns runs c = c := by
  rw [mapRuns, List.findSome?_eq_none_iff.mpr h, Option.getD_none]

/-- What stands in the table maps to a character outside of it. -/
theorem mapRuns_lowerRuns : mapRuns lowerRuns c = c ∨
    (∀ r ∈ lowerRuns, r.image? (mapRuns lowerRuns c) = none) ∧
      mapRuns lowerRuns c ≠ 'Σ' ∧ mapRuns lowerRuns c ≠ 'İ' ∧ isBlank (mapRuns lowerRuns c) = false := by
  cases hfound : lowerRuns.findSome? (·.image? c) with
  | none => exact .inl (by rw [mapRuns, hfound, Option.getD_none])
  | some d =>
    right
    rw [mapRuns, hfound, Option.getD_some]
    obtain ⟨r, hr, himage⟩ := List.exists_of_findSome?_eq_some hfound
    obtain ⟨shift, hshift, hstep, rfl⟩ := Run.image?_eq_some himage
    obtain ⟨hvalid, hsettled⟩ := lowerRuns_image r hr shift (List.mem_range.mpr (Nat.lt_succ_of_le hshift))
    refine ⟨fun r' hr' => ?_, hsettled⟩
    refine Run.image?_of_apart (List.all_eq_true.mp (List.all_eq_true.mp lowerRuns_apart r hr) r' hr') hshift hstep ?_
    rw [Char.ofNat, dif_pos hvalid]
    rfl

/-! ### Characters in lower case -/

/-- Lower case leaves the character as it is, wherever it stands. -/
def Low (c : Char) : Prop := c ≠ 'Σ' ∧ c ≠ 'İ' ∧ lowerChar c = c

instance : DecidablePred Low := fun c => inferInstanceAs (Decidable (c ≠ 'Σ' ∧ c ≠ 'İ' ∧ lowerChar c = c))

theorem ascii_low : ∀ n < 128, Low (Char.ofNat n).toLower ∧
    (isBlank (Char.ofNat n) = false → isBlank (Char.ofNat n).toLower = false) ∧
    (Run.image? ⟨0x41, 0x5a, 1, 0x61⟩ (Char.ofNat n) = none → (Char.ofNat n).toLower = Char.ofNat n) := by
  decide +kernel

theorem low_toLower (h : c.toNat < 128) : Low c.toLower ∧ (isBlank c = false → isBlank c.toLower = false) ∧
    (Run.image? ⟨0x41, 0x5a, 1, 0x61⟩ c = none → c.toLower = c) := by
  have hascii := ascii_low c.toNat h
  rwa [Char.ofNat_toNat] at hascii

theorem lowerChar_of_outside (h : ∀ r ∈ lowerRuns, r.image? c = none) : lowerChar c = c := by
  unfold lowerChar
  split
  · rename_i hascii
    exact (low_toLower hascii).2.2 (h _ List.mem_cons_self)
  · exact mapRuns_eq_self h

theorem low_lowerChar (hsigma : c ≠ 'Σ') (hdotted : c ≠ 'İ') : Low (lowerChar c) := by
  by_cases hascii : c.toNat < 128
  · rw [lowerChar, if_pos hascii]
    exact (low_toLower hascii).1
  · have hlower : lowerChar c = mapRuns lowerRuns c := if_neg hascii
    rcases mapRuns_lowerRuns (c := c) with hself | ⟨houtside, hsigma', hdotted', -⟩
    · rw [← hlower] at hself
      rw [hself]
      exact ⟨hsigma, hdotted, hself⟩
    · rw [hlower]
      exact ⟨hsigma', hdotted', lowerChar_of_outside houtside⟩

theorem isBlank_lowerChar (h : isBlank c = false) : isBlank (lowerChar c) = false := by
  by_cases hascii : c.toNat < 128
  · rw [lowerChar, if_pos hascii]
    exact (low_toLower hascii).2.1 h
  · have hlower : lowerChar c = mapRuns lowerRuns c := if_neg hascii
    rw [hlower]
    rcases mapRuns_lowerRuns (c := c) with hself | ⟨-, -, -, hblank⟩
    · rwa [hself]
    · exact hblank

/-! ### Texts in lower case -/

/-- What one character contributes: one or two characters in lower case, none of them blank unless it is blank. -/
theorem lowerAfter_cons (before : List Char) (c : Char) (rest : List Char) :
    ∃ low, lowerAfter before (c :: rest) = low ++ lowerAfter (c :: before) rest ∧ low ≠ [] ∧ (∀ d ∈ low, Low d) ∧
      (isBlank c = false → ∀ d ∈ low, isBlank d = false) := by
  refine ⟨_, rfl, ?_⟩
  split
  · have hfinal : Low 'ς' ∧ isBlank 'ς' = false := by decide +kernel
    have hinner : Low 'σ' ∧ isBlank 'σ' = false := by decide +kernel
    split
    · exact ⟨List.cons_ne_nil _ _, List.forall_mem_singleton.mpr hfinal.1,
        fun _ => List.forall_mem_singleton.mpr hfinal.2⟩
    · exact ⟨List.cons_ne_nil _ _, List.forall_mem_singleton.mpr hinner.1,
        fun _ => List.forall_mem_singleton.mpr hinner.2⟩
  · rename_i hsigma
    split
    · have hletter : Low 'i' ∧ isBlank 'i' = false := by decide +kernel
      have hdot : Low (Char.ofNat 0x307) ∧ isBlank (Char.ofNat 0x307) = false := by decide +kernel
      exact ⟨List.cons_ne_nil _ _, List.forall_mem_cons.mpr ⟨hletter.1, List.forall_mem_singleton.mpr hdot.1⟩,
        fun _ => List.forall_mem_cons.mpr ⟨hletter.2, List.forall_mem_singleton.mpr hdot.2⟩⟩
    · rename_i hdotted
      refine ⟨List.cons_ne_nil _ _, List.forall_mem_singleton.mpr (low_lowerChar hsigma hdotted), fun hblank => ?_⟩
      exact List.forall_mem_singleton.mpr (isBlank_lowerChar hblank)

theorem lowerAfter_cons_of_low (h : Low c) : lowerAfter before (c :: rest) = c :: lowerAfter (c :: before) rest := by
  obtain ⟨hsigma, hdotted, hlow⟩ := h
  simp only [lowerAfter, if_neg hsigma, if_neg hdotted, hlow, List.cons_append, List.nil_append]

theorem lowerAfter_of_low (h : ∀ c ∈ cs, Low c) : lowerAfter before cs = cs := by
  induction cs generalizing before with
  | nil => rfl
  | cons c cs ih =>
    obtain ⟨hc, hcs⟩ := List.forall_mem_cons.mp h
    rw [lowerAfter_cons_of_low hc, ih hcs]

theorem low_of_mem_lowerAfter : ∀ d ∈ lowerAfter before cs, Low d := by
  induction cs generalizing before with
  | nil => exact fun d hd => absurd hd List.not_mem_nil
  | cons c cs ih =>
    obtain ⟨low, heq, -, hlow, -⟩ := lowerAfter_cons before c cs
    rw [heq]
    exact List.forall_mem_append.mpr ⟨hlow, ih⟩

theorem lower_lower (s : String) : lower (lower s) = lower s := by
  rw [lower, lower, String.toList_ofList, lowerAfter_of_low low_of_mem_lowerAfter]

/-- The last character is blank in lower case only if it was before. -/
theorem isBlank_getLast?_lowerAfter (h : ∀ c ∈ cs.getLast?, isBlank c = false) :
    ∀ d ∈ (lowerAfter before cs).getLast?, isBlank d = false := by
  induction cs generalizing before with
  | nil => exact fun d hd => nomatch hd
  | cons c cs ih =>
    obtain ⟨low, heq, -, -, hblank⟩ := lowerAfter_cons before c cs
    rw [heq]
    cases cs with
    | nil =>
      rw [lowerAfter, List.append_nil]
      exact fun d hd => hblank (h c rfl) d (List.mem_of_getLast? hd)
    | cons c' cs =>
      obtain ⟨low', heq', hne', -, -⟩ := lowerAfter_cons (c :: before) c' cs
      have hne : lowerAfter (c :: before) (c' :: cs) ≠ [] := heq' ▸ List.append_ne_nil_of_left_ne_nil hne' _
      rw [List.getLast?_append_of_ne_nil _ hne]
      exact ih h

/-- A trimmed text is still trimmed in lower case. -/
theorem Trimmed.lowerAfter (h : Trimmed cs) : Trimmed (lowerAfter before cs) where
  head := by
    cases cs with
    | nil => exact fun d hd => nomatch hd
    | cons c cs =>
      obtain ⟨low, heq, hne, -, hblank⟩ := lowerAfter_cons before c cs
      rw [heq, List.head?_append_of_ne_nil _ hne]
      exact fun d hd => hblank (h.head c rfl) d (List.mem_of_mem_head? hd)
  last := isBlank_getLast?_lowerAfter h.last

theorem trim_lower_trim (s : String) : trim (lower (trim s)) = lower (trim s) := by
  rw [trim_eq_self, lower, String.toList_ofList, trim, String.toList_ofList]
  exact trimmed_trimChars.lowerAfter

end LogDispatch.Text
