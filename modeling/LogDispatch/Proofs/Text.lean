import LogDispatch.Text.Blank
import LogDispatch.Text.Split
import Mathlib.Data.List.DropRight
import Mathlib.Data.List.TakeWhile

/-! Trimming and cutting texts, how they sort and how long they are in bytes. A text is its own trimmed form when no blank
    stands at an end (`Trimmed`). -/

namespace LogDispatch.Text

variable {a b c sep : Char} {as bs cs ds : List Char}

/-! ### Trimming -/

structure Trimmed (cs : List Char) : Prop where
  head : ∀ c ∈ cs.head?, isBlank c = false
  last : ∀ c ∈ cs.getLast?, isBlank c = false

theorem dropWhile_eq_self {p : Char → Bool} : cs.dropWhile p = cs ↔ ∀ c ∈ cs.head?, p c = false := by
  cases cs with
  | nil => simp
  | cons c cs =>
    by_cases h : p c
    · have hlength := (List.dropWhile_suffix p (l := cs)).length_le
      simp only [List.dropWhile_cons_of_pos h, List.head?_cons, Option.mem_some_iff, forall_eq', h]
      refine iff_of_false (fun heq => ?_) (by simp)
      rw [heq, List.length_cons] at hlength
      omega
    · simp [h]

theorem dropWhile_trimChars (h : trimChars cs = cs) : cs.dropWhile isBlank = cs := by
  have hsuffix := List.dropWhile_suffix isBlank (l := cs)
  have hlength := (List.dropWhile_suffix isBlank (l := (cs.dropWhile isBlank).reverse)).length_le
  have hself : (trimChars cs).length = cs.length := by rw [h]
  rw [trimChars, List.length_reverse] at hself
  rw [hself, List.length_reverse] at hlength
  exact hsuffix.eq_of_length_le hlength

theorem trimChars_eq_self : trimChars cs = cs ↔ Trimmed cs := by
  constructor
  · intro h
    have hhead := dropWhile_trimChars h
    rw [trimChars, hhead, List.reverse_eq_iff, dropWhile_eq_self, List.head?_reverse] at h
    exact ⟨dropWhile_eq_self.mp hhead, h⟩
  · intro h
    rw [trimChars, dropWhile_eq_self.mpr h.head, List.reverse_eq_iff, dropWhile_eq_self, List.head?_reverse]
    exact h.last

theorem trimmed_trimChars : Trimmed (trimChars cs) where
  head c hc := by
    obtain ⟨kept, hkept⟩ := List.head?_eq_some_iff.mp hc
    -- what is kept starts the text without its first blanks
    obtain ⟨rest, hrest⟩ : trimChars cs <+: cs.dropWhile isBlank := List.rdropWhile_prefix isBlank _
    refine dropWhile_eq_self.mp (List.dropWhile_idempotent isBlank cs) c ?_
    rw [← hrest, hkept]
    rfl
  last c hc := by
    rw [trimChars, List.getLast?_reverse] at hc
    exact dropWhile_eq_self.mp (List.dropWhile_idempotent isBlank _) c hc

theorem trimChars_eq_nil_iff : trimChars cs = [] ↔ ∀ c ∈ cs, isBlank c = true := by
  rw [trimChars, List.reverse_eq_nil_iff, List.dropWhile_eq_nil_iff]
  refine ⟨fun h => List.dropWhile_eq_nil_iff.mp ?_, fun h => ?_⟩
  · by_contra hne
    have hblank := h _ (List.mem_reverse.mpr (List.head_mem hne))
    rw [List.head_dropWhile_not isBlank hne] at hblank
    cases hblank
  · rw [List.dropWhile_eq_nil_iff.mpr h]
    simp

theorem trim_eq_self {s : String} : trim s = s ↔ Trimmed s.toList := by
  rw [← trimChars_eq_self, trim]
  constructor
  · intro h
    have := congrArg String.toList h
    rwa [String.toList_ofList] at this
  · intro h
    rw [h, String.ofList_toList]

theorem Trimmed.append (ms : List Char) (hc : Trimmed cs) (hd : Trimmed ds) (hcs : cs ≠ []) (hds : ds ≠ []) :
    Trimmed (cs ++ (ms ++ ds)) where
  head := by
    obtain ⟨c, cs, rfl⟩ := List.exists_cons_of_ne_nil hcs
    simpa using hc.head
  last := by
    simpa [hds] using hd.last

theorem Trimmed.intercalate {pieces : List (List Char)} (hne : pieces ≠ [])
    (h : ∀ p ∈ pieces, Trimmed p ∧ p ≠ []) :
    Trimmed ([sep].intercalate pieces) ∧ [sep].intercalate pieces ≠ [] := by
  induction pieces with
  | nil => exact absurd rfl hne
  | cons p ps ih =>
    obtain ⟨hp, hpne⟩ := h p List.mem_cons_self
    cases ps with
    | nil => simpa [List.intercalate_singleton] using ⟨hp, hpne⟩
    | cons q qs =>
      obtain ⟨hrest, hrestne⟩ := ih (by simp) fun r hr => h r (List.mem_cons_of_mem _ hr)
      rw [List.intercalate_cons_cons, List.append_assoc]
      exact ⟨hp.append [sep] hrest hpne hrestne, by simp [hpne]⟩

/-! ### Cutting -/

theorem splitAll_eq_splitOn : splitAll sep cs = cs.splitOn sep := by
  induction cs with
  | nil => rfl
  | cons c cs ih =>
    rw [splitAll, List.splitOn, List.splitOnP_cons_eq_if_modifyHead, ← List.splitOn, ← ih]
    by_cases h : c = sep
    · simp [h]
    · obtain ⟨p, ps, hps⟩ := List.exists_cons_of_ne_nil (ih ▸ List.splitOn_ne_nil sep cs)
      simp [h, hps]

theorem splitAll_intercalate {pieces : List (List Char)} (h : ∀ p ∈ pieces, sep ∉ p) (hne : pieces ≠ []) :
    splitAll sep ([sep].intercalate pieces) = pieces := by
  rw [splitAll_eq_splitOn, List.splitOn_intercalate sep h hne]

theorem notMem_of_mem_splitAll : ∀ p ∈ splitAll sep cs, sep ∉ p := by
  induction cs with
  | nil => simp [splitAll]
  | cons c cs ih =>
    rw [splitAll]
    split
    · exact List.forall_mem_cons.mpr ⟨List.not_mem_nil, ih⟩
    · next hc =>
      split
      · exact List.forall_mem_singleton.mpr (by simpa using Ne.symm hc)
      · next p ps hps =>
        rw [hps] at ih
        obtain ⟨hp, hps⟩ := List.forall_mem_cons.mp ih
        exact List.forall_mem_cons.mpr ⟨by simp [Ne.symm hc, hp], hps⟩

theorem splitFirst?_append (h : sep ∉ cs) : splitFirst? sep (cs ++ sep :: ds) = some (cs, ds) := by
  induction cs with
  | nil => simp [splitFirst?]
  | cons c cs ih =>
    rw [List.mem_cons, not_or] at h
    rw [List.cons_append, splitFirst?, if_neg (Ne.symm h.1), ih h.2]
    rfl

theorem splitFirst?_eq_none (h : sep ∉ cs) : splitFirst? sep cs = none := by
  induction cs with
  | nil => rfl
  | cons c cs ih =>
    rw [List.mem_cons, not_or] at h
    rw [splitFirst?, if_neg (Ne.symm h.1), ih h.2]
    rfl

theorem dropBefore_pair : dropBefore a b (a :: b :: cs) = b :: dropBefore a b cs := by
  rw [dropBefore, if_pos ⟨rfl, rfl⟩]

theorem dropBefore_cons (h : c = a → cs.head? ≠ some b) : dropBefore a b (c :: cs) = c :: dropBefore a b cs := by
  cases cs with
  | nil => rfl
  | cons d cs =>
    rw [dropBefore, if_neg]
    rintro ⟨hc, rfl⟩
    exact h hc rfl

/-! ### Order and bytes -/

theorem append_lt_append_iff (h : as.length = bs.length) :
    as ++ cs < bs ++ ds ↔ as < bs ∨ as = bs ∧ cs < ds := by
  induction as generalizing bs with
  | nil =>
    obtain rfl := List.length_eq_zero_iff.mp h.symm
    simp
  | cons a as ih =>
    cases bs with
    | nil => cases h
    | cons b bs =>
      rw [List.cons_append, List.cons_append, List.cons_lt_cons_iff, List.cons_lt_cons_iff, ih (Nat.succ.inj h),
        List.cons.injEq, and_or_left, or_assoc, and_assoc]

theorem append_left_lt_iff (as : List Char) : as ++ cs < as ++ ds ↔ cs < ds := by
  rw [append_lt_append_iff rfl]
  exact ⟨fun h => h.elim (absurd · (List.lt_irrefl as)) And.right, fun h => .inr ⟨rfl, h⟩⟩

theorem utf8ByteSize_of_ascii (h : ∀ c ∈ cs, c.toNat < 128) : (String.ofList cs).utf8ByteSize = cs.length := by
  induction cs with
  | nil => rfl
  | cons c cs ih =>
    obtain ⟨hc, hcs⟩ := List.forall_mem_cons.mp h
    have hsize : c.utf8Size = 1 := Char.utf8Size_eq_one_iff.mpr (UInt32.le_iff_toNat_le.mpr (Nat.le_of_lt_succ hc))
    rw [String.ofList_cons, String.utf8ByteSize_append, String.utf8ByteSize_singleton, ih hcs, hsize, List.length_cons]
    omega

end LogDispatch.Text
