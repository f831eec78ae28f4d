import LogDispatch.Decimal.Digits
import Mathlib.Algebra.Ring.Nat
import Mathlib.Tactic.SplitIfs

/-! Digits and what they are worth. -/

namespace LogDispatch.Decimal

variable {ds es : List Char} {c : Char}

/-! ### The digits of a number -/

theorem head?_toDigits {n : Nat} (hn : 0 < n) : (Nat.toDigits 10 n).head? ≠ some '0' := by
  induction n using Nat.strongRecOn with
  | ind n ih =>
    rw [Nat.toDigits_eq_if (by decide)]
    split_ifs with hlt
    · have hdigit : ∀ m < 10, 0 < m → Nat.digitChar m ≠ '0' := by decide
      simpa using hdigit n hlt hn
    · have hhead := ih (n / 10) (by omega) (by omega)
      obtain ⟨c, cs, hcs⟩ := List.exists_cons_of_ne_nil (Nat.toDigits_ne_nil (n := n / 10) (b := 10))
      rw [hcs] at hhead ⊢
      exact hhead

theorem isDigit_toDigits {n : Nat} {c : Char} (hc : c ∈ Nat.toDigits 10 n) : c.isDigit = true :=
  Nat.isDigit_of_mem_toDigits (by decide) (by decide) hc

/-! ### The value of digits -/

/-- The value of some digits. -/
abbrev worth (ds : List Char) : Nat := Nat.ofDigitChars 10 ds 0

theorem digitsValue_eq_worth (ds : List Char) : digitsValue 0 ds = worth ds := by
  rw [digitsValue_eq_foldl]
  exact Nat.ofDigitChars_eq_foldl.symm

theorem digitsValue_toDigits (n : Nat) : digitsValue 0 (Nat.toDigits 10 n) = n :=
  (digitsValue_eq_worth _).trans Nat.ofDigitChars_ten_toDigits

theorem worth_cons : worth (c :: ds) = (c.toNat - '0'.toNat) * 10 ^ ds.length + worth ds := by
  rw [worth, Nat.ofDigitChars_cons, Nat.ofDigitChars_eq_ofDigitChars_zero, Nat.mul_zero, Nat.zero_add, Nat.mul_comm]

theorem worth_append (ds es : List Char) : worth (ds ++ es) = worth ds * 10 ^ es.length + worth es := by
  rw [worth, Nat.ofDigitChars_append, Nat.ofDigitChars_eq_ofDigitChars_zero, Nat.mul_comm]

@[simp] theorem worth_replicate_zero (n : Nat) : worth (List.replicate n '0') = 0 := by
  rw [worth, Nat.ofDigitChars_replicate_zero, Nat.mul_zero]

theorem worth_append_zeros (ds : List Char) (n : Nat) : worth (ds ++ List.replicate n '0') = worth ds * 10 ^ n := by
  rw [worth_append, worth_replicate_zero, List.length_replicate, Nat.add_zero]

theorem worth_lt (h : ∀ c ∈ ds, c.isDigit = true) : worth ds < 10 ^ ds.length := by
  induction ds with
  | nil => simp [worth, Nat.ofDigitChars_nil]
  | cons c ds ih =>
    have hc := Char.isDigit_iff_toNat.mp (h c List.mem_cons_self)
    have hds := ih fun c' hc' => h c' (List.mem_cons_of_mem c hc')
    have hdigit : c.toNat - '0'.toNat + 1 ≤ 10 := by
      have : '9'.toNat = '0'.toNat + 9 := rfl
      omega
    calc worth (c :: ds)
        < (c.toNat - '0'.toNat) * 10 ^ ds.length + 10 ^ ds.length := by
          rw [worth_cons]
          exact Nat.add_lt_add_left hds _
      _ = (c.toNat - '0'.toNat + 1) * 10 ^ ds.length := by rw [Nat.add_mul, Nat.one_mul]
      _ ≤ 10 * 10 ^ ds.length := Nat.mul_le_mul_right _ hdigit
      _ = 10 ^ (c :: ds).length := by rw [List.length_cons, Nat.pow_succ, Nat.mul_comm]

theorem worth_eq_zero_iff (h : ∀ c ∈ ds, c.isDigit = true) : worth ds = 0 ↔ ds.all (· == '0') = true := by
  induction ds with
  | nil => simp [worth, Nat.ofDigitChars_nil]
  | cons c ds ih =>
    have hc := Char.isDigit_iff_toNat.mp (h c List.mem_cons_self)
    have hzero : c.toNat - '0'.toNat = 0 ↔ c = '0' := by
      rw [← Char.toNat_inj]
      omega
    rw [worth_cons, Nat.add_eq_zero_iff, Nat.mul_eq_zero, ih fun c' hc' => h c' (List.mem_cons_of_mem c hc'), hzero]
    simp

/-- Digits come to half of a one before them just if the first of them is at least a five. -/
theorem five_le_iff (h : ∀ c' ∈ c :: ds, c'.isDigit = true) : '5' ≤ c ↔ 10 ^ (c :: ds).length ≤ 2 * worth (c :: ds) := by
  have hc := Char.isDigit_iff_toNat.mp (h c List.mem_cons_self)
  have hds := worth_lt fun c' hc' => h c' (List.mem_cons_of_mem c hc')
  have hfive : '5' ≤ c ↔ 5 ≤ c.toNat - '0'.toNat := by
    rw [Char.le_def, UInt32.le_iff_toNat_le]
    have : '5'.toNat = '0'.toNat + 5 := rfl
    show '5'.toNat ≤ c.toNat ↔ _
    omega
  rw [hfive, worth_cons, List.length_cons, Nat.pow_succ]
  constructor
  · intro hle
    have := Nat.mul_le_mul_right (10 ^ ds.length) hle
    omega
  · refine fun hle => Nat.le_of_not_lt fun hlt => ?_
    have := Nat.mul_le_mul_right (10 ^ ds.length) (Nat.le_of_lt_succ hlt)
    omega

/-- Numerals of one length sort as the numbers they show. -/
theorem lt_iff_worth_lt (hlength : ds.length = es.length) (hds : ∀ c ∈ ds, c.isDigit = true)
    (hes : ∀ c ∈ es, c.isDigit = true) : ds < es ↔ worth ds < worth es := by
  induction ds generalizing es with
  | nil =>
    obtain rfl := List.length_eq_zero_iff.mp hlength.symm
    simp
  | cons d ds ih =>
    cases es with
    | nil => cases hlength
    | cons e es =>
      have hlength := Nat.succ.inj hlength
      obtain ⟨hd, hds⟩ := List.forall_mem_cons.mp hds
      obtain ⟨he, hes⟩ := List.forall_mem_cons.mp hes
      have hd := Char.isDigit_iff_toNat.mp hd
      have he := Char.isDigit_iff_toNat.mp he
      have hworth := worth_lt hds
      have hworth' := worth_lt hes
      have hlt : d < e ↔ d.toNat - '0'.toNat < e.toNat - '0'.toNat := by
        rw [Char.lt_def, UInt32.lt_iff_toNat_lt]
        show d.toNat < e.toNat ↔ _
        omega
      have heq : d = e ↔ d.toNat - '0'.toNat = e.toNat - '0'.toNat := by
        rw [← Char.toNat_inj]
        omega
      rw [List.cons_lt_cons_iff, ih hlength hds hes, worth_cons, worth_cons, hlength, hlt, heq]
      rw [hlength] at hworth
      generalize d.toNat - '0'.toNat = m
      generalize e.toNat - '0'.toNat = n
      rcases Nat.lt_trichotomy m n with hlt | rfl | hgt
      · have hstep := Nat.mul_le_mul_right (10 ^ es.length) hlt
        rw [Nat.succ_mul] at hstep
        exact iff_of_true (.inl hlt) (by omega)
      · omega
      · have hstep := Nat.mul_le_mul_right (10 ^ es.length) hgt
        rw [Nat.succ_mul] at hstep
        exact iff_of_false (by omega) (by omega)

end LogDispatch.Decimal
