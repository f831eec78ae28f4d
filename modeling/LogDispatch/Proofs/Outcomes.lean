/-! Computations that may fail: what one that returned has done, and when another returns the same. -/

namespace LogDispatch

section
variable {ε α β : Type}

theorem bind_eq_ok {x : Except ε α} {f : α → Except ε β} {b : β} (h : (x >>= f) = .ok b) :
    ∃ a, x = .ok a ∧ f a = .ok b := by
  cases x with
  | error => cases h
  | ok a => exact ⟨a, rfl, h⟩

theorem eq_ok_of_toOption {x : Except ε α} {a : α} (h : x.toOption = some a) : x = .ok a := by
  cases x with
  | error => cases h
  | ok => exact congrArg Except.ok (Option.some.inj h)

end

/-! ### Lists that computations made -/

section
variable {ε α β : Type} {f : α → Except ε β} {xs : List α} {ys : List β}

theorem mem_of_mapM_eq_ok (h : xs.mapM f = .ok ys) : ∀ y ∈ ys, ∃ x ∈ xs, f x = .ok y := by
  induction xs generalizing ys with
  | nil =>
    obtain rfl := Except.ok.inj h
    exact fun _ hy => absurd hy List.not_mem_nil
  | cons x xs ih =>
    rw [List.mapM_cons] at h
    obtain ⟨y, hy, h⟩ := bind_eq_ok h
    obtain ⟨rest, hrest, h⟩ := bind_eq_ok h
    obtain rfl := Except.ok.inj h
    refine List.forall_mem_cons.mpr ⟨⟨x, List.mem_cons_self, hy⟩, fun z hz => ?_⟩
    obtain ⟨x', hx', hz⟩ := ih hrest z hz
    exact ⟨x', List.mem_cons_of_mem x hx', hz⟩

theorem mapM_congr {g : α → Except ε β} (h : ∀ x ∈ xs, f x = g x) : xs.mapM f = xs.mapM g := by
  induction xs with
  | nil => rfl
  | cons x xs ih =>
    obtain ⟨hx, hxs⟩ := List.forall_mem_cons.mp h
    rw [List.mapM_cons, List.mapM_cons, hx, ih hxs]

theorem mem_of_filterMapM_eq_ok {f : α → Except ε (Option β)} (h : xs.filterMapM f = .ok ys) :
    ∀ y ∈ ys, ∃ x ∈ xs, f x = .ok (some y) := by
  induction xs generalizing ys with
  | nil =>
    obtain rfl := Except.ok.inj h
    exact fun _ hy => absurd hy List.not_mem_nil
  | cons x xs ih =>
    rw [List.filterMapM_cons] at h
    obtain ⟨y?, hy, h⟩ := bind_eq_ok h
    have later : ∀ {zs : List β}, xs.filterMapM f = .ok zs → ∀ z ∈ zs, ∃ x' ∈ x :: xs, f x' = .ok (some z) := by
      intro zs hzs z hz
      obtain ⟨x', hx', hz⟩ := ih hzs z hz
      exact ⟨x', List.mem_cons_of_mem x hx', hz⟩
    cases y? with
    | none => exact later h
    | some y =>
      obtain ⟨rest, hrest, h⟩ := bind_eq_ok h
      obtain rfl := Except.ok.inj h
      exact List.forall_mem_cons.mpr ⟨⟨x, List.mem_cons_self, hy⟩, later hrest⟩

end

/-! ### Computations that differ in their refusals -/

section
variable {ε α β : Type} {x y : Except ε α}

/-- What the first computation returns, the second returns too. -/
def Within (x y : Except ε α) : Prop := ∀ a, x = .ok a → y = .ok a

theorem Within.refl (x : Except ε α) : Within x x := fun _ => id

theorem Within.of_error (e : ε) (y : Except ε α) : Within (.error e) y := by
  intro a ha
  cases ha

theorem Within.bind {f g : α → Except ε β} (hx : Within x y) (hf : ∀ a, Within (f a) (g a)) :
    Within (x >>= f) (y >>= g) := by
  intro b hb
  obtain ⟨a, ha, hb⟩ := bind_eq_ok hb
  rw [hx a ha]
  exact hf a b hb

theorem Within.mapM {f g : α → Except ε β} (h : ∀ a, Within (f a) (g a)) (as : List α) :
    Within (as.mapM f) (as.mapM g) := by
  induction as with
  | nil => exact .refl _
  | cons a as ih =>
    rw [List.mapM_cons, List.mapM_cons]
    exact (h a).bind fun b => ih.bind fun bs => .refl _

theorem Within.mapError {δ : Type} (x : Except δ α) (f g : δ → ε) : Within (x.mapError f) (x.mapError g) := by
  intro a ha
  cases x with
  | error => cases ha
  | ok b => exact ha

end

end LogDispatch
