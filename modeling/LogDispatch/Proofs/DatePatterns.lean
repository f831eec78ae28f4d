import LogDispatch.Pattern.Date.Tokens
import LogDispatch.Proofs.Text
import Mathlib.Data.List.MinMax

/-! Date patterns. Main statement: a date in a pattern is what the pattern says of it when it is read from left to right,
    each token worked out where it stands; a text, each run of it in quotes, is a pattern that shows just that text
    (`format_says`). Beyond the calendar there is no text at all (`quoted_text_beyond_calendar`).

    The reader of patterns goes by letters and how often they stand in a row, so a token is looked at as a run of one
    letter (`token_eq_replicate`); what it makes of a pattern is compared with the rule lexeme by lexeme, and its slots with
    the lexemes after that (`Stands`). -/

namespace LogDispatch

namespace DatePattern

variable {c : Char} {cs rest : List Char}

/-! ### Tokens -/

/-- The letters that tokens are made of. -/
def letters : List Char := ['d', 'm', 'y', 'H', 'h', 'M', 's', 'T', 't', 'l', 'L', 'o', 'S', 'Z', 'W', 'N']

/-- How often the letter of a token stands in it. -/
def runs : List Nat := [1, 2, 3, 4]

/-- How often a letter stands in a row when it stands before `cs`. -/
def runBefore (c : Char) (cs : List Char) : Nat := (cs.takeWhile (· == c)).length + 1

theorem replicate_prefix_iff {n : Nat} : List.replicate n c <+: cs ↔ n ≤ (cs.takeWhile (· == c)).length := by
  induction cs generalizing n with
  | nil => simp
  | cons d cs ih =>
    cases n with
    | zero => simp
    | succ n =>
      rw [List.replicate_succ, List.cons_prefix_cons, ih]
      by_cases hd : d = c
      · simp [hd]
      · simp [hd, Ne.symm hd]

/-- No form of a field has more than four letters. -/
theorem fieldOf?_min (c : Char) (run : Nat) : fieldOf? c (min run 4) = fieldOf? c run := by
  have hfour : 4 ≤ min run 4 ↔ 4 ≤ run := by omega
  have hthree : min run 4 = 3 ↔ run = 3 := by omega
  have htwo : min run 4 = 2 ↔ run = 2 := by omega
  have htwo_le : 2 ≤ min run 4 ↔ 2 ≤ run := by omega
  simp only [fieldOf?, hfour, hthree, htwo, htwo_le]

theorem fieldOf?_of_notMem {run : Nat} (h : c ∉ letters) : fieldOf? c run = none := by
  simp only [letters, List.mem_cons, List.not_mem_nil, or_false, not_or] at h
  simp [fieldOf?, h]

/-- Each token is a run of one letter. -/
theorem token_eq_replicate {e : String × DateField} (he : e ∈ tokens) : ∃ d ∈ letters,
    e.1.toList = List.replicate e.1.length d ∧ 1 ≤ e.1.length ∧ e.1.length ≤ 4 := by
  -- Computed over the lists: a statement about characters may be decided by going through all that there are.
  have hall : tokens.all fun e => letters.any fun d =>
      e.1.toList = List.replicate e.1.length d ∧ 1 ≤ e.1.length ∧ e.1.length ≤ 4 := by
    decide +kernel
  simpa only [List.any_eq_true, decide_eq_true_eq] using List.all_eq_true.mp hall e he

/-- Of the tokens that a run covers, the field of a letter is that of the longest one. -/
theorem fieldOf?_token {e : String × DateField} {d : Char} {run : Nat} (he : e ∈ tokens) (hd : d ∈ letters)
    (hhead : e.1.toList.head? = some d) (hrun : run ∈ runs) (hlength : e.1.length ≤ run)
    (hlongest : ∀ e' ∈ tokens, e'.1.toList.head? = some d → e'.1.length ≤ run → e'.1.length ≤ e.1.length) :
    fieldOf? d run = some (e.2, e.1.length) := by
  have hall : tokens.all fun e => letters.all fun d => decide (e.1.toList.head? = some d → ∀ run ∈ runs,
      e.1.length ≤ run →
      (∀ e' ∈ tokens, e'.1.toList.head? = some d → e'.1.length ≤ run → e'.1.length ≤ e.1.length) →
      fieldOf? d run = some (e.2, e.1.length)) := by
    decide +kernel
  have htoken := List.all_eq_true.mp (List.all_eq_true.mp hall e he) d hd
  exact of_decide_eq_true htoken hhead run hrun hlength hlongest

theorem fieldOf?_eq_none {d : Char} {run : Nat} (hd : d ∈ letters) (hrun : run ∈ runs)
    (hnone : ∀ e ∈ tokens, e.1.toList.head? = some d → ¬e.1.length ≤ run) : fieldOf? d run = none := by
  have hall : letters.all fun d => decide (∀ run ∈ runs,
      (∀ e ∈ tokens, e.1.toList.head? = some d → ¬e.1.length ≤ run) → fieldOf? d run = none) := by
    decide +kernel
  exact of_decide_eq_true (List.all_eq_true.mp hall d hd) run hrun hnone

theorem token_prefix_iff {e : String × DateField} (he : e ∈ tokens) :
    e.1.toList <+: c :: cs ↔ e.1.toList.head? = some c ∧ e.1.length ≤ runBefore c cs := by
  obtain ⟨d, -, htoken, hpos, -⟩ := token_eq_replicate he
  obtain ⟨n, hn⟩ := Nat.exists_eq_add_of_le' hpos
  rw [htoken, hn, List.replicate_succ, List.cons_prefix_cons, List.head?_cons, Option.some_inj, runBefore,
    Nat.add_le_add_iff_right]
  exact and_congr_right fun hd => hd ▸ replicate_prefix_iff

theorem run_cases (c : Char) (cs : List Char) : min (runBefore c cs) 4 ∈ runs := by
  have hpos : 1 ≤ runBefore c cs := Nat.le_add_left 1 _
  simp only [runs, List.mem_cons, List.not_mem_nil, or_false]
  omega

theorem fieldOf?_of_isLongest {token : String} {f : DateField} (h : IsLongest token f (c :: cs)) :
    fieldOf? c (runBefore c cs) = some (f, token.length) := by
  obtain ⟨d, hd, htoken, hpos, hfour⟩ := token_eq_replicate h.mem
  obtain ⟨hhead, hrun⟩ := (token_prefix_iff h.mem).mp h.starts
  obtain rfl : d = c := by
    rw [htoken, List.head?_replicate, if_neg (Nat.ne_of_gt hpos)] at hhead
    exact Option.some.inj hhead
  rw [← fieldOf?_min]
  refine fieldOf?_token h.mem hd hhead (run_cases d cs) (Nat.le_min.mpr ⟨hrun, hfour⟩) ?_
  intro e he hhead' hlength
  exact h.longest e he ((token_prefix_iff he).mpr ⟨hhead', (Nat.le_min.mp hlength).1⟩)

theorem fieldOf?_of_no_token (h : ∀ e ∈ tokens, ¬e.1.toList <+: c :: cs) : fieldOf? c (runBefore c cs) = none := by
  by_cases hc : c ∈ letters
  · rw [← fieldOf?_min]
    refine fieldOf?_eq_none hc (run_cases c cs) fun e he hhead hlength => ?_
    exact h e he ((token_prefix_iff he).mpr ⟨hhead, (Nat.le_min.mp hlength).1⟩)
  · exact fieldOf?_of_notMem hc

/-! ### Lexemes -/

theorem lexemes_skip (n : Nat) (cs : List Char) : lexemes n cs = lexemes 0 (cs.drop n) := by
  induction cs generalizing n with
  | nil => simp [lexemes]
  | cons c cs ih =>
    cases n with
    | zero => rfl
    | succ n => exact ih n

theorem lexemes_cons (c : Char) (cs : List Char) :
    lexemes 0 (c :: cs) = (lexemeAt c cs).1 :: lexemes 0 (cs.drop (lexemeAt c cs).2) := by
  rw [← lexemes_skip]
  rfl

theorem lexemeAt_quoted {run : List Char} (hc : c = '\'' ∨ c = '"') (hrun : c ∉ run) :
    lexemeAt c (run ++ c :: rest) = (.text run, run.length + 1) := by
  have hinner : (run ++ c :: rest).takeWhile (· != c) = run := by
    have hall : ∀ d ∈ run, (d != c) = true := fun d hd => bne_iff_ne.mpr fun heq => hrun (heq ▸ hd)
    rw [List.takeWhile_append_of_pos hall]
    simp
  rw [lexemeAt, hinner]
  exact if_pos ⟨hc, by simp⟩

theorem startsQuoted_of_lt (hc : c = '\'' ∨ c = '"') (h : (cs.takeWhile (· != c)).length < cs.length) :
    StartsQuoted (c :: cs) := by
  have hne : cs.dropWhile (· != c) ≠ [] := by
    intro hnil
    have happend := List.takeWhile_append_dropWhile (p := (· != c)) (l := cs)
    rw [hnil, List.append_nil] at happend
    exact Nat.lt_irrefl _ (happend ▸ h)
  obtain ⟨d, rest, hrest⟩ := List.exists_cons_of_ne_nil hne
  have hd : d = c := by
    have := List.head_dropWhile_not (· != c) hne
    simpa [hrest] using this
  refine ⟨c, cs.takeWhile (· != c), rest, hc, fun hmem => ?_, ?_⟩
  · simpa using List.mem_takeWhile_imp hmem
  · rw [← hd, ← hrest, hd, List.takeWhile_append_dropWhile]

/-- Where no quoted run starts, the letter and its run decide. -/
theorem lexemeAt_unquoted (h : ¬StartsQuoted (c :: cs)) : lexemeAt c cs =
    match fieldOf? c (runBefore c cs) with
    | some (f, n) => (.field f, n - 1)
    | none => (.text [c], 0) := by
  rw [lexemeAt]
  exact if_neg fun hquoted => h (startsQuoted_of_lt hquoted.1 hquoted.2)

theorem lexemes_quoted {run : List Char} (hc : c = '\'' ∨ c = '"') (hrun : c ∉ run) :
    lexemes 0 (c :: (run ++ c :: rest)) = .text run :: lexemes 0 rest := by
  rw [lexemes_cons, lexemeAt_quoted hc hrun]
  simp

theorem lexemes_token {token : String} {f : DateField} (hquoted : ¬StartsQuoted (token.toList ++ rest))
    (htoken : IsLongest token f (token.toList ++ rest)) :
    lexemes 0 (token.toList ++ rest) = .field f :: lexemes 0 rest := by
  obtain ⟨d, -, hreplicate, hpos, -⟩ := token_eq_replicate htoken.mem
  obtain ⟨n, hn⟩ := Nat.exists_eq_add_of_le' hpos
  have hcons : token.toList ++ rest = d :: (List.replicate n d ++ rest) := by
    rw [hreplicate, hn, List.replicate_succ, List.cons_append]
  rw [hcons] at hquoted htoken ⊢
  rw [lexemes_cons, lexemeAt_unquoted hquoted, fieldOf?_of_isLongest htoken, hn]
  simp

theorem lexemes_plain (hquoted : ¬StartsQuoted (c :: cs)) (htoken : ∀ e ∈ tokens, ¬e.1.toList <+: c :: cs) :
    lexemes 0 (c :: cs) = .text [c] :: lexemes 0 cs := by
  rw [lexemes_cons, lexemeAt_unquoted hquoted, fieldOf?_of_no_token htoken]
  rfl

/-! ### What a pattern says -/

section
variable {m : Calendar.Moment} {offset : Int} {text : List Char}

def Lexeme.shown (m : Calendar.Moment) (offset : Int) : Lexeme → List Char
  | .text cs => cs
  | .field f => (fieldText m offset f).toList

/-- The text of the lexemes of a pattern. -/
def said (m : Calendar.Moment) (offset : Int) (cs : List Char) : List Char :=
  (lexemes 0 cs).flatMap (Lexeme.shown m offset)

theorem exists_longest {e : String × DateField} (he : e ∈ tokens) (hstarts : e.1.toList <+: cs) :
    ∃ token f, IsLongest token f cs := by
  have hmem : e ∈ tokens.filter fun e => e.1.toList <+: cs := List.mem_filter.mpr ⟨he, decide_eq_true hstarts⟩
  cases hmax : (tokens.filter fun e => e.1.toList <+: cs).argmax (·.1.length) with
  | none =>
    rw [List.argmax_eq_none.mp hmax] at hmem
    cases hmem
  | some best =>
    obtain ⟨hbest, hbegins⟩ := List.mem_filter.mp (List.argmax_mem hmax)
    refine ⟨best.1, best.2, hbest, of_decide_eq_true hbegins, fun e' he' hstarts' => ?_⟩
    exact List.le_of_mem_argmax (f := fun e : String × DateField => e.1.length)
      (List.mem_filter.mpr ⟨he', decide_eq_true hstarts'⟩) hmax

theorem Says.eq_said (h : Says m offset cs text) : text = said m offset cs := by
  induction h with
  | nil => rfl
  | quoted hquote hrun _ ih =>
    rw [said, lexemes_quoted hquote hrun, List.flatMap_cons, ih]
    rfl
  | token hquoted htoken _ ih =>
    rw [said, lexemes_token hquoted htoken, List.flatMap_cons, ih]
    rfl
  | plain hquoted htoken _ ih =>
    rw [said, lexemes_plain hquoted htoken, List.flatMap_cons, ih]
    rfl

theorem says_said (m : Calendar.Moment) (offset : Int) (cs : List Char) : Says m offset cs (said m offset cs) := by
  induction hn : cs.length using Nat.strongRecOn generalizing cs with
  | ind n ih =>
    subst hn
    rcases cs with - | ⟨c, cs⟩
    · exact .nil
    by_cases hquoted : StartsQuoted (c :: cs)
    · obtain ⟨quote, run, rest, hquote, hrun, heq⟩ := hquoted
      rw [heq] at ih ⊢
      have hrest := ih _ (by simp; omega) rest rfl
      rw [said, lexemes_quoted hquote hrun, List.flatMap_cons]
      exact .quoted hquote hrun hrest
    by_cases htoken : ∃ e ∈ tokens, e.1.toList <+: c :: cs
    · obtain ⟨e, he, hstarts⟩ := htoken
      obtain ⟨token, f, hlongest⟩ := exists_longest he hstarts
      obtain ⟨rest, heq⟩ := hlongest.starts
      have hpos : 1 ≤ token.length := (token_eq_replicate hlongest.mem).elim fun _ h => h.2.2.1
      rw [← heq] at ih hquoted hlongest ⊢
      have hrest := ih rest.length (by rw [List.length_append, String.length_toList]; omega) rest rfl
      rw [said, lexemes_token hquoted hlongest, List.flatMap_cons]
      exact .token hquoted hlongest hrest
    · have hnone : ∀ e ∈ tokens, ¬e.1.toList <+: c :: cs := fun e he hstarts => htoken ⟨e, he, hstarts⟩
      rw [said, lexemes_plain hquoted hnone, List.flatMap_cons]
      exact .plain hquoted hnone (ih cs.length (by simp) cs rfl)

/-- There is one thing that a pattern says. -/
theorem says_iff : Says m offset cs text ↔ text = said m offset cs :=
  ⟨Says.eq_said, fun h => h ▸ says_said m offset cs⟩

end

/-! ### Slots -/

section
variable {f : DateField} {fields : List DateField} {x : Lexeme} {xs : List Lexeme}

/-- A piece stands for a lexeme when its slot holds the field. -/
inductive Stands (fields : List DateField) : Lexeme → Piece → Prop
  | text (cs : List Char) : Stands fields (.text cs) (.text cs)
  | slot {f : DateField} {i : Nat} (h : fields[i]? = some f) : Stands fields (.field f) (.slot i)

theorem Stands.mono {fields' : List DateField} {p : Piece} (h : Stands fields x p) (hkept : fields <+: fields') :
    Stands fields' x p := by
  cases h with
  | text cs => exact .text cs
  | slot h =>
    obtain ⟨more, rfl⟩ := hkept
    exact .slot (List.getElem?_append_left ((List.getElem?_eq_some_iff.mp h).1) ▸ h)

theorem slotOf_spec (fields : List DateField) (f : DateField) :
    (slotOf fields f).2[(slotOf fields f).1]? = some f ∧ fields <+: (slotOf fields f).2 ∧
      (fields.Nodup → (slotOf fields f).2.Nodup) := by
  unfold slotOf
  split
  · next i hi =>
    obtain ⟨hlt, hfield, -⟩ := List.findIdx?_eq_some_iff_getElem.mp hi
    have heq : fields[i] = f := by simpa using hfield
    exact ⟨by rw [List.getElem?_eq_getElem hlt, heq], List.prefix_refl _, id⟩
  · next hnone =>
    have hnew : f ∉ fields := fun hmem => by simpa using List.findIdx?_eq_none_iff.mp hnone f hmem
    refine ⟨by simp, List.prefix_append _ _, fun hnodup => ?_⟩
    simpa [List.nodup_append, hnodup] using fun g hg (heq : g = f) => hnew (heq ▸ hg)

/-- The fields that there were keep their slots. -/
theorem assemble_spec (xs : List Lexeme) (fields : List DateField) :
    List.Forall₂ (Stands (assemble fields xs).1) xs (assemble fields xs).2 ∧ fields <+: (assemble fields xs).1 ∧
      (fields.Nodup → (assemble fields xs).1.Nodup) := by
  induction xs generalizing fields with
  | nil => exact ⟨.nil, List.prefix_refl _, id⟩
  | cons x xs ih =>
    cases x with
    | text cs =>
      obtain ⟨hstands, hkept, hnodup⟩ := ih fields
      exact ⟨.cons (.text cs) hstands, hkept, hnodup⟩
    | field f =>
      obtain ⟨hslot, hkept, hnodup⟩ := slotOf_spec fields f
      obtain ⟨hstands, hkept', hnodup'⟩ := ih (slotOf fields f).2
      exact ⟨.cons ((Stands.slot hslot).mono hkept') hstands, hkept.trans hkept', hnodup' ∘ hnodup⟩

theorem Stands.slot_lt {i : Nat} {ps : List Piece} (h : List.Forall₂ (Stands fields) xs ps) (hi : .slot i ∈ ps) :
    i < fields.length := by
  induction h with
  | nil => cases hi
  | cons hstands _ ih =>
    rcases List.mem_cons.mp hi with rfl | hi
    · cases hstands with
      | slot h => exact (List.getElem?_eq_some_iff.mp h).1
    · exact ih hi

/-- What a piece shows when the fields have been worked out. -/
def Piece.shown (values : List String) : Piece → List Char
  | .text cs => cs
  | .slot i => (values.getD i "").toList

theorem Stands.shown {m : Calendar.Moment} {offset : Int} {p : Piece} (h : Stands fields x p) :
    p.shown (fields.map (fieldText m offset)) = x.shown m offset := by
  cases h with
  | text cs => rfl
  | slot h => simp [Piece.shown, Lexeme.shown, h]

theorem Stands.flatMap_shown {m : Calendar.Moment} {offset : Int} {ps : List Piece}
    (h : List.Forall₂ (Stands fields) xs ps) :
    ps.flatMap (Piece.shown (fields.map (fieldText m offset))) = xs.flatMap (Lexeme.shown m offset) := by
  induction h with
  | nil => rfl
  | cons hstands _ ih => rw [List.flatMap_cons, List.flatMap_cons, hstands.shown, ih]

theorem toList_formatMoment (p : DatePattern) (m : Calendar.Moment) (offset : Int) :
    (p.formatMoment m offset).toList = p.pieces.flatMap (Piece.shown (p.fields.map (fieldText m offset))) := by
  unfold formatMoment
  dsimp only
  induction p.pieces with
  | nil => rfl
  | cons piece pieces ih =>
    rw [List.map_cons, String.join_cons, String.toList_append, ih, List.flatMap_cons]
    cases piece <;> simp [Piece.shown]

end

/-! ### Whole patterns -/

section
variable {source : String} {t : Timestamp} {offset : Int} {body : List Char}

/-- What a pattern is made of, and the offset at which it reads a date. -/
theorem compile_spec (h : ReadsAt t source.toList offset body) :
    (compile source).fields = (assemble [] (lexemes 0 body)).1 ∧ (compile source).pieces = (assemble [] (lexemes 0 body)).2 ∧
      (if (compile source).utc then 0 else t.offset) = offset := by
  generalize hcs : source.toList = cs at h
  cases h with
  | utc =>
    have hutc : utcMark.isPrefixOf (utcMark ++ body) = true := by simp
    simp [compile, hcs, hutc]
  | here h =>
    have hutc : utcMark.isPrefixOf body = false := by
      rw [Bool.eq_false_iff, ne_eq, List.isPrefixOf_iff_prefix]
      exact h
    simp [compile, hcs, hutc]

theorem format_spec (h : ReadsAt t source.toList offset body) :
    (compile source).format t = if Calendar.shows t offset then .ok (String.ofList (said (.ofTimestamp t offset) offset body))
      else .error beyondCalendar := by
  obtain ⟨hfields, hpieces, hoffset⟩ := compile_spec h
  have hstands := (assemble_spec (lexemes 0 body) []).1
  have htext : (compile source).formatMoment (.ofTimestamp t offset) offset =
      String.ofList (said (.ofTimestamp t offset) offset body) := by
    rw [← String.toList_inj, toList_formatMoment, hfields, hpieces, String.toList_ofList]
    exact Stands.flatMap_shown hstands
  rw [format, hoffset, htext]

end

/-! ### Patterns for texts -/

section
variable {m : Calendar.Moment} {offset : Int} {text : List Char}

theorem says_quoteRun {run : List Char} (hrun : '\'' ∉ run) (h : Says m offset rest text) :
    Says m offset (quoteRun run ++ rest) (run ++ text) := by
  unfold quoteRun
  split_ifs with hnil
  · simpa [hnil] using h
  · simpa using Says.quoted (.inl rfl) hrun h

theorem says_quote (h : Says m offset rest text) : Says m offset (['"', '\'', '"'] ++ rest) (['\''] ++ text) :=
  Says.quoted (.inr rfl) (show '"' ∉ ['\''] by decide) h

theorem says_intercalate {runs : List (List Char)} (h : ∀ run ∈ runs, '\'' ∉ run) :
    Says m offset (['"', '\'', '"'].intercalate (runs.map quoteRun)) (['\''].intercalate runs) := by
  induction runs with
  | nil => exact .nil
  | cons run runs ih =>
    have hrun := h run List.mem_cons_self
    have hrest := ih fun r hr => h r (List.mem_cons_of_mem run hr)
    cases runs with
    | nil => simpa [List.intercalate_singleton] using says_quoteRun hrun Says.nil
    | cons next runs =>
      rw [List.map_cons, List.map_cons, List.intercalate_cons_cons, List.intercalate_cons_cons, List.append_assoc,
        List.append_assoc]
      exact says_quoteRun hrun (says_quote hrest)

theorem says_ofText (m : Calendar.Moment) (offset : Int) (text : String) :
    Says m offset (ofText text).toList text.toList := by
  have hruns : ∀ run ∈ Text.splitAll '\'' text.toList, '\'' ∉ run := Text.notMem_of_mem_splitAll
  have h : Says m offset _ _ := says_intercalate hruns
  rw [ofText, String.toList_ofList]
  rwa [Text.splitAll_eq_splitOn, List.intercalate_splitOn, ← Text.splitAll_eq_splitOn] at h

theorem not_utc_ofText (text : String) : ¬utcMark <+: (ofText text).toList := by
  rw [ofText, String.toList_ofList]
  generalize Text.splitAll '\'' text.toList = runs
  match runs with
  | [] => decide
  | [run] =>
    rw [List.map_singleton, List.intercalate_singleton, quoteRun]
    split_ifs <;> simp [utcMark]
  | run :: next :: runs =>
    rw [List.map_cons, List.map_cons, List.intercalate_cons_cons, quoteRun]
    split_ifs <;> simp [utcMark]

end

/-! ### Main statement -/

theorem exists_readsAt (t : Timestamp) (cs : List Char) : ∃ offset body, ReadsAt t cs offset body := by
  by_cases h : utcMark <+: cs
  · obtain ⟨body, rfl⟩ := h
    exact ⟨0, body, .utc body⟩
  · exact ⟨t.offset, cs, .here h⟩

theorem ReadsAt.unique {t : Timestamp} {offset offset' : Int} {body body' : List Char} (h : ReadsAt t cs offset body)
    (h' : ReadsAt t cs offset' body') : offset' = offset ∧ body' = body := by
  cases h with
  | utc =>
    generalize hcs : utcMark ++ body = cs at h'
    cases h' with
    | utc => exact ⟨rfl, (List.append_cancel_left hcs).symm⟩
    | here hnot => exact absurd (hcs ▸ List.prefix_append utcMark body) hnot
  | here hnot =>
    cases h' with
    | utc => exact absurd (List.prefix_append utcMark body') hnot
    | here => exact ⟨rfl, rfl⟩

/-- A quote that is not closed is a character like any other. -/
theorem says_unclosed {m : Calendar.Moment} {offset : Int} {quote : Char} {text : List Char}
    (hquote : quote = '\'' ∨ quote = '"') (hopen : quote ∉ cs) (h : Says m offset cs text) :
    Says m offset (quote :: cs) (quote :: text) := by
  refine .plain ?_ ?_ h
  · rintro ⟨q, run, rest, -, -, heq⟩
    obtain ⟨rfl, rfl⟩ := List.cons.inj heq
    exact hopen (by simp)
  · intro e he hstarts
    have hhead := ((token_prefix_iff he).mp hstarts).1
    obtain ⟨d, hd, htoken, hpos, -⟩ := token_eq_replicate he
    rw [htoken, List.head?_replicate, if_neg (Nat.ne_of_gt hpos), Option.some_inj] at hhead
    rw [hhead] at hd
    rcases hquote with rfl | rfl
    · exact absurd hd (by decide)
    · exact absurd hd (by decide)

/-- A date in a pattern is what the pattern says of it, at the offset that the pattern reads it at; only a local time beyond
    the calendar has no text. Each field is worked out once, and each text has a pattern. -/
theorem format_says :
    (∀ (source : String) (t : Timestamp), ∃ offset body, ReadsAt t source.toList offset body ∧
      (Calendar.shows t offset = true → ∃ text, (compile source).format t = .ok text ∧
        ∀ out, Says (.ofTimestamp t offset) offset body out ↔ out = text.toList) ∧
      (Calendar.shows t offset = false → (compile source).format t = .error beyondCalendar)) ∧
    (∀ source : String, (compile source).fields.Nodup ∧
      ∀ i, .slot i ∈ (compile source).pieces → i < (compile source).fields.length) ∧
    (∀ (m : Calendar.Moment) (offset : Int) (quote : Char) (cs text : List Char), (quote = '\'' ∨ quote = '"') →
      quote ∉ cs → Says m offset cs text → Says m offset (quote :: cs) (quote :: text)) ∧
    ∀ (text : String) (t : Timestamp), Calendar.shows t t.offset = true → (compile (ofText text)).format t = .ok text := by
  refine ⟨fun source t => ?_, fun source => ?_, fun _ _ _ _ _ => says_unclosed, fun text t hshows => ?_⟩
  · obtain ⟨offset, body, hreads⟩ := exists_readsAt t source.toList
    refine ⟨offset, body, hreads, fun hshows => ?_, fun hbeyond => ?_⟩
    · refine ⟨_, by rw [format_spec hreads, if_pos hshows], fun out => ?_⟩
      rw [says_iff, String.toList_ofList]
    · rw [format_spec hreads, if_neg (by simp [hbeyond])]
  · obtain ⟨offset, body, hreads⟩ := exists_readsAt default source.toList
    obtain ⟨hfields, hpieces, -⟩ := compile_spec hreads
    obtain ⟨hstands, -, hnodup⟩ := assemble_spec (lexemes 0 body) []
    rw [hfields, hpieces]
    exact ⟨hnodup .nil, fun i hi => Stands.slot_lt hstands hi⟩
  · rw [format_spec (.here (not_utc_ofText text)), if_pos hshows, ← (says_ofText _ _ text).eq_said, String.ofList_toList]

/-- The fifth of March 2024, a quarter past two in the morning at an offset of two hours. -/
def earlyMarch : Timestamp := ⟨1709597700, 0, 7200⟩

theorem unclosed_quote_shown :
    Says (.ofTimestamp earlyMarch 0) 0 "dd/dd yyy 'd\"d' '".toList "05/05 24y d\"d '".toList ∧
      (compile "UTC:dd/dd yyy 'd\"d' '").format earlyMarch = .ok "05/05 24y d\"d '" ∧
      (compile (ofText "it's")).format earlyMarch = .ok "it's" := by
  obtain ⟨hpattern, -, -, htext⟩ := format_says
  obtain ⟨offset, body, hreads, hshown, -⟩ := hpattern "UTC:dd/dd yyy 'd\"d' '" earlyMarch
  obtain ⟨rfl, rfl⟩ := ReadsAt.unique (.utc "dd/dd yyy 'd\"d' '".toList) hreads
  obtain ⟨text, hformat, hiff⟩ := hshown (by decide)
  have hvalue : (compile "UTC:dd/dd yyy 'd\"d' '").format earlyMarch = .ok "05/05 24y d\"d '" := by decide +kernel
  rw [hvalue] at hformat
  obtain rfl := Except.ok.inj hformat
  exact ⟨(hiff _).mpr rfl, hvalue, htext "it's" earlyMarch (by decide)⟩

/-- In the last second of the calendar in UTC, clocks east of it are beyond the calendar: no text is shown there, not even a
    quoted one. -/
theorem quoted_text_beyond_calendar : Calendar.shows ⟨Calendar.lastSecond, 0, 3600⟩ 0 = true ∧ ofText "a" = "'a'" ∧
    (compile (ofText "a")).format ⟨Calendar.lastSecond, 0, 3600⟩ = .error beyondCalendar ∧
    (compile (ofText "a")).format ⟨Calendar.lastSecond, 0, 3600⟩ ≠ .ok "a" := by
  decide +kernel

end DatePattern

end LogDispatch
