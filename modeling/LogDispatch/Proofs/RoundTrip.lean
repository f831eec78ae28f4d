import LogDispatch.Proofs.Dict
import LogDispatch.Proofs.Text
import LogDispatch.Template.Printer

/-! Reading a printed template gives it back (`compile_print`).

    Inside a reference the reader goes by single characters, so what is printed there is passed over piece by
    piece: by the reader of a template (`Inert`) and by the splitter of arguments (`Unsplit`). Both hold of
    escaped values that end in no backslash, since an escaped text never starts with a character it escapes. -/

namespace LogDispatch

namespace Template

variable {marks cs ds : List Char} {c d : Char}

/-! ### Escaped values -/

theorem escape_cons : escape marks (c :: cs) = (if c ∈ marks then ['\\', c] else [c]) ++ escape marks cs := rfl

theorem mem_escape (h : d ∈ escape marks cs) : d = '\\' ∨ d ∈ cs := by
  rw [escape, List.mem_flatMap] at h
  obtain ⟨c, hc, hd⟩ := h
  by_cases hmark : c ∈ marks
  · rw [if_pos hmark, List.mem_cons, List.mem_singleton] at hd
    rcases hd with rfl | rfl
    · exact .inl rfl
    · exact .inr hc
  · rw [if_neg hmark, List.mem_singleton] at hd
    exact .inr (hd ▸ hc)

theorem mem_escape_of_mem (h : d ∈ cs) : d ∈ escape marks cs := by
  refine List.mem_flatMap.mpr ⟨d, h, ?_⟩
  by_cases hmark : d ∈ marks <;> simp [hmark]

theorem head?_escape (h : d ∈ (escape marks cs).head?) : d = '\\' ∨ d ∉ marks ∧ d ∈ cs.head? := by
  cases cs with
  | nil => cases h
  | cons c cs =>
    rw [escape_cons] at h
    by_cases hmark : c ∈ marks
    · rw [if_pos hmark] at h
      exact .inl (Option.mem_some_iff.mp h).symm
    · rw [if_neg hmark] at h
      obtain rfl : c = d := Option.mem_some_iff.mp h
      exact .inr ⟨hmark, rfl⟩

theorem getLast?_escape : (escape marks cs).getLast? = cs.getLast? := by
  induction cs with
  | nil => rfl
  | cons c cs ih =>
    have hlast : (if c ∈ marks then ['\\', c] else [c]).getLast? = some c := by
      by_cases hmark : c ∈ marks <;> simp [hmark]
    rw [escape_cons, List.getLast?_append, ih, hlast, List.getLast?_cons]
    cases cs.getLast? <;> rfl

theorem trimmed_escape (h : Text.Trimmed cs) : Text.Trimmed (escape marks cs) where
  head d hd := by
    obtain rfl | ⟨-, hd⟩ := head?_escape hd
    · decide
    · exact h.head d hd
  last := by
    rw [getLast?_escape]
    exact h.last

/-- One pass takes the backslash from one of the marks. -/
theorem dropBefore_escape (hc : c ∉ marks) (hc' : c ≠ '\\') :
    Text.dropBefore '\\' c (escape (c :: marks) cs) = escape marks cs := by
  have hhead (ds : List Char) : (escape (c :: marks) ds).head? ≠ some c := by
    intro h
    obtain h | ⟨h, -⟩ := head?_escape h
    · exact hc' h
    · exact h List.mem_cons_self
  induction cs with
  | nil => rfl
  | cons d ds ih =>
    rw [escape_cons, escape_cons]
    by_cases hd : d = c
    · subst hd
      simp only [List.mem_cons_self, if_true, hc, if_false, List.cons_append, List.nil_append]
      rw [Text.dropBefore_pair, ih]
    · by_cases hmark : d ∈ marks
      · simp only [List.mem_cons, hmark, or_true, if_true, List.cons_append, List.nil_append]
        rw [Text.dropBefore_cons (by simp [hd]), Text.dropBefore_cons fun _ => hhead ds, ih]
      · simp only [List.mem_cons, hd, hmark, or_false, if_false, List.cons_append, List.nil_append]
        rw [Text.dropBefore_cons fun _ => hhead ds, ih]

theorem escape_nil_marks : escape [] cs = cs := by
  simp [escape]

theorem unescape_escapeArg : unescape (escapeArg cs) = cs := by
  rw [unescape, escapeArg, dropBefore_escape (by decide) (by decide), dropBefore_escape (by decide) (by decide),
    escape_nil_marks]

/-! ### What the readers pass over -/

/-- The reader of a template takes `cs` into the body of the reference it stands in. -/
def Inert (cs : List Char) : Prop :=
  ∀ acc rest, chunks (.inside acc) (cs ++ rest) = chunks (.inside (cs.reverse ++ acc)) rest

/-- The splitter of arguments takes `cs` into the piece it stands in front of. -/
def Unsplit (cs : List Char) : Prop :=
  ∀ rest p ps, splitArgs rest = p :: ps → splitArgs (cs ++ rest) = (cs ++ p) :: ps

theorem Inert.append (hc : Inert cs) (hd : Inert ds) : Inert (cs ++ ds) := by
  intro acc rest
  rw [List.append_assoc, hc, hd, List.reverse_append, List.append_assoc]

theorem Unsplit.append (hc : Unsplit cs) (hd : Unsplit ds) : Unsplit (cs ++ ds) := by
  intro rest p ps h
  rw [List.append_assoc, hc _ _ _ (hd _ _ _ h), List.append_assoc]

theorem chunks_inside_cons (hc : c ≠ '\x7d') (h : c = '\\' → cs.head? ≠ some '\x7d') (acc : List Char) :
    chunks (.inside acc) (c :: cs) = chunks (.inside (c :: acc)) cs := by
  rw [chunks]
  · rintro rest rfl rfl
    exact h rfl rfl
  · exact hc

theorem splitArgs_cons (hc : c ≠ ',') (h : c = '\\' → cs.head? ≠ some ',') {p ps}
    (hps : splitArgs cs = p :: ps) : splitArgs (c :: cs) = (c :: p) :: ps := by
  rw [splitArgs, hps]
  · rintro rest rfl rfl
    exact h rfl rfl
  · exact hc

theorem Inert.of_plain (h : ∀ c ∈ cs, c ≠ '\x7d' ∧ c ≠ '\\') : Inert cs := by
  intro acc rest
  induction cs generalizing acc with
  | nil => rfl
  | cons c cs ih =>
    obtain ⟨hc, hc'⟩ := h c List.mem_cons_self
    rw [List.cons_append, chunks_inside_cons hc fun heq => absurd heq hc',
      ih fun d hd => h d (List.mem_cons_of_mem c hd)]
    simp

theorem Unsplit.of_plain (h : ∀ c ∈ cs, c ≠ ',' ∧ c ≠ '\\') : Unsplit cs := by
  intro rest p ps hps
  induction cs with
  | nil => exact hps
  | cons c cs ih =>
    obtain ⟨hc, hc'⟩ := h c List.mem_cons_self
    exact splitArgs_cons hc (fun heq => absurd heq hc') (ih fun d hd => h d (List.mem_cons_of_mem c hd))

/-- A backslash of the value itself stands before no mark: the next mark comes with its own backslash. -/
theorem head?_escape_append (rest : List Char) (hd : d ∈ marks) (hd' : d ≠ '\\')
    (h : (c :: cs).getLast? ≠ some '\\') (hc : c = '\\') : (escape marks cs ++ rest).head? ≠ some d := by
  intro hhead
  cases cs with
  | nil => exact h (by simp [hc])
  | cons e es =>
    have hne : (escape marks (e :: es)).head? = some d := by
      rw [escape_cons] at hhead ⊢
      by_cases hmark : e ∈ marks <;> simpa [hmark] using hhead
    obtain h | ⟨h, -⟩ := head?_escape hne
    · exact hd' h
    · exact h hd

theorem getLast?_tail (h : (c :: cs).getLast? ≠ some d) : cs.getLast? ≠ some d := by
  intro hlast
  exact h (by simp [List.getLast?_cons, hlast])

theorem inert_escapeArg (h : cs.getLast? ≠ some '\\') : Inert (escapeArg cs) := by
  intro acc rest
  induction cs generalizing acc with
  | nil => rfl
  | cons c cs ih =>
    have ih := ih (getLast?_tail h)
    have hhead := head?_escape_append rest (by decide : '\x7d' ∈ [',', '\x7d']) (by decide) h
    rw [escapeArg, escape_cons, ← escapeArg] at *
    by_cases hbrace : c = '\x7d'
    · subst hbrace
      simp [chunks, ih]
    · by_cases hcomma : c = ','
      · subst hcomma
        simp only [List.mem_cons_self, if_true, List.cons_append, List.nil_append]
        rw [chunks_inside_cons (by decide) (by simp), chunks_inside_cons (by decide) hhead, ih]
        simp
      · simp only [List.mem_cons, hcomma, hbrace, List.not_mem_nil, or_self, if_false, List.cons_append,
          List.nil_append]
        rw [chunks_inside_cons hbrace hhead, ih]
        simp

theorem unsplit_escapeArg (h : cs.getLast? ≠ some '\\') : Unsplit (escapeArg cs) := by
  intro rest p ps hps
  induction cs with
  | nil => exact hps
  | cons c cs ih =>
    have ih := ih (getLast?_tail h)
    have hhead := head?_escape_append rest (by decide : ',' ∈ [',', '\x7d']) (by decide) h
    rw [escapeArg, escape_cons, ← escapeArg] at *
    by_cases hcomma : c = ','
    · subst hcomma
      simp [splitArgs, ih]
    · by_cases hbrace : c = '\x7d'
      · subst hbrace
        simpa using splitArgs_cons (c := '\\') (by decide) (by simp) (splitArgs_cons hcomma hhead ih)
      · simpa [hbrace, hcomma] using splitArgs_cons hcomma hhead ih

theorem Inert.intercalate {pieces : List (List Char)} (hc : c ≠ '\x7d' ∧ c ≠ '\\') (h : ∀ p ∈ pieces, Inert p) :
    Inert ([c].intercalate pieces) := by
  induction pieces with
  | nil => exact fun _ _ => rfl
  | cons p ps ih =>
    have hp := h p List.mem_cons_self
    have hrest := ih fun q hq => h q (List.mem_cons_of_mem p hq)
    cases ps with
    | nil => simpa [List.intercalate_singleton] using hp
    | cons q qs =>
      rw [List.intercalate_cons_cons]
      exact (hp.append (.of_plain (by simp [hc]))).append hrest

theorem splitArgs_intercalate {pieces : List (List Char)} (hne : pieces ≠ []) (h : ∀ p ∈ pieces, Unsplit p) :
    splitArgs ([','].intercalate pieces) = pieces := by
  induction pieces with
  | nil => exact absurd rfl hne
  | cons p ps ih =>
    have hp := h p List.mem_cons_self
    cases ps with
    | nil => simpa [List.intercalate_singleton] using hp [] _ _ rfl
    | cons q qs =>
      have hrest := ih (by simp) fun r hr => h r (List.mem_cons_of_mem p hr)
      rw [List.intercalate_cons_cons, List.append_assoc]
      simpa using hp (',' :: _) [] _ (by rw [splitArgs, hrest])

/-! ### Arguments -/

theorem IsName.trimmed {s : String} (h : IsName s) : Text.Trimmed s.toList := Text.trim_eq_self.mp h.2.1

theorem IsName.toList_ne_nil {s : String} (h : IsName s) : s.toList ≠ [] := by
  simpa using h.1

theorem IsName.notMem {s : String} (h : IsName s) (hc : c ∈ ['|', '(', ')', '\x7d', '\\']) : c ∉ s.toList :=
  fun hmem => h.2.2 c hmem hc

theorem IsName.inert {s : String} (h : IsName s) : Inert s.toList := by
  refine .of_plain fun c hc => ?_
  have := h.2.2 c hc
  simp_all

theorem IsValue.trimmed {s : String} (h : IsValue s) : Text.Trimmed (escapeArg s.toList) :=
  trimmed_escape (Text.trim_eq_self.mp h.1)

theorem notMem_escapeArg (h : c ∉ cs) (hc : c ≠ '\\') : c ∉ escapeArg cs := by
  intro hmem
  obtain rfl | hmem := mem_escape hmem
  · exact hc rfl
  · exact h hmem

section
variable {a : Arg} {i : Nat}

theorem Arg.Printable.inert (h : a.Printable) : Inert a.chars := by
  cases a with
  | positional v => exact inert_escapeArg h.1.2.2
  | keyed k v =>
    have hsign : Inert ['='] := .of_plain (by simp)
    exact h.1.1.inert.append (hsign.append (inert_escapeArg h.2.2.2))

theorem Arg.Printable.unsplit (h : a.Printable) : Unsplit a.chars := by
  cases a with
  | positional v => exact unsplit_escapeArg h.1.2.2
  | keyed k v =>
    have hkey : Unsplit k.toList := .of_plain fun c hc =>
      ⟨fun heq => h.1.2.1 (heq ▸ hc), fun heq => h.1.1.notMem (by simp) (heq ▸ hc)⟩
    have hsign : Unsplit ['='] := .of_plain (by simp)
    exact hkey.append (hsign.append (unsplit_escapeArg h.2.2.2))

theorem Arg.Printable.pipe_notMem (h : a.Printable) : '|' ∉ a.chars := by
  cases a with
  | positional v => exact notMem_escapeArg h.1.2.1 (by decide)
  | keyed k v =>
    have hkey : '|' ∉ k.toList := h.1.1.notMem (by simp)
    simp [chars, hkey, notMem_escapeArg h.2.2.1]

theorem Arg.Printable.nonblank (h : a.Printable) : a.chars.all Text.isBlank = false := by
  rw [List.all_eq_false]
  cases a with
  | positional v =>
    obtain ⟨c, hc, hblank⟩ := List.all_eq_false.mp h.2.1
    exact ⟨c, mem_escape_of_mem hc, hblank⟩
  | keyed k v =>
    obtain ⟨c, cs, hk⟩ := List.exists_cons_of_ne_nil h.1.1.toList_ne_nil
    refine ⟨c, by simp [chars, hk], ?_⟩
    simp [h.1.1.trimmed.head c (by simp [hk])]

theorem Arg.Printable.argEntry (h : a.Printable) : argEntry i a.chars = a.entry i := by
  cases a with
  | positional v =>
    rw [Template.argEntry, chars, Text.splitFirst?_eq_none (notMem_escapeArg h.2.2 (by decide))]
    simp only [Text.trimChars_eq_self.mpr h.1.trimmed, unescape_escapeArg, String.ofList_toList, entry]
  | keyed k v =>
    rw [Template.argEntry, chars, Text.splitFirst?_append h.1.2.2]
    simp only [Text.trimChars_eq_self.mpr h.1.1.trimmed, Text.trimChars_eq_self.mpr h.2.trimmed,
      unescape_escapeArg, String.ofList_toList, entry]

end

/-! ### Pipes -/

section
variable {p : Pipe} {formatters : Formatters} (source : String)

theorem entries_readArgs (hne : p.args ≠ []) (h : p.Printable) :
    (readArgs ([','].intercalate (p.args.map Arg.chars))).entries = p.entries := by
  have hpieces : splitArgs ([','].intercalate (p.args.map Arg.chars)) = p.args.map Arg.chars := by
    refine splitArgs_intercalate (by simpa using hne) fun cs hcs => ?_
    obtain ⟨a, ha, rfl⟩ := List.mem_map.mp hcs
    exact (h.2.1 a ha).unsplit
  have hkept : (p.args.map Arg.chars).filter (fun cs => !cs.all Text.isBlank) = p.args.map Arg.chars := by
    refine List.filter_eq_self.mpr fun cs hcs => ?_
    obtain ⟨a, ha, rfl⟩ := List.mem_map.mp hcs
    rw [(h.2.1 a ha).nonblank]
    rfl
  have hentries : (p.args.map Arg.chars).mapIdx argEntry = p.entries := by
    refine List.ext_getElem (by simp [Pipe.entries]) fun i hi _ => ?_
    simp only [List.getElem_mapIdx, List.getElem_map, Pipe.entries]
    exact (h.2.1 _ (List.getElem_mem _)).argEntry
  rw [readArgs, hpieces, hkept, hentries, Dict.entries_ofList h.2.2]

theorem Pipe.Printable.trimmed (h : p.Printable) : Text.Trimmed p.chars ∧ p.chars ≠ [] := by
  refine ⟨?_, by simp [Pipe.chars, h.1.1]⟩
  by_cases hargs : p.args = []
  · simpa [Pipe.chars, hargs] using h.1.trimmed
  · have hparen : Text.isBlank ')' = false := by decide
    have hlast : Text.Trimmed [')'] := ⟨by simpa using hparen, by simpa using hparen⟩
    rw [Pipe.chars, if_neg hargs]
    exact h.1.trimmed.append ('(' :: _) hlast h.1.toList_ne_nil (by simp)

theorem Pipe.Printable.inert (h : p.Printable) : Inert p.chars := by
  refine h.1.inert.append ?_
  by_cases hargs : p.args = []
  · rw [if_pos hargs]
    exact fun _ _ => rfl
  · rw [if_neg hargs]
    have hinside : Inert ([','].intercalate (p.args.map Arg.chars)) := by
      refine .intercalate (by decide) fun cs hcs => ?_
      obtain ⟨a, ha, rfl⟩ := List.mem_map.mp hcs
      exact (h.2.1 a ha).inert
    have hopen : Inert ['('] := .of_plain (by simp)
    exact hopen.append (hinside.append (.of_plain (by simp)))

theorem notMem_intercalate {pieces : List (List Char)} (hd : d ≠ c) (h : ∀ p ∈ pieces, d ∉ p) :
    d ∉ [c].intercalate pieces := by
  induction pieces with
  | nil => simp
  | cons p ps ih =>
    have hp := h p List.mem_cons_self
    have hps := ih fun q hq => h q (List.mem_cons_of_mem p hq)
    cases ps with
    | nil => simpa [List.intercalate_singleton] using hp
    | cons q qs => simp [List.intercalate_cons_cons, hd, hp, hps]

theorem Pipe.Printable.pipe_notMem (h : p.Printable) : '|' ∉ p.chars := by
  have hname : '|' ∉ p.name.toList := h.1.notMem (by simp)
  by_cases hargs : p.args = []
  · simpa [Pipe.chars, hargs] using hname
  · have hinside : '|' ∉ [','].intercalate (p.args.map Arg.chars) := by
      refine notMem_intercalate (by decide) fun cs hcs => ?_
      obtain ⟨a, ha, rfl⟩ := List.mem_map.mp hcs
      exact (h.2.1 a ha).pipe_notMem
    simp [Pipe.chars, hargs, hname, hinside]

theorem readPipe_chars (h : p.Printable) :
    ∃ args, readPipe p.chars = .ok (p.name, args) ∧ args.entries = p.entries := by
  have hname := Text.trimChars_eq_self.mpr h.1.trimmed
  have hopen : '(' ∉ p.name.toList := h.1.notMem (by simp)
  have hne : p.name.toList.isEmpty = false := by simpa using h.1.1
  by_cases hargs : p.args = []
  · refine ⟨.empty, ?_, by simp [Pipe.entries, hargs, Dict.empty]⟩
    have hclose : ')' ∉ p.name.toList := h.1.notMem (by simp)
    have hchars : p.chars = p.name.toList := by simp [Pipe.chars, hargs]
    simp only [readPipe, hchars, hname, Text.splitFirst?_eq_none hopen, if_neg hclose, hne]
    simp
  · refine ⟨_, ?_, entries_readArgs hargs h⟩
    have hchars : p.chars = p.name.toList ++ '(' :: ([','].intercalate (p.args.map Arg.chars) ++ [')']) := by
      simp [Pipe.chars, hargs]
    simp only [readPipe, Text.trimChars_eq_self.mpr h.trimmed.1]
    rw [hchars, Text.splitFirst?_append hopen]
    simp [hname, hne]

theorem readStage_chars (hprepare : ∀ name f, formatters.get? name = some f → ∀ args, f.prepare args = .ok args)
    (h : p.Printable) : ∃ s, readStage source formatters p.chars = .ok s ∧ p.Reads formatters s := by
  obtain ⟨args, hread, hentries⟩ := readPipe_chars h
  cases hget : formatters.get? p.name with
  | none =>
    refine ⟨⟨p.name, args, none⟩, ?_, rfl, hentries, hget.symm⟩
    simp only [readStage, hread, Except.mapError]
    simp [hget, bind, Except.bind, pure, Except.pure]
  | some f =>
    refine ⟨⟨p.name, args, some f⟩, ?_, rfl, hentries, hget.symm⟩
    simp only [readStage, hread, Except.mapError]
    simp [hget, hprepare p.name f hget args, bind, Except.bind, pure, Except.pure]

theorem readStages_chars {stages : List Pipe}
    (hprepare : ∀ name f, formatters.get? name = some f → ∀ args, f.prepare args = .ok args)
    (h : ∀ p ∈ stages, p.Printable) :
    ∃ ss, (stages.map Pipe.chars).mapM (readStage source formatters) = .ok ss ∧
      List.Forall₂ (Pipe.Reads formatters) stages ss := by
  induction stages with
  | nil => exact ⟨[], rfl, .nil⟩
  | cons p ps ih =>
    obtain ⟨s, hs, hreads⟩ := readStage_chars source hprepare (h p List.mem_cons_self)
    obtain ⟨ss, hss, hrest⟩ := ih fun q hq => h q (List.mem_cons_of_mem p hq)
    refine ⟨s :: ss, ?_, .cons hreads hrest⟩
    rw [List.map_cons, List.mapM_cons, hs, hss]
    rfl

end

/-! ### References -/

section
variable {name : String} (source : String) {args : List String} {stages : List Pipe} {formatters : Formatters}

theorem entries_subject : (Pipe.subject name args).entries = args.mapIdx fun i v => (toString i, v) := by
  refine List.ext_getElem (by simp [Pipe.entries, Pipe.subject]) fun i _ _ => ?_
  simp [Pipe.entries, Pipe.subject, Arg.entry]

theorem toString_injective {i j : Nat} (h : toString i = toString j) : i = j := by
  rw [Nat.toString_eq_ofList_toDigits, Nat.toString_eq_ofList_toDigits, String.ofList_inj] at h
  rw [← @Nat.ofDigitChars_ten_toDigits i, h, Nat.ofDigitChars_ten_toDigits]

theorem printable_subject (hname : IsName name) (hargs : ∀ v ∈ args, (Arg.positional v).Printable) :
    (Pipe.subject name args).Printable := by
  refine ⟨hname, ?_, ?_⟩
  · intro a ha
    obtain ⟨v, hv, rfl⟩ := List.mem_map.mp ha
    exact hargs v hv
  · rw [entries_subject, List.Nodup, List.pairwise_iff_getElem]
    intro i j hi hj hlt heq
    simp only [List.getElem_map, List.getElem_mapIdx] at heq
    exact Nat.ne_of_lt hlt (toString_injective heq)

theorem printable_pipes (h : (Part.reference name args stages).Printable) :
    ∀ p ∈ Pipe.subject name args :: stages, p.Printable :=
  List.forall_mem_cons.mpr ⟨printable_subject h.1 h.2.1, h.2.2⟩

theorem inert_body (h : (Part.reference name args stages).Printable) : Inert (body name args stages) := by
  refine .intercalate (by decide) fun cs hcs => ?_
  obtain ⟨p, hp, rfl⟩ := List.mem_map.mp hcs
  exact (printable_pipes h p hp).inert

theorem readReference_body
    (hprepare : ∀ name f, formatters.get? name = some f → ∀ args, f.prepare args = .ok args)
    (h : (Part.reference name args stages).Printable) :
    ∃ r, readReference source formatters (body name args stages) = .ok r ∧ r.name = name ∧ r.callArgs = args ∧
      List.Forall₂ (Pipe.Reads formatters) stages r.stages := by
  have htrimmed : Text.trimChars (body name args stages) = body name args stages := by
    refine Text.trimChars_eq_self.mpr (Text.Trimmed.intercalate (by simp) fun cs hcs => ?_).1
    obtain ⟨p, hp, rfl⟩ := List.mem_map.mp hcs
    exact (printable_pipes h p hp).trimmed
  have hpipes : Text.splitAll '|' (body name args stages) =
      (Pipe.subject name args :: stages).map Pipe.chars := by
    refine Text.splitAll_intercalate (fun cs hcs => ?_) (by simp)
    obtain ⟨p, hp, rfl⟩ := List.mem_map.mp hcs
    exact (printable_pipes h p hp).pipe_notMem
  obtain ⟨callArgs, hread, hentries⟩ := readPipe_chars (printable_subject h.1 h.2.1)
  obtain ⟨ss, hss, hreads⟩ := readStages_chars source hprepare h.2.2
  refine ⟨⟨name, callArgs.values, ss⟩, ?_, rfl, ?_, hreads⟩
  · rw [readReference, htrimmed, hpipes, List.map_cons]
    simp only [hread, hss, Except.mapError]
    rfl
  · refine List.ext_getElem ?_ fun i _ _ => ?_
    · simp [Dict.values, hentries, entries_subject]
    · simp [Dict.values, hentries, entries_subject]

end

/-! ### Literals -/

section
variable {rest : List Char}

/-- What stands behind a literal: nothing, or a reference that no backslash of the literal keeps from being
    read. -/
def Ends (cs rest : List Char) : Prop :=
  rest = [] ∨ (∃ r, rest = '$' :: '\x7b' :: r) ∧ cs.getLast? ≠ some '\\'

theorem Ends.tail (h : Ends (c :: cs) rest) : Ends cs rest := h.imp_right fun h => ⟨h.1, getLast?_tail h.2⟩

theorem head?_escapeLiteral (h : c ∈ (escapeLiteral cs).head?) : c ≠ '\x7b' ∧ c ≠ ',' := by
  induction cs using escapeLiteral.induct with
  | case1 cs _ =>
    obtain rfl : '\\' = c := Option.mem_some_iff.mp h
    decide
  | case2 cs _ =>
    obtain rfl : '\\' = c := Option.mem_some_iff.mp h
    decide
  | case3 cs _ =>
    obtain rfl : '\\' = c := Option.mem_some_iff.mp h
    decide
  | case4 d cs hdollar hbrace hcomma _ =>
    rw [escapeLiteral] at h
    · obtain rfl : d = c := Option.mem_some_iff.mp h
      exact ⟨hbrace, hcomma⟩
    all_goals assumption
  | case5 => cases h

theorem Ends.head? (hend : Ends cs rest) (h : c ∈ (escapeLiteral cs ++ rest).head?) : c ≠ '\x7b' ∧ c ≠ ',' := by
  rw [List.head?_append, Option.mem_def, Option.or_eq_some_iff] at h
  obtain h | ⟨-, h⟩ := h
  · exact head?_escapeLiteral h
  · obtain rfl | ⟨⟨r, rfl⟩, -⟩ := hend
    · cases h
    · obtain rfl : '$' = c := Option.mem_some_iff.mp h
      decide

/-- After a backslash of the literal itself comes no reference. -/
theorem Ends.ne_reference {tail : List Char} (hend : Ends ('\\' :: cs) rest) :
    escapeLiteral cs ++ rest ≠ '$' :: '\x7b' :: tail := by
  intro heq
  cases cs using escapeLiteral.fun_cases with
  | case1 ds => cases heq
  | case2 ds => cases heq
  | case3 ds => cases heq
  | case4 d ds hdollar hbrace hcomma =>
    rw [escapeLiteral, List.cons_append] at heq
    · have hnext := (hend.tail.tail.head? (c := '\x7b') (by rw [(List.cons.inj heq).2]; rfl)).1
      exact hnext rfl
    all_goals assumption
  | case5 =>
    obtain rfl | ⟨-, hlast⟩ := hend
    · cases heq
    · exact hlast rfl

theorem chunks_escapeLiteral (hend : Ends cs rest) :
    chunks .outside (escapeLiteral cs ++ rest) = cs.foldr consLiteral (chunks .outside rest) := by
  induction cs using escapeLiteral.induct with
  | case1 cs ih =>
    rw [escapeLiteral, List.cons_append, List.cons_append, List.cons_append, chunks, ih hend.tail.tail]
    rfl
  | case2 cs ih =>
    rw [escapeLiteral, List.cons_append, List.cons_append, chunks, ih hend.tail]
    rfl
  | case3 cs ih =>
    rw [escapeLiteral, List.cons_append, List.cons_append, chunks, ih hend.tail]
    rfl
  | case4 c cs hdollar hbrace hcomma ih =>
    have hnext := fun d => hend.tail.head? (c := d)
    rw [escapeLiteral, List.cons_append, chunks, ih hend.tail]
    · rfl
    · rintro tail rfl heq
      exact hend.ne_reference heq
    · rintro tail - heq
      exact (hnext '\x7b' (by rw [heq]; rfl)).1 rfl
    · rintro tail - heq
      exact (hnext ',' (by rw [heq]; rfl)).2 rfl
    · rintro tail - heq
      exact (hnext '\x7b' (by rw [heq]; rfl)).1 rfl
    all_goals assumption
  | case5 => rfl

theorem foldr_consLiteral {cks : List Chunk} (hne : cs ≠ []) (h : ∀ ds, .literal ds ∉ cks.head?) :
    cs.foldr consLiteral cks = .literal cs :: cks := by
  induction cs with
  | nil => exact absurd rfl hne
  | cons c cs ih =>
    cases cs with
    | nil =>
      rcases cks with - | ⟨⟨ds⟩ | _ | _, cks⟩
      · rfl
      · exact absurd rfl (h ds)
      · rfl
      · rfl
    | cons d ds => rw [List.foldr_cons, ih (by simp), consLiteral]

end

/-! ### Templates -/

section
variable {parts : List Part} {formatters : Formatters} (source : String)

def Part.chunk : Part → Chunk
  | .literal text => .literal text.toList
  | .reference name args stages => .body (body name args stages)

theorem ends_literal {text : String} (h : (Part.literal text :: parts).IsChain Part.MayPrecede) :
    Ends text.toList (parts.flatMap Part.chars) := by
  match parts, h with
  | [], _ => exact .inl rfl
  | .literal _ :: _, h => exact absurd (List.isChain_cons_cons.mp h).1 id
  | .reference .. :: _, h => exact .inr ⟨⟨_, by rw [List.flatMap_cons]; rfl⟩, (List.isChain_cons_cons.mp h).1⟩

theorem chunks_print (h : Printable parts) : chunks .outside (parts.flatMap Part.chars) = parts.map Part.chunk := by
  induction parts with
  | nil => rfl
  | cons p parts ih =>
    have ih := ih ⟨fun q hq => h.each q (List.mem_cons_of_mem p hq), h.neighbours.tail⟩
    have hp := h.each p List.mem_cons_self
    rw [List.flatMap_cons, List.map_cons]
    cases p with
    | literal text =>
      have hne : text.toList ≠ [] := by simpa [Part.Printable] using hp
      rw [Part.chars, chunks_escapeLiteral (ends_literal h.neighbours), ih, foldr_consLiteral hne]
      · rfl
      · intro ds hds
        match parts, h.neighbours with
        | .literal _ :: _, hchain => exact (List.isChain_cons_cons.mp hchain).1
        | .reference .. :: _, _ => cases hds
    | reference name args stages =>
      have hbody := inert_body hp [] ('\x7d' :: parts.flatMap Part.chars)
      simp only [Part.chars, List.cons_append, List.append_assoc, List.nil_append, chunks, hbody, ih,
        List.append_nil, List.reverse_reverse, Part.chunk]

theorem readChunks_parts
    (hprepare : ∀ name f, formatters.get? name = some f → ∀ args, f.prepare args = .ok args)
    (h : ∀ p ∈ parts, p.Printable) :
    ∃ segments, readChunks source formatters (parts.map Part.chunk) = .ok segments ∧
      List.Forall₂ (Part.Reads formatters) parts segments := by
  induction parts with
  | nil => exact ⟨[], rfl, .nil⟩
  | cons p parts ih =>
    obtain ⟨segments, hsegments, hreads⟩ := ih fun q hq => h q (List.mem_cons_of_mem p hq)
    have hp := h p List.mem_cons_self
    cases p with
    | literal text =>
      refine ⟨.literal text :: segments, ?_, .cons (.literal text) hreads⟩
      rw [List.map_cons, Part.chunk, readChunks, hsegments, String.ofList_toList]
      rfl
    | reference name args stages =>
      obtain ⟨r, hr, rfl, rfl, hstages⟩ := readReference_body source hprepare hp
      refine ⟨.reference r :: segments, ?_, .cons (.reference hstages) hreads⟩
      rw [List.map_cons, Part.chunk, readChunks, hr, hsegments]
      rfl

/-- Reading what was printed gives the template back: its literals, and its references with their names,
    arguments and stages, each stage with its formatter. -/
theorem compile_print (hprepare : ∀ name f, formatters.get? name = some f → ∀ args, f.prepare args = .ok args)
    (h : Printable parts) :
    ∃ segments, compile (print parts) formatters = .ok ⟨print parts, segments⟩ ∧
      List.Forall₂ (Part.Reads formatters) parts segments := by
  obtain ⟨segments, hsegments, hreads⟩ := readChunks_parts (print parts) hprepare h.each
  refine ⟨segments, ?_, hreads⟩
  rw [compile, print, String.toList_ofList, chunks_print h, ← print, hsegments]
  rfl

/-- Marks and backslashes everywhere they may stand. -/
def markedParts : List Part :=
  [.literal "\\$\x7b,\x7b\x7d$",
    .reference "x y" ["\\,)", "\x7d("] [⟨"same", [.positional "\\\x7d,", .keyed "0w" ""]⟩],
    .reference "$\x7b,=" [] [⟨"other", []⟩], .literal "$\\"]

def sameFormatter : Formatters := Dict.empty.insert "same" { apply := fun v _ => .ok (some v) }

theorem marked_template_read_back :
    Printable markedParts ∧ ∃ segments,
      compile (print markedParts) sameFormatter = .ok ⟨print markedParts, segments⟩ ∧
      List.Forall₂ (Part.Reads sameFormatter) markedParts segments := by
  have hprintable : Printable markedParts := by decide
  refine ⟨hprintable, compile_print ?_ hprintable⟩
  intro name f hget args
  rw [sameFormatter, Dict.get?, Dict.insert] at hget
  simp only [Dict.empty, putEntry, List.find?_cons, List.find?_nil] at hget
  cases h : "same" == name
  · simp [h] at hget
  · simp only [h, Option.map_some, Option.some.injEq] at hget
    rw [← hget]

end

end Template

end LogDispatch
