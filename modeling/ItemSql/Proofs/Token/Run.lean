import ItemSql.Proofs.Token.Cut

/-!
# Where a token ends

The scanner looks further than the token that it cuts off: a number ends where no fraction and no
exponent follows, which may take three characters to see. So the token at the front of a text can
depend on what stands behind it. This file says how far: not beyond the first character that goes on
neither a word nor a number. Two texts *coincide* if they are the same up to a place where each
comes to such a character or to its end, and what begins a token other than a string measures the
same in front of either (`measure_eq_of_coincide`).

`Run` is the property of a run length that carries this. It is shown for digits and letters, and
goes from there to numbers along the way they are put together.
-/

namespace ItemSql.Token

/-! ## What goes on a token -/

/-- Whether a character can go on a word or a number. The marks of an exponent are letters. -/
def GoesOn (c : Char) : Prop :=
  Text.continuesWord c = true ∨ c ∈ ['.', '+', '-']

instance : DecidablePred GoesOn := fun c ↦
  inferInstanceAs (Decidable (Text.continuesWord c = true ∨ c ∈ ['.', '+', '-']))

theorem goesOn_of_beginsWord {c : Char} (h : Text.beginsWord c = true) : GoesOn c := by
  rw [Text.beginsWord, Bool.or_eq_true] at h
  refine .inl ?_
  rw [Text.continuesWord, Bool.or_eq_true, Bool.or_eq_true]
  exact h.imp_left .inl

theorem goesOn_of_isDigit {c : Char} (h : c.isDigit = true) : GoesOn c := by
  have hascii : c.toNat < 0x80 := by
    rw [Char.isDigit, Bool.and_eq_true, decide_eq_true_eq, decide_eq_true_eq] at h
    have hhigh : c.toNat ≤ 57 := h.2
    omega
  have hnumeral : Text.isNumeral c = true := by rw [Text.isNumeral, if_pos hascii, h]
  refine .inl ?_
  rw [Text.continuesWord, hnumeral, Bool.or_true, Bool.true_or]

/-- The text breaks off the word or number that stands before it. -/
def Breaks (cs : List Char) : Prop :=
  ∀ c ∈ cs.head?, ¬ GoesOn c

variable {cs ds : List Char}

@[simp] theorem breaks_nil : Breaks [] := by
  rintro c ⟨⟩

@[simp] theorem breaks_cons {c : Char} : Breaks (c :: cs) ↔ ¬ GoesOn c := by
  simp [Breaks]

theorem Breaks.eq_zero (h : Breaks cs) {n : Nat} (hle : n ≤ cs.length)
    (hgoes : ∀ c ∈ cs.take n, GoesOn c) : n = 0 := by
  cases cs with
  | nil => exact Nat.le_zero.mp hle
  | cons c cs =>
    cases n with
    | zero => rfl
    | succ n => exact absurd (hgoes c List.mem_cons_self) (breaks_cons.mp h)

/-! ## Texts that coincide -/

/-- The texts are the same, or they are up to a place where nothing goes on a token in either. -/
inductive Coincide : List Char → List Char → Prop
  | cons {cs ds : List Char} (c : Char) (h : Coincide cs ds) : Coincide (c :: cs) (c :: ds)
  | stop {cs ds : List Char} (hcs : Breaks cs) (hds : Breaks ds) : Coincide cs ds

/-- What breaks off a token is as good as the end of the text. -/
theorem Breaks.coincide_append {rest : List Char} (hrest : Breaks rest) (cs : List Char) :
    Coincide cs (cs ++ rest) := by
  induction cs with
  | nil => exact .stop breaks_nil hrest
  | cons c cs ih => exact .cons c ih

theorem Coincide.tail {c : Char} (h : Coincide (c :: cs) (c :: ds)) (hc : GoesOn c) :
    Coincide cs ds := by
  cases h with
  | cons _ h => exact h
  | stop hcs => exact absurd hc (breaks_cons.mp hcs)

theorem Coincide.drop (h : Coincide cs ds) {n : Nat} (hle : n ≤ cs.length)
    (hgoes : ∀ c ∈ cs.take n, GoesOn c) : Coincide (cs.drop n) (ds.drop n) := by
  induction h generalizing n with
  | cons c h ih =>
    cases n with
    | zero => exact .cons c h
    | succ n =>
      exact ih (Nat.le_of_succ_le_succ hle) fun d hd ↦ hgoes d (List.mem_cons_of_mem _ hd)
  | stop hcs hds =>
    obtain rfl := hcs.eq_zero hle hgoes
    exact .stop hcs hds

theorem Coincide.take (h : Coincide cs ds) {n : Nat} (hle : n ≤ cs.length)
    (hgoes : ∀ c ∈ cs.take n, GoesOn c) : ds.take n = cs.take n := by
  induction h generalizing n with
  | cons c h ih =>
    cases n with
    | zero => rfl
    | succ n =>
      rw [List.take_succ_cons, List.take_succ_cons, ih (Nat.le_of_succ_le_succ hle) fun d hd ↦
        hgoes d (List.mem_cons_of_mem _ hd)]
  | stop hcs hds =>
    obtain rfl := hcs.eq_zero hle hgoes
    rfl

/-! ## Runs -/

/-- The run takes characters that go on a token, and as many of them from texts that coincide. -/
structure Run (run : List Char → Nat) : Prop where
  le (cs : List Char) : run cs ≤ cs.length
  goesOn {cs : List Char} : ∀ c ∈ cs.take (run cs), GoesOn c
  same {cs ds : List Char} (h : Coincide cs ds) : run ds = run cs

section Runs

variable {run run' : List Char → Nat}

/-- Where nothing goes on, nothing is taken, so only a common first character is left to look at. -/
theorem Run.of_cons (le : ∀ cs, run cs ≤ cs.length)
    (goesOn : ∀ {cs : List Char}, ∀ c ∈ cs.take (run cs), GoesOn c)
    (cons : ∀ {cs ds : List Char} (c : Char), Coincide cs ds → run (c :: ds) = run (c :: cs)) :
    Run run where
  le := le
  goesOn := goesOn
  same h := by
    cases h with
    | cons c h => exact cons c h
    | stop hcs hds => rw [hcs.eq_zero (le _) goesOn, hds.eq_zero (le _) goesOn]

theorem Run.coincide_drop (hrun : Run run) (h : Coincide cs ds) :
    Coincide (cs.drop (run cs)) (ds.drop (run ds)) := by
  rw [hrun.same h]
  exact h.drop (hrun.le cs) hrun.goesOn

/-- One run behind another. -/
theorem Run.behind (h : Run run) (h' : Run run') :
    Run fun cs ↦ run cs + run' (cs.drop (run cs)) where
  le cs := by
    have hle := h.le cs
    have hle' := h'.le (cs.drop (run cs))
    rw [List.length_drop] at hle'
    omega
  goesOn {cs} := by
    rw [List.take_add]
    intro c hc
    rcases List.mem_append.mp hc with hc | hc
    · exact h.goesOn c hc
    · exact h'.goesOn c hc
  same hcoincide := by
    rw [h'.same (h.coincide_drop hcoincide), h.same hcoincide]

theorem run_takeWhile {p : Char → Bool} (hp : ∀ c, p c = true → GoesOn c) :
    Run fun cs ↦ (cs.takeWhile p).length where
  le cs := (List.takeWhile_sublist _).length_le
  goesOn {cs} c hc := by
    rw [← List.prefix_iff_eq_take.mp (List.takeWhile_prefix p)] at hc
    exact hp c (List.all_eq_true.mp List.all_takeWhile c hc)
  same {cs ds} hcoincide := by
    have hnil : ∀ {cs}, Breaks cs → cs.takeWhile p = [] := by
      intro cs hcs
      cases cs with
      | nil => rfl
      | cons c cs => exact List.takeWhile_cons_of_neg (mt (hp c) (breaks_cons.mp hcs))
    induction hcoincide with
    | @cons cs ds c _ ih =>
      by_cases hc : p c = true
      · simp only [List.takeWhile_cons_of_pos hc, List.length_cons, ih]
      · simp only [List.takeWhile_cons_of_neg hc]
    | stop hcs hds => rw [hnil hcs, hnil hds]

end Runs

theorem run_digitRun : Run digitRun :=
  run_takeWhile fun _ ↦ goesOn_of_isDigit

theorem run_wordRun : Run wordRun :=
  run_takeWhile fun _ ↦ .inl

/-! ## Numbers -/

theorem run_fractionRun : Run fractionRun := by
  refine .of_cons fractionRun_le ?_ ?_
  · intro cs
    unfold fractionRun
    split
    · rename_i cs
      by_cases hdigits : digitRun cs = 0
      · simp [hdigits]
      · rw [if_neg hdigits, List.take_succ_cons]
        exact List.forall_mem_cons.mpr ⟨by decide, run_digitRun.goesOn⟩
    · simp
  · intro cs ds c h
    by_cases hc : c = '.'
    · subst hc
      simp only [fractionRun, run_digitRun.same h]
    · simp [fractionRun, hc]

theorem run_signRun : Run signRun := by
  refine .of_cons signRun_le ?_ ?_
  · intro cs
    unfold signRun
    split
    · exact List.forall_mem_singleton.mpr (by decide)
    · exact List.forall_mem_singleton.mpr (by decide)
    · simp
  · intro cs ds c h
    by_cases hplus : c = '+'
    · subst hplus
      rfl
    by_cases hminus : c = '-'
    · subst hminus
      rfl
    simp [signRun, hplus, hminus]

theorem run_powerRun : Run powerRun where
  le := powerRun_le
  goesOn {cs} := by
    unfold powerRun
    dsimp only
    -- A sign without digits is no exponent, and then nothing is taken.
    by_cases hpower : digitRun (cs.drop (signRun cs)) = 0
    · simp [hpower]
    · rw [if_neg hpower]
      exact (run_signRun.behind run_digitRun).goesOn
  same {cs ds} hcoincide := by
    unfold powerRun
    dsimp only
    rw [run_digitRun.same (run_signRun.coincide_drop hcoincide), run_signRun.same hcoincide]

theorem run_exponentRun : Run exponentRun := by
  refine .of_cons exponentRun_le ?_ ?_
  · intro cs
    cases cs with
    | nil => simp
    | cons c cs =>
      rw [exponentRun]
      by_cases hexponent : (c = 'e' ∨ c = 'E') ∧ powerRun cs ≠ 0
      · rw [if_pos hexponent, List.take_succ_cons]
        have hmark : GoesOn c := by rcases hexponent.1 with rfl | rfl <;> decide
        exact List.forall_mem_cons.mpr ⟨hmark, run_powerRun.goesOn⟩
      · simp [hexponent]
  · intro cs ds c h
    simp only [exponentRun, run_powerRun.same h]

theorem run_numberRun : Run numberRun :=
  (run_digitRun.behind run_fractionRun).behind run_exponentRun

/-! ## Tokens -/

/-- What goes on a token other than a string, behind its first character: an equals sign, or what
goes on a word or a number. -/
theorem Measured.goesOn {c : Char} {kind : Kind} {n : Nat} (h : Measured c cs kind n)
    (hc : ¬ IsQuote c) : ∀ d ∈ cs.take n, d = '=' ∨ GoesOn d := by
  cases h with
  | orderOrEquals _ hhead =>
    obtain ⟨cs, rfl⟩ := List.head?_eq_some_iff.mp hhead
    exact List.forall_mem_singleton.mpr (.inl rfl)
  | closed hquote => exact absurd hquote hc
  | unclosed hquote => exact absurd hquote hc
  | negative => exact fun d hd ↦ .inr (run_numberRun.goesOn d hd)
  | number =>
    -- The run is measured from the first digit, which is not among the characters behind it.
    intro d hd
    have hgoes : ∀ d ∈ (c :: cs).take (numberRun (c :: cs)), GoesOn d := run_numberRun.goesOn
    refine .inr (hgoes d ?_)
    cases hrun : numberRun (c :: cs) with
    | zero => simp [hrun] at hd
    | succ n =>
      rw [hrun, Nat.add_sub_cancel] at hd
      exact List.mem_cons_of_mem _ hd
  | word => exact fun d hd ↦ .inr (run_wordRun.goesOn d hd)
  | _ => simp

/-- What begins a token other than a string measures the same in front of texts that coincide. An
equals sign goes on an order sign and nothing else, so it is a condition of its own. -/
theorem measure_eq_of_coincide {c : Char} (hquote : ¬ IsQuote c)
    (hequals : c = '<' ∨ c = '>' → (ds.head? = some '=' ↔ cs.head? = some '='))
    (h : Coincide (c :: cs) (c :: ds)) : measure c ds = measure c cs := by
  unfold IsQuote at hquote
  by_cases horder : c = '<' ∨ c = '>'
  · simp only [measure, if_pos horder, hequals horder]
  by_cases hc : GoesOn c
  · have htail := h.tail hc
    have hdigit := run_digitRun.same htail
    have hnegative := run_numberRun.same htail
    have hnumber := run_numberRun.same h
    have hword := run_wordRun.same htail
    have htake := htail.take (wordRun_le cs) run_wordRun.goesOn
    simp only [measure, hdigit, hnegative, hnumber, hword, htake, if_neg hquote, if_neg horder]
  · have hdash : c ≠ '-' := by
      rintro rfl
      exact hc (by decide)
    have hdigit : ¬ c.isDigit = true := mt goesOn_of_isDigit hc
    have hword : ¬ Text.beginsWord c = true := mt goesOn_of_beginsWord hc
    simp only [measure, if_neg hquote, if_neg horder, if_neg hdash, if_neg hdigit, if_neg hword]

/-- A word or a number measures the same before what breaks it off as at the end of the text. -/
theorem Breaks.measure_append {c : Char} {rest : List Char} (hrest : Breaks rest) (hc : GoesOn c)
    (cs : List Char) : measure c (cs ++ rest) = measure c cs := by
  refine measure_eq_of_coincide ?_ ?_ (hrest.coincide_append (c :: cs))
  · rintro (rfl | rfl) <;> exact absurd hc (by decide)
  · rintro (rfl | rfl) <;> exact absurd hc (by decide)

/-! ## Delimiters -/

/-- Whether a character is white space or punctuation. -/
def IsDelimiter (c : Char) : Prop :=
  Text.isBlank c = true ∨ c ∈ ['(', ')', ',', ';', '*', '=', '<', '>']

instance : DecidablePred IsDelimiter := fun c ↦
  inferInstanceAs (Decidable (Text.isBlank c = true ∨ c ∈ ['(', ')', ',', ';', '*', '=', '<', '>']))

/-- Every character between two code points can be looked at. -/
theorem exists_of_inRanges {n : Nat} {ranges : List (Nat × Nat)}
    (h : Text.inRanges n ranges = true) :
    ∃ range ∈ ranges, ∃ k < range.2 + 1 - range.1, n = range.1 + k := by
  induction ranges with
  | nil => cases h
  | cons range ranges ih =>
    obtain ⟨low, high⟩ := range
    rw [Text.inRanges] at h
    split at h
    · cases h
    · rename_i hlow
      rcases Bool.or_eq_true_iff.mp h with hhigh | hrest
      · have hhigh : n ≤ high := of_decide_eq_true hhigh
        exact ⟨_, List.mem_cons_self, n - low, by dsimp only; omega, by dsimp only; omega⟩
      · obtain ⟨range, hrange, hk⟩ := ih hrest
        exact ⟨range, List.mem_cons_of_mem _ hrange, hk⟩

/-- White space is known by its code points, and none of them is that of a letter or a numeral. -/
theorem not_goesOn_of_isBlank {c : Char} (h : Text.isBlank c = true) : ¬ GoesOn c := by
  have hall : ∀ range ∈ Text.blankRanges, ∀ k < range.2 + 1 - range.1,
      ¬ GoesOn (Char.ofNat (range.1 + k)) := by
    decide +kernel
  obtain ⟨range, hrange, k, hk, hc⟩ := exists_of_inRanges h
  rw [← Char.ofNat_toNat c, hc]
  exact hall range hrange k hk

theorem IsDelimiter.not_goesOn {c : Char} (h : IsDelimiter c) : ¬ GoesOn c := by
  rcases h with h | h
  · exact not_goesOn_of_isBlank h
  · simp only [List.mem_cons, List.not_mem_nil, or_false] at h
    rcases h with rfl | rfl | rfl | rfl | rfl | rfl | rfl | rfl <;> decide

/-- The text begins with a delimiter, if it is not empty. -/
def Delimited (cs : List Char) : Prop :=
  ∀ c ∈ cs.head?, IsDelimiter c

@[simp] theorem delimited_nil : Delimited [] := by
  rintro c ⟨⟩

@[simp] theorem delimited_cons {c : Char} : Delimited (c :: cs) ↔ IsDelimiter c := by
  simp [Delimited]

instance : DecidablePred Delimited
  | [] => .isTrue delimited_nil
  | _ :: _ => decidable_of_iff _ delimited_cons.symm

theorem Delimited.breaks (h : Delimited cs) : Breaks cs :=
  fun c hc ↦ (h c hc).not_goesOn

end ItemSql.Token
