import ItemSql.Proofs.Token.Run

/-!
# Texts that agree up to a question mark

Two texts *agree* if they are the same up to a place where the first has a question mark and the
second a double quote. Nothing that goes on a token other than a string is one of these, so such
texts coincide, and what begins such a token measures the same in front of either text. What begins
a string is measured up to the quote that closes it.
-/

namespace ItemSql.Token

/-! ## Plain characters -/

/-- Whether a character neither is a placeholder nor opens a string literal. -/
def IsPlain (c : Char) : Prop :=
  c ≠ '?' ∧ ¬ IsQuote c

theorem isPlain_of_eq_true {p : Char → Bool} (hmark : p '?' = false) (hdouble : p '"' = false)
    (hsingle : p '\'' = false) {c : Char} (hc : p c = true) : IsPlain c := by
  constructor
  · rintro rfl
    exact absurd (hmark.symm.trans hc) Bool.false_ne_true
  · rintro (rfl | rfl)
    · exact absurd (hdouble.symm.trans hc) Bool.false_ne_true
    · exact absurd (hsingle.symm.trans hc) Bool.false_ne_true

theorem isPlain_of_continuesWord {c : Char} (hc : Text.continuesWord c = true) : IsPlain c :=
  isPlain_of_eq_true (by decide) (by decide) (by decide) hc

theorem isPlain_of_goesOn {c : Char} (hc : GoesOn c) : IsPlain c :=
  isPlain_of_eq_true (p := fun c ↦ decide (GoesOn c)) (by decide) (by decide) (by decide)
    (decide_eq_true hc)

theorem IsDelimiter.isPlain {c : Char} (hc : IsDelimiter c) : IsPlain c :=
  isPlain_of_eq_true (p := fun c ↦ decide (IsDelimiter c)) (by decide) (by decide) (by decide)
    (decide_eq_true hc)

/-! ## Agreement -/

/-- The texts are the same, or they are up to a question mark of the first where the second has a
double quote. -/
inductive Agree : List Char → List Char → Prop
  | nil : Agree [] []
  | cons {cs ds : List Char} (c : Char) (h : Agree cs ds) : Agree (c :: cs) (c :: ds)
  | mark (cs ds : List Char) : Agree ('?' :: cs) ('"' :: ds)

variable {cs ds : List Char}

theorem Agree.coincide (h : Agree cs ds) : Coincide cs ds := by
  induction h with
  | nil => exact .stop breaks_nil breaks_nil
  | cons c _ ih => exact .cons c ih
  | mark cs ds => exact .stop (breaks_cons.mpr (by decide)) (breaks_cons.mpr (by decide))

/-! ## Strings -/

theorem closing_cons {quote c : Char} (hc : c ≠ '\\') :
    closing quote (c :: cs) = if c = quote then some 1 else (closing quote cs).map (· + 1) := by
  cases cs <;> simp [closing, hc]

/-- A character that does not begin an escape. -/
theorem ne_backslash {c : Char} (hlast : c = '\\' → cs = [] → False)
    (hmore : ∀ d ds, c = '\\' → cs = d :: ds → False) : c ≠ '\\' := by
  intro hc
  cases cs with
  | nil => exact hlast hc rfl
  | cons d ds => exact hmore d ds hc rfl

theorem IsQuote.ne_backslash {quote : Char} (h : IsQuote quote) : quote ≠ '\\' := by
  rcases h with rfl | rfl <;> decide

/-- Where a literal closes does not depend on what stands behind it. -/
theorem closing_take_append {quote : Char} (hquote : IsQuote quote) :
    ∀ {n : Nat}, closing quote cs = some n → closing quote (cs.take n ++ ds) = some n := by
  fun_induction closing quote cs with
  | case1 => intro n h; cases h
  | case2 => intro n h; cases h
  | case3 c cs ih =>
    -- What is escaped stays in front of what follows, so it is skipped there too.
    intro n h
    obtain ⟨m, hm, rfl⟩ := Option.map_eq_some_iff.mp h
    change closing quote ('\\' :: c :: (cs.take m ++ ds)) = _
    rw [closing, ih hm]
    rfl
  | case4 cs =>
    intro n h
    obtain rfl := Option.some.inj h
    change closing quote (quote :: ds) = _
    rw [closing_cons hquote.ne_backslash, if_pos rfl]
  | case5 c cs hlast hmore hc ih =>
    intro n h
    obtain ⟨m, hm, rfl⟩ := Option.map_eq_some_iff.mp h
    change closing quote (c :: (cs.take m ++ ds)) = _
    rw [closing_cons (ne_backslash hlast hmore), if_neg hc, ih hm]
    rfl

theorem measure_of_closing {c : Char} (hc : IsQuote c) {n : Nat} (h : closing c cs = some n) :
    measure c cs = (.string, n) := by
  rcases hc with rfl | rfl <;> simp [measure, h]

theorem measure_of_unclosed {c : Char} (hc : IsQuote c) (h : closing c cs = none) :
    measure c cs = (.unknown, cs.length) := by
  rcases hc with rfl | rfl <;> simp [measure, h]

/-! ## Other tokens -/

/-- What goes on a token is plain, unless the token is a string or was meant to be one. -/
theorem Measured.plain {c : Char} {kind : Kind} {n : Nat} (h : Measured c cs kind n)
    (hc : ¬ IsQuote c) : ∀ d ∈ cs.take n, IsPlain d := by
  intro d hd
  rcases h.goesOn hc d hd with rfl | hgoes
  · exact ⟨by decide, by rintro (h | h) <;> cases h⟩
  · exact isPlain_of_goesOn hgoes

theorem Agree.head?_eq_iff (h : Agree cs ds) : ds.head? = some '=' ↔ cs.head? = some '=' := by
  cases h <;> simp

theorem measure_eq_of_agree {c : Char} (hc : ¬ IsQuote c) (h : Agree cs ds) :
    measure c ds = measure c cs :=
  measure_eq_of_coincide hc (fun _ ↦ h.head?_eq_iff) (.cons c h.coincide)

end ItemSql.Token
