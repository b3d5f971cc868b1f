import ItemSql.Proofs.Decimal.Integral
import ItemSql.Proofs.Token.Cut

/-!
# Symbols

What a grammar sees of a token is its class and its text, not where it stands: its *symbol*. This
file says what symbols the scanner makes. Five of the classes are classes of words; `Worded` lists
them with the reason for each, as `Measured` does for all tokens.

A *scanned* list is one that the scanner can answer, up to offsets: symbols that were cut off a
text, and the end of the input behind them. What is left of such a list while a reader goes through
it is scanned again, so this is the invariant of every reader of tokens.
-/

namespace ItemSql.Token

/-! ## Classes of words -/

/-- The class of a word, and why it has it. -/
inductive Worded (word : String) : Kind → Prop
  | keyword : Text.foldCase word ∈ keywords → Worded word .keyword
  | typeName : Text.foldCase word ∈ typeNames → Worded word .typeName
  | constraint : Text.foldCase word ∈ constraints → Worded word .constraint
  | operator : Text.foldCase word ∈ wordOperators → Worded word .operator
  | identifier : Text.foldCase word ∉ keywords ++ typeNames ++ constraints ++ wordOperators →
      Worded word .identifier

theorem worded (word : String) : Worded word (wordKind word) := by
  unfold wordKind
  dsimp only
  by_cases h1 : Text.foldCase word ∈ keywords
  · rw [if_pos h1]; exact .keyword h1
  rw [if_neg h1]
  by_cases h2 : Text.foldCase word ∈ typeNames
  · rw [if_pos h2]; exact .typeName h2
  rw [if_neg h2]
  by_cases h3 : Text.foldCase word ∈ constraints
  · rw [if_pos h3]; exact .constraint h3
  rw [if_neg h3]
  by_cases h4 : Text.foldCase word ∈ wordOperators
  · rw [if_pos h4]; exact .operator h4
  rw [if_neg h4]
  refine .identifier ?_
  simp only [List.mem_append, not_or]
  exact ⟨⟨⟨h1, h2⟩, h3⟩, h4⟩

theorem Worded.ne_endOfInput {word : String} {kind : Kind} (h : Worded word kind) :
    kind ≠ .endOfInput := by
  cases h <;> decide

/-- Nothing that is cut off ends the input. -/
theorem Measured.ne_endOfInput {c : Char} {cs : List Char} {kind : Kind} {n : Nat}
    (h : Measured c cs kind n) : kind ≠ .endOfInput := by
  cases h with
  | word _ hword => exact hword ▸ (worded _).ne_endOfInput
  | _ => decide

/-! ## Symbols -/

/-- A token without its place. -/
structure Symbol where
  kind : Kind
  text : String
  deriving DecidableEq, Repr

/-- The symbol of a token. -/
def symbol (t : Token) : Symbol :=
  ⟨t.kind, t.text⟩

/-- The symbols of tokens. -/
def symbols (ts : List Token) : List Symbol :=
  ts.map symbol

/-- The symbol behind all others. -/
def endSymbol : Symbol :=
  ⟨.endOfInput, ""⟩

@[simp] theorem symbols_nil : symbols [] = [] := rfl

@[simp] theorem symbols_cons (t : Token) (ts : List Token) :
    symbols (t :: ts) = t.symbol :: symbols ts := rfl

@[simp] theorem symbols_append (ts us : List Token) :
    symbols (ts ++ us) = symbols ts ++ symbols us :=
  List.map_append

/-- Whether a symbol is cut off a text, by its first character and those behind it. -/
def Symbol.IsCut (s : Symbol) : Prop :=
  ∃ c cs more, Measured c cs s.kind more ∧ s.text.toList = c :: cs.take more

theorem Symbol.IsCut.kind_ne {s : Symbol} (h : s.IsCut) : s.kind ≠ .endOfInput := by
  obtain ⟨c, cs, more, hm, -⟩ := h
  exact hm.ne_endOfInput

/-- What the scanner answers, up to offsets. -/
inductive Scanned : List Token → Prop
  | last (offset : Nat) : Scanned [⟨.endOfInput, "", offset⟩]
  | cons {t : Token} {ts : List Token} (ht : t.symbol.IsCut) (hts : Scanned ts) : Scanned (t :: ts)

theorem scanned_scanFrom (cs : List Char) : ∀ offset, Scanned (scanFrom 0 offset cs) := by
  induction cs using cutInduction with
  | nil => exact .last
  | blank c cs hc ih =>
    intro offset
    rw [scanFrom_blank offset cs hc]
    exact ih _
  | token c cs hc ih =>
    intro offset
    rw [scanFrom_token offset cs hc]
    exact .cons ⟨c, cs, _, measured c cs, toList_cutText c cs⟩ (ih _)

theorem scanned_scan (source : String) : Scanned (scan source) :=
  scanned_scanFrom _ _

theorem Scanned.ne_nil {ts : List Token} (h : Scanned ts) : ts ≠ [] := by
  cases h <;> simp

theorem Scanned.right {ts us : List Token} (h : Scanned (ts ++ us)) (hus : us ≠ []) :
    Scanned us := by
  induction ts with
  | nil => exact h
  | cons t ts ih =>
    rw [List.cons_append] at h
    generalize hrest : ts ++ us = rest at h
    cases h with
    | last => exact absurd (List.append_eq_nil_iff.mp hrest).2 hus
    | cons _ hts => exact ih (hrest ▸ hts)

theorem Scanned.isCut_of_mem_left {ts us : List Token} (h : Scanned (ts ++ us)) (hus : us ≠ []) :
    ∀ s ∈ symbols ts, s.IsCut := by
  induction ts with
  | nil => simp
  | cons t ts ih =>
    rw [List.cons_append] at h
    generalize hrest : ts ++ us = rest at h
    cases h with
    | last => exact absurd (List.append_eq_nil_iff.mp hrest).2 hus
    | cons ht hts =>
      intro s hs
      rcases List.mem_cons.mp hs with rfl | hs
      · exact ht
      · exact ih (hrest ▸ hts) s hs

/-- Only the end of the input was not cut off. -/
theorem Scanned.isCut {ts : List Token} (h : Scanned ts) :
    ∀ s ∈ symbols ts, s.kind ≠ .endOfInput → s.IsCut := by
  induction h with
  | last offset =>
    intro s hs hkind
    exact absurd (congrArg Symbol.kind (List.mem_singleton.mp hs)) hkind
  | cons ht _ ih =>
    intro s hs hkind
    rcases List.mem_cons.mp hs with rfl | hs
    · exact ht
    · exact ih s hs hkind

/-! ## Symbols that read as something else

A grammar may look at the text of a symbol for its value: an integer, or an operator. These are the
classes of the symbols that have one. -/

private theorem toNat_within {c : Char} {low high : UInt32}
    (h : c.val ≥ low ∧ c.val ≤ high) : low.toNat ≤ c.toNat ∧ c.toNat ≤ high.toNat :=
  ⟨UInt32.le_iff_toNat_le.mp h.1, UInt32.le_iff_toNat_le.mp h.2⟩

private theorem within_of_and {c : Char} {low high : UInt32}
    (h : (decide (c.val ≥ low) && decide (c.val ≤ high)) = true) : c.val ≥ low ∧ c.val ≤ high := by
  obtain ⟨hlow, hhigh⟩ := Bool.and_eq_true_iff.mp h
  exact ⟨of_decide_eq_true hlow, of_decide_eq_true hhigh⟩

theorem isDigit_eq_false_of_beginsWord {c : Char} (h : Text.beginsWord c = true) :
    c.isDigit = false := by
  rw [Bool.eq_false_iff]
  intro hdigit
  have hdigit : 48 ≤ c.toNat ∧ c.toNat ≤ 57 := toNat_within (within_of_and hdigit)
  rw [Text.beginsWord, Bool.or_eq_true, beq_iff_eq] at h
  rcases h with h | rfl
  · rw [Text.isLetter, if_pos (by omega)] at h
    rcases Bool.or_eq_true_iff.mp h with hupper | hlower
    · have hupper : 65 ≤ c.toNat ∧ c.toNat ≤ 90 := toNat_within (of_decide_eq_true hupper)
      omega
    · have hlower : 97 ≤ c.toNat ∧ c.toNat ≤ 122 := toNat_within (within_of_and hlower)
      omega
  · exact absurd hdigit.2 (by decide)

/-- Only a number is read as an integer. -/
theorem Symbol.IsCut.kind_eq_number {s : Symbol} (h : s.IsCut) {n : Int}
    (hn : Decimal.integer? s.text.toList = some n) : s.kind = .number := by
  -- An integer begins with a digit or a sign, so the first character decides for every class.
  obtain ⟨c, cs, more, hm, htext⟩ := h
  rw [htext] at hn
  generalize s.kind = kind at hm ⊢
  cases hm with
  | negative | number => rfl
  | dash hc => subst hc; simp [Decimal.integer?, Decimal.natural?] at hn
  | stray _ hdigit => simp [Decimal.integer?_singleton hdigit] at hn
  | word hbegin =>
    have hplus : c ≠ '+' := by rintro rfl; exact absurd hbegin (by decide)
    have hminus : c ≠ '-' := by rintro rfl; exact absurd hbegin (by decide)
    rw [Decimal.integer?_eq_none (isDigit_eq_false_of_beginsWord hbegin) hplus hminus] at hn
    cases hn
  | closed hquote | unclosed hquote =>
    rcases hquote with rfl | rfl <;>
      rw [Decimal.integer?_eq_none (by decide) (by decide) (by decide)] at hn <;> cases hn
  | order hc | orderOrEquals hc =>
    rcases hc with rfl | rfl <;>
      rw [Decimal.integer?_eq_none (by decide) (by decide) (by decide)] at hn <;> cases hn
  | wildcard hc | comma hc | semicolon hc | leftParen hc | rightParen hc | equals hc =>
    subst hc
    rw [Decimal.integer?_eq_none (by decide) (by decide) (by decide)] at hn
    cases hn

/-- A number does not begin with a plus sign. -/
theorem Symbol.IsCut.number_head {s : Symbol} (h : s.IsCut) (hkind : s.kind = .number)
    (ds : List Char) : s.text.toList ≠ '+' :: ds := by
  obtain ⟨c, cs, more, hm, htext⟩ := h
  rw [hkind] at hm
  rw [htext]
  intro hplus
  obtain ⟨rfl, -⟩ := List.cons.inj hplus
  cases hm with
  | negative hc => exact absurd hc (by decide)
  | number hc => exact absurd hc (by decide)
  | word hc => exact absurd hc (by decide)

/-! ## The two lower cases -/

/-- Full lower case and lower case of ASCII letters differ at the Kelvin sign alone. -/
theorem foldCase_eq_lowerAscii {text : String} (h : '\u212a' ∉ text.toList) :
    Text.foldCase text = Text.lowerAscii text := by
  rw [Text.foldCase, Text.lowerAscii]
  congr 1
  refine List.map_congr_left fun c hc ↦ ?_
  rw [Text.foldChar, if_neg]
  rintro rfl
  exact h hc

/-- A Kelvin sign is no capital of ASCII. -/
theorem mem_lowerAscii_of_mem {text : String} (h : '\u212a' ∈ text.toList) :
    '\u212a' ∈ (Text.lowerAscii text).toList := by
  rw [Text.lowerAscii, String.toList_ofList]
  exact List.mem_map.mpr ⟨_, h, by decide⟩

/-- Full lower case and lower case of ASCII letters agree where they are an ASCII word. -/
theorem foldCase_eq_of_lowerAscii_eq {text word : String} (h : Text.lowerAscii text = word)
    (hword : '\u212a' ∉ word.toList) : Text.foldCase text = word := by
  subst h
  exact foldCase_eq_lowerAscii (mt mem_lowerAscii_of_mem hword)

end ItemSql.Token
