import ItemSql.Token.Scan

/-!
# Cutting tokens off a text

The scanner steps over a token one character at a time, which makes it a recursion on the text but
hides the tokens. This file gives it back in steps of one token: `scanFrom_token` says that what
begins with a character that is not white space is one token, cut off by `measure`, and the tokens
of what is left. `cutInduction` is the induction that goes with it.

What `measure` can answer is said once, by the inductive relation `Measured`. Every later statement
about the tokens of a class is a case analysis on it.
-/

namespace ItemSql.Token

/-! ## No token is longer than the text -/

theorem digitRun_le (cs : List Char) : digitRun cs ≤ cs.length :=
  (List.takeWhile_sublist _).length_le

theorem wordRun_le (cs : List Char) : wordRun cs ≤ cs.length :=
  (List.takeWhile_sublist _).length_le

theorem fractionRun_le (cs : List Char) : fractionRun cs ≤ cs.length := by
  unfold fractionRun
  split
  · rename_i rest
    have h := digitRun_le rest
    rw [List.length_cons]
    split <;> omega
  · exact Nat.zero_le _

theorem signRun_le (cs : List Char) : signRun cs ≤ cs.length := by
  unfold signRun
  split <;> simp

theorem powerRun_le (cs : List Char) : powerRun cs ≤ cs.length := by
  have hs := signRun_le cs
  have hd := digitRun_le (cs.drop (signRun cs))
  rw [List.length_drop] at hd
  unfold powerRun
  dsimp only
  split <;> omega

theorem exponentRun_le (cs : List Char) : exponentRun cs ≤ cs.length := by
  cases cs with
  | nil => exact Nat.le_refl _
  | cons c rest =>
    have h := powerRun_le rest
    rw [exponentRun, List.length_cons]
    split <;> omega

theorem numberRun_le (cs : List Char) : numberRun cs ≤ cs.length := by
  have hw := digitRun_le cs
  have hf := fractionRun_le (cs.drop (digitRun cs))
  have he := exponentRun_le (cs.drop (digitRun cs + fractionRun (cs.drop (digitRun cs))))
  rw [List.length_drop] at hf he
  rw [numberRun]
  omega

theorem closing_le {quote : Char} {cs : List Char} :
    ∀ {n : Nat}, closing quote cs = some n → n ≤ cs.length := by
  fun_induction closing quote cs with
  | case1 => intro n h; cases h
  | case2 => intro n h; cases h
  | case3 _ cs ih =>
    -- An escape is two characters, and the literal goes on behind both.
    intro n h
    obtain ⟨m, hm, rfl⟩ := Option.map_eq_some_iff.mp h
    have := ih hm
    simp only [List.length_cons]
    omega
  | case4 => intro n h; cases h; simp
  | case5 c cs _ _ _ ih =>
    intro n h
    obtain ⟨m, hm, rfl⟩ := Option.map_eq_some_iff.mp h
    have := ih hm
    simp only [List.length_cons]
    omega

/-! ## What can be measured -/

/-- Whether a character opens and closes string literals. -/
def IsQuote (c : Char) : Prop :=
  c = '"' ∨ c = '\''

/-- The class of the token that begins with `c`, and how many characters go on it: all that
`measure` can answer. -/
inductive Measured (c : Char) (cs : List Char) : Kind → Nat → Prop
  | wildcard : c = '*' → Measured c cs .wildcard 0
  | comma : c = ',' → Measured c cs .comma 0
  | semicolon : c = ';' → Measured c cs .semicolon 0
  | leftParen : c = '(' → Measured c cs .leftParen 0
  | rightParen : c = ')' → Measured c cs .rightParen 0
  | equals : c = '=' → Measured c cs .operator 0
  | order : c = '<' ∨ c = '>' → cs.head? ≠ some '=' → Measured c cs .operator 0
  | orderOrEquals : c = '<' ∨ c = '>' → cs.head? = some '=' → Measured c cs .operator 1
  | closed {n : Nat} : IsQuote c → closing c cs = some n → Measured c cs .string n
  | unclosed : IsQuote c → closing c cs = none → Measured c cs .unknown cs.length
  | dash : c = '-' → digitRun cs = 0 → Measured c cs .unknown 0
  | negative : c = '-' → digitRun cs ≠ 0 → Measured c cs .number (numberRun cs)
  | number : c.isDigit = true → Measured c cs .number (numberRun (c :: cs) - 1)
  | word {kind : Kind} : Text.beginsWord c = true →
      wordKind (String.ofList (c :: cs.take (wordRun cs))) = kind →
      Measured c cs kind (wordRun cs)
  | stray : ¬ IsQuote c → c.isDigit = false → Text.beginsWord c = false →
      Measured c cs .unknown 0

theorem Measured.of_measure {c : Char} {cs : List Char} {p : Kind × Nat}
    (h : measure c cs = p) : Measured c cs p.1 p.2 := by
  unfold measure at h
  by_cases h1 : c = '*'
  · rw [if_pos h1] at h; subst h; exact .wildcard h1
  rw [if_neg h1] at h
  by_cases h2 : c = ','
  · rw [if_pos h2] at h; subst h; exact .comma h2
  rw [if_neg h2] at h
  by_cases h3 : c = ';'
  · rw [if_pos h3] at h; subst h; exact .semicolon h3
  rw [if_neg h3] at h
  by_cases h4 : c = '('
  · rw [if_pos h4] at h; subst h; exact .leftParen h4
  rw [if_neg h4] at h
  by_cases h5 : c = ')'
  · rw [if_pos h5] at h; subst h; exact .rightParen h5
  rw [if_neg h5] at h
  by_cases h6 : c = '='
  · rw [if_pos h6] at h; subst h; exact .equals h6
  rw [if_neg h6] at h
  by_cases h7 : c = '<' ∨ c = '>'
  · rw [if_pos h7] at h
    by_cases h8 : cs.head? = some '='
    · rw [if_pos h8] at h; subst h; exact .orderOrEquals h7 h8
    · rw [if_neg h8] at h; subst h; exact .order h7 h8
  rw [if_neg h7] at h
  by_cases h9 : c = '"' ∨ c = '\''
  · rw [if_pos h9] at h
    cases hc : closing c cs with
    | some n => rw [hc] at h; subst h; exact .closed h9 hc
    | none => rw [hc] at h; subst h; exact .unclosed h9 hc
  rw [if_neg h9] at h
  by_cases h10 : c = '-'
  · rw [if_pos h10] at h
    by_cases h11 : digitRun cs = 0
    · rw [if_pos h11] at h; subst h; exact .dash h10 h11
    · rw [if_neg h11] at h; subst h; exact .negative h10 h11
  rw [if_neg h10] at h
  by_cases h12 : c.isDigit = true
  · rw [if_pos h12] at h; subst h; exact .number h12
  rw [if_neg h12] at h
  by_cases h13 : Text.beginsWord c = true
  · rw [if_pos h13] at h; subst h; dsimp only; exact .word h13 rfl
  rw [if_neg h13] at h
  subst h
  exact .stray h9 (Bool.eq_false_iff.mpr h12) (Bool.eq_false_iff.mpr h13)

theorem measured (c : Char) (cs : List Char) :
    Measured c cs (measure c cs).1 (measure c cs).2 :=
  .of_measure rfl

theorem Measured.le {c : Char} {cs : List Char} {kind : Kind} {n : Nat}
    (h : Measured c cs kind n) : n ≤ cs.length := by
  cases h with
  | orderOrEquals _ h => cases cs <;> simp at h ⊢
  | closed _ h => exact closing_le h
  | unclosed => exact Nat.le_refl _
  | negative => exact numberRun_le cs
  | number =>
    have h := numberRun_le (c :: cs)
    rw [List.length_cons] at h
    omega
  | word => exact wordRun_le cs
  | _ => exact Nat.zero_le _

theorem measure_le (c : Char) (cs : List Char) : (measure c cs).2 ≤ cs.length :=
  (measured c cs).le

/-! ## Whole tokens at a time -/

theorem utf8ByteSize_ofList_cons (c : Char) (cs : List Char) :
    (String.ofList (c :: cs)).utf8ByteSize = c.utf8Size + (String.ofList cs).utf8ByteSize := by
  rw [String.ofList_cons, String.utf8ByteSize_append, String.utf8ByteSize_singleton]

/-- The characters that still belong to the token before are stepped over. -/
theorem scanFrom_inside (inside offset : Nat) (cs : List Char) (h : inside ≤ cs.length) :
    scanFrom inside offset cs =
      scanFrom 0 (offset + (String.ofList (cs.take inside)).utf8ByteSize) (cs.drop inside) := by
  induction cs generalizing inside offset with
  | nil =>
    obtain rfl : inside = 0 := Nat.le_zero.mp h
    rfl
  | cons c cs ih =>
    cases inside with
    | zero => rfl
    | succ inside =>
      rw [scanFrom, ih inside _ (Nat.le_of_succ_le_succ h), List.take_succ_cons,
        List.drop_succ_cons, utf8ByteSize_ofList_cons, Nat.add_assoc]

theorem scanFrom_blank {c : Char} (offset : Nat) (cs : List Char) (h : Text.isBlank c = true) :
    scanFrom 0 offset (c :: cs) = scanFrom 0 (offset + c.utf8Size) cs := by
  rw [scanFrom, if_pos h]

/-- The text of the token that begins with `c`. -/
def cutText (c : Char) (cs : List Char) : String :=
  String.ofList (c :: cs.take (measure c cs).2)

/-- What is left behind the token that begins with `c`. -/
def cutRest (c : Char) (cs : List Char) : List Char :=
  cs.drop (measure c cs).2

theorem toList_cutText (c : Char) (cs : List Char) :
    (cutText c cs).toList = c :: cs.take (measure c cs).2 := by
  rw [cutText, String.toList_ofList]

theorem cutText_append_cutRest (c : Char) (cs : List Char) :
    (cutText c cs).toList ++ cutRest c cs = c :: cs := by
  rw [toList_cutText, cutRest, List.cons_append, List.take_append_drop]

theorem length_cutRest_le (c : Char) (cs : List Char) : (cutRest c cs).length ≤ cs.length := by
  rw [cutRest, List.length_drop]
  exact Nat.sub_le _ _

/-- A token is cut off, and the scanner goes on with what is left. -/
theorem scanFrom_token {c : Char} (offset : Nat) (cs : List Char)
    (h : Text.isBlank c = false) :
    scanFrom 0 offset (c :: cs) =
      ⟨(measure c cs).1, cutText c cs, offset⟩ ::
        scanFrom 0 (offset + (cutText c cs).utf8ByteSize) (cutRest c cs) := by
  have hblank : ¬ Text.isBlank c = true := by rw [h]; exact Bool.false_ne_true
  have hinside := scanFrom_inside (measure c cs).2 (offset + c.utf8Size) cs (measure_le c cs)
  rw [scanFrom, if_neg hblank]
  dsimp only
  rw [hinside, cutText, cutRest, utf8ByteSize_ofList_cons, Nat.add_assoc]

/-- The same where the token is known beforehand. -/
theorem scanFrom_append {c : Char} {cs : List Char} {kind : Kind} (offset : Nat) (rest : List Char)
    (hc : Text.isBlank c = false) (h : measure c (cs ++ rest) = (kind, cs.length)) :
    scanFrom 0 offset (c :: cs ++ rest) =
      ⟨kind, String.ofList (c :: cs), offset⟩ ::
        scanFrom 0 (offset + (String.ofList (c :: cs)).utf8ByteSize) rest := by
  rw [List.cons_append, scanFrom_token offset _ hc, cutText, cutRest, h, List.take_left',
    List.drop_left']
  · rfl
  · rfl

/-- Induction on a text, from token to token. -/
theorem cutInduction {motive : List Char → Prop} (nil : motive [])
    (blank : ∀ c cs, Text.isBlank c = true → motive cs → motive (c :: cs))
    (token : ∀ c cs, Text.isBlank c = false → motive (cutRest c cs) → motive (c :: cs)) :
    ∀ cs, motive cs
  | [] => nil
  | c :: cs => by
    cases h : Text.isBlank c with
    | true => exact blank c cs h (cutInduction nil blank token cs)
    | false => exact token c cs h (cutInduction nil blank token (cutRest c cs))
termination_by cs => cs.length
decreasing_by
  · exact Nat.lt_succ_of_le (length_cutRest_le c cs)
  · exact Nat.lt_succ_self _

end ItemSql.Token
