import ItemSql.Proofs.Statement.Spelling
import ItemSql.Proofs.Token.Tiling

/-!
# Tokens in another layout

The tokens of a text stay the same, class by class and text by text, when other white space is put
between them: a text that has them in this order, with some white space between any two, has these
tokens and no others (`symbols_scan_layout`).

How far a token goes is measured with what stands behind it, so this is a matter of what the
measuring has seen there. In front of white space a token is complete in itself. A number that was
cut off before a second point, or a sign before a letter, is not the longer for losing its neighbor,
and gains nothing from a blank (`measure_take_append`). A string that is never closed is the one
token that goes on over anything. It reached to the end of the text, so it is the last token and
nothing is put behind it.
-/

namespace ItemSql.Token

variable {cs rest : List Char}

/-! ## In front of white space -/

/-- The text is empty or begins with white space. -/
def Parted (cs : List Char) : Prop :=
  ∀ c ∈ cs.head?, Text.isBlank c = true

theorem parted_nil : Parted [] := by
  rintro c ⟨⟩

theorem parted_cons {c : Char} (hc : Text.isBlank c = true) : Parted (c :: cs) := by
  rintro d ⟨⟩
  exact hc

theorem Parted.breaks (h : Parted cs) : Breaks cs :=
  fun c hc ↦ not_goesOn_of_isBlank (h c hc)

theorem Parted.head?_ne (h : Parted cs) {c : Char} (hc : Text.isBlank c = false) :
    cs.head? ≠ some c := by
  intro hhead
  exact Bool.false_ne_true (hc.symm.trans (h c hhead))

theorem Parted.digitRun_eq_zero (h : Parted cs) : digitRun cs = 0 :=
  h.breaks.eq_zero (digitRun_le cs) run_digitRun.goesOn

theorem wordRun_take (cs : List Char) : wordRun (cs.take (wordRun cs)) = wordRun cs := by
  have htake : cs.take (wordRun cs) = cs.takeWhile Text.continuesWord :=
    (List.prefix_iff_eq_take.mp (List.takeWhile_prefix _)).symm
  rw [htake, wordRun, wordRun, List.takeWhile_idem]

/-- What was measured of a text measures the same in front of white space. A string that is never
closed does so at the end of the text only. -/
theorem measure_take_append {c : Char} {kind : Kind} {n : Nat} (h : measure c cs = (kind, n))
    (hrest : Parted rest) (hopen : IsQuote c → closing c cs = none → rest = []) :
    measure c (cs.take n ++ rest) = (kind, n) := by
  have hmeasured : Measured c cs kind n := .of_measure h
  have hlength : (cs.take n).length = n := List.length_take_of_le hmeasured.le
  -- With a minus sign or without, the text of a number is a numeral, which goes on by itself.
  have hnumber (hkind : kind = .number) : measure c (cs.take n ++ rest) = (kind, n) := by
    subst hkind
    have hcut : Symbol.IsCut ⟨.number, String.ofList (c :: cs.take n)⟩ :=
      ⟨c, cs, n, hmeasured, String.toList_ofList⟩
    have hnumeral := hcut.numeral rfl
    rw [String.toList_ofList] at hnumeral
    obtain ⟨d, ds, hcons, hgoes, -, hmeasure⟩ := exists_measure_of_numeral hnumeral
    obtain ⟨rfl, rfl⟩ := List.cons.inj hcons
    rw [hrest.breaks.measure_append hgoes, hmeasure, hlength]
  cases hmeasured with
  | wildcard hc | comma hc | semicolon hc | leftParen hc | rightParen hc | equals hc =>
    subst hc
    rfl
  | order hc =>
    have hhead : rest.head? ≠ some '=' := hrest.head?_ne (by decide)
    rcases hc with rfl | rfl <;> simp [measure, hhead]
  | orderOrEquals hc hhead =>
    obtain ⟨cs, rfl⟩ := List.head?_eq_some_iff.mp hhead
    rcases hc with rfl | rfl <;> rfl
  | closed hquote hclosing =>
    exact measure_of_closing hquote (closing_take_append hquote hclosing)
  | unclosed hquote hclosing =>
    rw [hopen hquote hclosing, List.append_nil, List.take_length, h]
  | dash hc =>
    subst hc
    change (if digitRun rest = 0 then _ else _) = _
    rw [if_pos hrest.digitRun_eq_zero]
  | negative | number => exact hnumber rfl
  | word hbegin hkind =>
    rw [hrest.breaks.measure_append (goesOn_of_beginsWord hbegin), measure_of_beginsWord hbegin,
      wordRun_take, List.take_take, Nat.min_self, hkind]
  | stray hquote hdigit hbegin =>
    -- Behind a minus sign a digit is looked for, and behind other stray characters nothing is.
    by_cases hdash : c = '-'
    · subst hdash
      change (if digitRun rest = 0 then _ else _) = _
      rw [if_pos hrest.digitRun_eq_zero]
    · have horder : ¬ (c = '<' ∨ c = '>') := by
        rintro (rfl | rfl) <;> simp [measure] at h
      rw [← h]
      unfold IsQuote at hquote
      simp only [measure, if_neg horder, if_neg hquote, if_neg hdash, hdigit, hbegin,
        Bool.false_eq_true, if_false]

/-! ## Pieces of another layout -/

instance : DecidablePred IsGap :=
  fun _ ↦ List.decidableBAll _ _

/-- White space in front of a text is passed over. -/
theorem spelled_gap {gap : List Char} (h : ∀ c ∈ gap, Text.isBlank c = true) (cs : List Char) :
    spelled (gap ++ cs) = spelled cs := by
  induction gap with
  | nil => rfl
  | cons c gap ih =>
    rw [List.cons_append, spelled_blank (h c List.mem_cons_self)]
    exact ih fun d hd ↦ h d (List.mem_cons_of_mem _ hd)

/-- Pieces whose gaps are white space, and not empty but for the first. -/
structure Spaced (pieces : List (String × Token)) : Prop where
  isGap : ∀ gap ∈ pieces.map Prod.fst, IsGap gap
  between : ∀ gap ∈ (pieces.map Prod.fst).tail, gap ≠ ""

theorem Spaced.tail {piece : String × Token} {pieces : List (String × Token)}
    (h : Spaced (piece :: pieces)) : Spaced pieces where
  isGap gap hgap := h.isGap gap (List.mem_cons_of_mem _ hgap)
  between gap hgap := h.between gap (List.mem_of_mem_tail hgap)

/-- Behind the first piece there is white space, or nothing. -/
theorem Spaced.parted {piece : String × Token} {pieces : List (String × Token)}
    (h : Spaced (piece :: pieces)) : Parted (layout pieces).toList := by
  cases pieces with
  | nil => exact parted_nil
  | cons next pieces =>
    obtain ⟨gap, t⟩ := next
    have hne : gap.toList ≠ [] := by
      rw [Ne, String.toList_eq_nil_iff]
      exact h.between gap List.mem_cons_self
    obtain ⟨c, cs, hgap⟩ := List.exists_cons_of_ne_nil hne
    have hblank : Text.isBlank c = true :=
      h.isGap gap (by simp) c (hgap ▸ List.mem_cons_self)
    rw [layout, String.toList_append, String.toList_append, hgap]
    exact parted_cons hblank

/-- The first symbol of a text, if it is not the last one, is cut off behind the first gap. -/
theorem exists_cut_of_spelled {s : Symbol} {w : List Symbol} (h : spelled cs = s :: w)
    (hw : w ≠ []) :
    ∃ c ds, Text.isBlank c = false ∧ s = ⟨(measure c ds).1, cutText c ds⟩ ∧
      spelled (cutRest c ds) = w := by
  induction cs using cutInduction with
  | nil =>
    rw [spelled_nil] at h
    exact absurd (List.cons.inj h).2.symm hw
  | blank c cs hc ih =>
    rw [spelled_blank hc] at h
    exact ih h
  | token c cs hc =>
    rw [spelled_cut hc] at h
    obtain ⟨hs, hrest⟩ := List.cons.inj h
    exact ⟨c, cs, hc, hs.symm, hrest⟩

/-- Nothing is left behind a string that is never closed. -/
theorem cutRest_of_unclosed {c : Char} (hquote : IsQuote c) (h : closing c cs = none) :
    cutRest c cs = [] := by
  rw [cutRest, measure_of_unclosed hquote h, List.drop_length]

theorem spelled_layout {pieces : List (String × Token)} (hspaced : Spaced pieces)
    (h : spelled cs = symbols (pieces.map Prod.snd) ++ [endSymbol]) :
    spelled (layout pieces).toList = symbols (pieces.map Prod.snd) ++ [endSymbol] := by
  induction pieces generalizing cs with
  | nil => rfl
  | cons piece pieces ih =>
    obtain ⟨gap, t⟩ := piece
    have hrest : symbols (pieces.map Prod.snd) ++ [endSymbol] ≠ [] := List.concat_ne_nil _ _
    obtain ⟨c, ds, hc, ht, hcut⟩ := exists_cut_of_spelled h hrest
    have htext : t.text = cutText c ds := congrArg Symbol.text ht
    -- What a string without an end has swallowed leaves no further piece.
    have hopen : IsQuote c → closing c ds = none → (layout pieces).toList = [] := by
      intro hquote hclosing
      rw [cutRest_of_unclosed hquote hclosing, spelled_nil] at hcut
      have hnil : pieces = [] := by simpa [symbols] using hcut
      rw [hnil, layout, String.toList_empty]
    have hmeasure := measure_take_append (n := (measure c ds).2) rfl hspaced.parted hopen
    have hgap : ∀ c ∈ gap.toList, Text.isBlank c = true := hspaced.isGap gap List.mem_cons_self
    rw [layout, String.toList_append, String.toList_append, List.append_assoc, spelled_gap hgap,
      htext, spelled_cut_append hc hmeasure, ih hspaced.tail hcut, ← ht]
    rfl

/-- White space does not matter to tokens, as long as there is some between any two: a text of the
same tokens in another layout has the same classes and texts, and ends behind them. -/
theorem symbols_scan_layout {source : String} {pieces : List (String × Token)} {last : Token}
    (htokens : scan source = pieces.map Prod.snd ++ [last])
    (hgaps : ∀ gap ∈ pieces.map Prod.fst, IsGap gap)
    (hbetween : ∀ gap ∈ (pieces.map Prod.fst).tail, gap ≠ "") :
    symbols (scan (layout pieces)) = symbols (pieces.map Prod.snd) ++ [endSymbol] := by
  have hlast : last.symbol = endSymbol := by
    have hscanned := scanned_scan source
    rw [htokens] at hscanned
    cases hscanned.right (List.cons_ne_nil _ _) with
    | last offset => rfl
    | cons _ hnil => exact absurd rfl hnil.ne_nil
  refine spelled_layout ⟨hgaps, hbetween⟩ (?_ : spelled source.toList = _)
  rw [spelled, ← scan, htokens, symbols_append, ← hlast]
  rfl

/-- A number before a point, a minus sign before a letter, an order sign before a string, and no
white space at all. The string is never closed. -/
def crampedText : String :=
  "1.e5-\u00e9<\"b\\"

/-- Its tokens with a line break before them, and blanks of different kinds between them. -/
def roomyPieces : List (String × Token) :=
  [("\n", ⟨.number, "1", 0⟩), (" ", ⟨.unknown, ".", 1⟩), ("\t", ⟨.identifier, "e5", 2⟩),
    ("  ", ⟨.unknown, "-", 4⟩), ("\u00a0", ⟨.identifier, "\u00e9", 5⟩), (" ", ⟨.operator, "<", 7⟩),
    ("\u3000\n", ⟨.unknown, "\"b\\", 8⟩)]

theorem symbols_scan_layout_roomyPieces :
    scan crampedText = roomyPieces.map Prod.snd ++ [⟨.endOfInput, "", 11⟩] ∧
      layout roomyPieces = "\n1 .\te5  -\u00a0\u00e9 <\u3000\n\"b\\" ∧
      symbols (scan (layout roomyPieces)) = symbols (roomyPieces.map Prod.snd) ++ [endSymbol] := by
  have htokens : scan crampedText = roomyPieces.map Prod.snd ++ [⟨.endOfInput, "", 11⟩] := by
    decide +kernel
  have hgaps : ∀ gap ∈ roomyPieces.map Prod.fst, IsGap gap := by
    decide +kernel
  have hbetween : ∀ gap ∈ (roomyPieces.map Prod.fst).tail, gap ≠ "" := by
    decide +kernel
  exact ⟨htokens, by decide +kernel, symbols_scan_layout htokens hgaps hbetween⟩

end ItemSql.Token
