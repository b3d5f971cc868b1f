import ItemSql.Proofs.Binding
import ItemSql.Proofs.Statement.Grammar
import ItemSql.Proofs.Token.Numeral

/-!
# Statements put together from words

A statement that is put together from words, literals and punctuation has just these for its
symbols, if what stands behind a word or a number does not go on it. White space and punctuation do
not. And if no part but the placeholders holds a question mark or a quote, binding it puts together
the same statement with the texts of the parameters.

`Spells` and `Binds` say so for a piece of a statement, and both go through when pieces are put
together. So what a whole statement is bound to, and what its symbols are, is read off how it is
written.
-/

namespace ItemSql

namespace Token

variable {cs ds : List Char} {w v : List Symbol}

/-! ## Symbols of a text -/

/-- The symbols of the characters. -/
def spelled (cs : List Char) : List Symbol :=
  symbols (scanFrom 0 0 cs)

theorem symbols_scanFrom (cs : List Char) (offset offset' : Nat) :
    symbols (scanFrom 0 offset cs) = symbols (scanFrom 0 offset' cs) := by
  induction cs using cutInduction generalizing offset offset' with
  | nil => rfl
  | blank c cs hc ih =>
    rw [scanFrom_blank offset cs hc, scanFrom_blank offset' cs hc]
    exact ih _ _
  | token c cs hc ih =>
    rw [scanFrom_token offset cs hc, scanFrom_token offset' cs hc, symbols_cons, symbols_cons,
      ih _ (offset' + (cutText c cs).utf8ByteSize)]
    rfl

theorem spelled_nil : spelled [] = [endSymbol] :=
  rfl

theorem spelled_blank {c : Char} (hc : Text.isBlank c = true) : spelled (c :: cs) = spelled cs := by
  rw [spelled, scanFrom_blank 0 cs hc]
  exact symbols_scanFrom _ _ _

theorem spelled_token {c : Char} {kind : Kind} {rest : List Char} (hc : Text.isBlank c = false)
    (h : measure c (cs ++ rest) = (kind, cs.length)) :
    spelled (c :: cs ++ rest) = ⟨kind, String.ofList (c :: cs)⟩ :: spelled rest := by
  rw [spelled, scanFrom_append 0 rest hc h, symbols_cons]
  exact congrArg _ (symbols_scanFrom _ _ _)

theorem spelled_cut {c : Char} (hc : Text.isBlank c = false) (cs : List Char) :
    spelled (c :: cs) = ⟨(measure c cs).1, cutText c cs⟩ :: spelled (cutRest c cs) := by
  rw [spelled, scanFrom_token 0 cs hc, symbols_cons]
  exact congrArg _ (symbols_scanFrom _ _ _)

/-- A token is cut off again, whatever now stands behind it, if it measures the same there. -/
theorem spelled_cut_append {c : Char} {rest : List Char} (hc : Text.isBlank c = false)
    (h : measure c (cs.take (measure c cs).2 ++ rest) = measure c cs) :
    spelled ((cutText c cs).toList ++ rest) = ⟨(measure c cs).1, cutText c cs⟩ :: spelled rest := by
  have hlength : (cs.take (measure c cs).2).length = (measure c cs).2 :=
    List.length_take_of_le (measure_le c cs)
  have hmeasure : measure c (cs.take (measure c cs).2 ++ rest) =
      ((measure c cs).1, (cs.take (measure c cs).2).length) := by
    rw [h, hlength]
  rw [toList_cutText, spelled_token hc hmeasure]
  rfl

/-! ## Pieces of a text -/

/-- What goes on neither a word nor a number. -/
inductive Stops : List Char → Prop
  | nil : Stops []
  | cons {c : Char} (hc : c ∈ [' ', ',', '(', ')']) (cs : List Char) : Stops (c :: cs)

theorem Stops.breaks (h : Stops cs) : Breaks cs := by
  cases h with
  | nil => exact breaks_nil
  | cons hc =>
    refine breaks_cons.mpr ?_
    simp only [List.mem_cons, List.not_mem_nil, or_false] at hc
    rcases hc with rfl | rfl | rfl | rfl <;> decide

/-- The characters are cut into the symbols, if what stands behind them does not go on them. -/
def Spells (cs : List Char) (w : List Symbol) : Prop :=
  ∀ ⦃rest : List Char⦄, Stops rest → spelled (cs ++ rest) = w ++ spelled rest

theorem Spells.spelled_eq (h : Spells cs w) : spelled cs = w ++ [endSymbol] := by
  have hspelled := h .nil
  rwa [List.append_nil, spelled_nil] at hspelled

theorem Spells.nil : Spells [] [] :=
  fun _ _ ↦ rfl

/-- White space between two pieces does not show. -/
theorem Spells.blank (h : Spells cs w) (h' : Spells ds v) : Spells (cs ++ ' ' :: ds) (w ++ v) := by
  intro rest hrest
  rw [List.append_assoc, List.cons_append, h (.cons (by decide) _), spelled_blank (by decide),
    h' hrest, List.append_assoc]

/-- The punctuation that ends words. -/
inductive Mark : Char → Kind → Prop
  | comma : Mark ',' .comma
  | leftParen : Mark '(' .leftParen
  | rightParen : Mark ')' .rightParen

theorem Mark.measure {c : Char} {kind : Kind} (h : Mark c kind) (cs : List Char) :
    Token.measure c cs = (kind, 0) := by
  cases h <;> rfl

theorem Spells.mark {c : Char} {kind : Kind} (hmark : Mark c kind) (h : Spells cs w)
    (h' : Spells ds v) : Spells (cs ++ c :: ds) (w ++ ⟨kind, String.ofList [c]⟩ :: v) := by
  intro rest hrest
  have hstop : c ∈ [' ', ',', '(', ')'] := by cases hmark <;> decide
  have hblank : Text.isBlank c = false := by cases hmark <;> decide
  have htoken : spelled ([c] ++ (ds ++ rest)) =
      ⟨kind, String.ofList [c]⟩ :: spelled (ds ++ rest) := spelled_token hblank (hmark.measure _)
  rw [List.append_assoc, List.cons_append, h (.cons hstop _), List.append_assoc, List.cons_append]
  exact congrArg (w ++ ·) (htoken.trans (congrArg _ (h' hrest)))

/-! ## Words -/

/-- The text is one word, and does not begin with what is passed over. -/
def IsWord (word : String) : Prop :=
  ∃ c cs, word.toList = c :: cs ∧ Text.isBlank c = false ∧ Text.beginsWord c = true ∧
    cs.all Text.continuesWord = true

instance (word : String) : Decidable (IsWord word) :=
  match h : word.toList with
  | [] => isFalse (by rintro ⟨c, cs, hword, -⟩; cases h.symm.trans hword)
  | c :: cs =>
    decidable_of_iff (Text.isBlank c = false ∧ Text.beginsWord c = true ∧
      cs.all Text.continuesWord = true) <| by
        constructor
        · exact fun hchars ↦ ⟨c, cs, h, hchars⟩
        · rintro ⟨d, ds, hword, hchars⟩
          obtain ⟨rfl, rfl⟩ := List.cons.inj (h.symm.trans hword)
          exact hchars

/-- No letter is punctuation, a quote, a sign or a digit. -/
theorem measure_of_beginsWord {c : Char} (h : Text.beginsWord c = true) (cs : List Char) :
    measure c cs = (wordKind (String.ofList (c :: cs.take (wordRun cs))), wordRun cs) := by
  have hne : ∀ {d : Char}, Text.beginsWord d = false → c ≠ d := by
    rintro d hd rfl
    exact Bool.false_ne_true (hd.symm.trans h)
  have hdigit : ¬ c.isDigit = true := Bool.eq_false_iff.mp (isDigit_eq_false_of_beginsWord h)
  have horder : ¬ (c = '<' ∨ c = '>') := not_or.mpr ⟨hne (by decide), hne (by decide)⟩
  have hquote : ¬ (c = '"' ∨ c = '\'') := not_or.mpr ⟨hne (by decide), hne (by decide)⟩
  rw [measure, if_neg (hne (by decide)), if_neg (hne (by decide)), if_neg (hne (by decide)),
    if_neg (hne (by decide)), if_neg (hne (by decide)), if_neg (hne (by decide)), if_neg horder,
    if_neg hquote, if_neg (hne (by decide)), if_neg hdigit, if_pos h]

theorem spelled_word {rest : List Char} (word : String) (h : IsWord word) (hrest : Breaks rest) :
    spelled (word.toList ++ rest) = ⟨wordKind word, word⟩ :: spelled rest := by
  obtain ⟨c, cs, hword, hblank, hc, hcs⟩ := h
  have hrun : wordRun cs = cs.length := by
    rw [wordRun, List.takeWhile_eq_self_iff.mpr (List.all_eq_true.mp hcs)]
  have hmeasure : measure c (cs ++ rest) = (wordKind (String.ofList (c :: cs)), cs.length) := by
    rw [hrest.measure_append (goesOn_of_beginsWord hc), measure_of_beginsWord hc, hrun,
      List.take_length]
  rw [hword, spelled_token hblank hmeasure, ← hword, String.ofList_toList]

theorem Spells.word (word : String) (h : IsWord word) :
    Spells word.toList [⟨wordKind word, word⟩] :=
  fun _ hrest ↦ spelled_word word h hrest.breaks

theorem Spells.keyword (word : String) (h : IsWord word) (hkind : wordKind word = .keyword) :
    Spells word.toList [⟨.keyword, word⟩] :=
  hkind ▸ Spells.word word h

/-- The text is one word, and names something. -/
def IsName (name : String) : Prop :=
  symbols (scan name) = [⟨.identifier, name⟩, endSymbol]

instance (name : String) : Decidable (IsName name) :=
  inferInstanceAs (Decidable (symbols (scan name) = _))

/-- No symbol is longer than the text. -/
theorem length_text_le_of_mem_spelled {s : Symbol} (h : s ∈ spelled cs) :
    s.text.toList.length ≤ cs.length := by
  induction cs using cutInduction with
  | nil =>
    obtain rfl := List.mem_singleton.mp h
    exact Nat.le_refl _
  | blank c cs hc ih =>
    rw [spelled_blank hc] at h
    exact Nat.le_succ_of_le (ih h)
  | token c cs hc ih =>
    rw [spelled, scanFrom_token 0 cs hc, symbols_cons] at h
    rcases List.mem_cons.mp h with rfl | h
    · change (cutText c cs).toList.length ≤ _
      rw [toList_cutText, List.length_cons, List.length_cons, List.length_take]
      omega
    · rw [symbols_scanFrom _ _ 0] at h
      exact Nat.le_trans (ih h) (Nat.le_succ_of_le (length_cutRest_le c cs))

theorem Measured.word_of_identifier {c : Char} {n : Nat} (h : Measured c cs .identifier n) :
    Text.beginsWord c = true ∧ n = wordRun cs ∧
      wordKind (String.ofList (c :: cs.take (wordRun cs))) = .identifier := by
  generalize hkind : Kind.identifier = kind at h
  cases h with
  | word hbegin hword => exact ⟨hbegin, rfl, hword.trans rfl⟩
  | _ => cases hkind

/-- A name is as long as the text it is cut from, so there is nothing to pass over in front of
it. -/
theorem IsName.exists_cons {name : String} (h : IsName name) :
    ∃ c cs, name.toList = c :: cs ∧ Text.isBlank c = false := by
  change spelled name.toList = _ at h
  cases hname : name.toList with
  | nil =>
    rw [hname] at h
    cases h
  | cons c cs =>
    refine ⟨c, cs, rfl, Bool.eq_false_iff.mpr fun hblank ↦ ?_⟩
    have hmem : Symbol.mk .identifier name ∈ spelled cs := by
      rw [← spelled_blank hblank, ← hname, h]
      exact List.mem_cons_self
    have hlength := length_text_le_of_mem_spelled hmem
    rw [hname, List.length_cons] at hlength
    exact Nat.not_succ_le_self _ hlength

theorem IsName.isWord {name : String} (h : IsName name) :
    IsWord name ∧ wordKind name = .identifier := by
  obtain ⟨c, cs, hname, hblank⟩ := h.exists_cons
  change spelled name.toList = _ at h
  rw [hname, spelled, scanFrom_token 0 cs hblank, symbols_cons] at h
  obtain ⟨hkind, htext⟩ := Symbol.mk.inj (List.cons.inj h).1
  dsimp only at hkind htext
  have hmeasured := measured c cs
  rw [hkind] at hmeasured
  obtain ⟨hbegin, hrun, hword⟩ := hmeasured.word_of_identifier
  rw [cutText, hrun] at htext
  have htake : cs.take (wordRun cs) = cs := by
    have hchars := congrArg String.toList htext
    rw [String.toList_ofList, hname] at hchars
    exact (List.cons.inj hchars).2
  rw [htext] at hword
  refine ⟨⟨c, cs, hname, hblank, hbegin, ?_⟩, hword⟩
  rw [← htake, wordRun, ← List.prefix_iff_eq_take.mp (List.takeWhile_prefix _)]
  exact List.all_takeWhile

theorem Spells.name {name : String} (h : IsName name) :
    Spells name.toList [⟨.identifier, name⟩] := by
  obtain ⟨hword, hkind⟩ := h.isWord
  have hspells := Spells.word name hword
  rwa [hkind] at hspells

/-! ## Literals and signs -/

theorem spelled_numeral {rest : List Char} (h : Decimal.Numeral cs) (hrest : Breaks rest) :
    spelled (cs ++ rest) = ⟨.number, String.ofList cs⟩ :: spelled rest := by
  obtain ⟨c, ds, rfl, hc, hblank, hmeasure⟩ := exists_measure_of_numeral h
  exact spelled_token hblank ((hrest.measure_append hc ds).trans hmeasure)

theorem Spells.integer (n : Int) :
    Spells (Decimal.ofInt n).toList [⟨.number, Decimal.ofInt n⟩] := by
  intro rest hrest
  rw [spelled_numeral (Decimal.numeral_ofInt n) hrest.breaks, String.ofList_toList]
  rfl

theorem spelled_quote (text : String) (rest : List Char) :
    spelled ((Literal.quote text).toList ++ rest) =
      ⟨.string, Literal.quote text⟩ :: spelled rest := by
  rw [spelled, Binding.scanFrom_quote, symbols_cons]
  exact congrArg _ (symbols_scanFrom _ _ _)

theorem Spells.quote (text : String) :
    Spells (Literal.quote text).toList [⟨.string, Literal.quote text⟩] := by
  intro rest _
  exact spelled_quote text rest

theorem literal_quote (text : String) :
    Statement.Grammar.Literal ⟨.string, Literal.quote text⟩ (.string text) := by
  have hliteral := Statement.Grammar.Literal.string (Literal.quote text)
  rwa [Literal.unquote_quote] at hliteral

theorem Spells.equals : Spells ['='] [⟨.operator, "="⟩] := by
  intro rest _
  exact spelled_token (by decide) rfl

end Token

/-! ## Lists -/

open Token Statement.Grammar

/-- The texts with commas and spaces between them. -/
def commaList (texts : List String) : List Char :=
  (String.intercalate ", " texts).toList

theorem commaList_singleton (text : String) : commaList [text] = text.toList := by
  rw [commaList, String.toList_intercalate]
  simp

theorem commaList_cons_cons (text text' : String) (texts : List String) :
    commaList (text :: text' :: texts) =
      text.toList ++ ',' :: ' ' :: commaList (text' :: texts) := by
  rw [commaList, commaList, String.toList_intercalate, String.toList_intercalate, List.map_cons,
    List.map_cons, List.intercalate_cons_cons, List.append_assoc]
  rfl

theorem exists_spells_commaList {α β : Type} {textOf : α → String} {valueOf : α → β}
    {element : List Symbol → β → Prop} {as : List α} (hne : as ≠ [])
    (h : ∀ a ∈ as, ∃ w, Spells (textOf a).toList w ∧ element w (valueOf a)) :
    ∃ w, Spells (commaList (as.map textOf)) w ∧ SepBy Comma element w (as.map valueOf) := by
  induction as with
  | nil => exact absurd rfl hne
  | cons a as ih =>
    obtain ⟨⟨w, hw, ha⟩, has⟩ := List.forall_mem_cons.mp h
    cases as with
    | nil => exact ⟨w, by rwa [List.map_singleton, commaList_singleton], .one ha⟩
    | cons b bs =>
      obtain ⟨v, hv, hbs⟩ := ih (List.cons_ne_nil _ _) has
      refine ⟨w ++ ⟨.comma, String.ofList [',']⟩ :: v, ?_, .more ha rfl hbs⟩
      rw [List.map_cons, List.map_cons, commaList_cons_cons]
      exact hw.mark .comma (Spells.nil.blank hv)

theorem exists_spells_names {names : List String} (hne : names ≠ [])
    (h : ∀ name ∈ names, IsName name) :
    ∃ w, Spells (commaList names) w ∧ SepBy Comma Name w names := by
  obtain ⟨w, hw, hlisted⟩ : ∃ w, Spells (commaList (names.map id)) w ∧
      SepBy Comma Name w (names.map id) :=
    exists_spells_commaList hne fun name hname ↦ ⟨_, .name (h name hname), .mk name⟩
  rw [List.map_id] at hw hlisted
  exact ⟨w, hw, hlisted⟩

/-! ## Binding pieces of a text -/

namespace Binding

variable {cs cs' ds ds' : List Char} {ps ps' : List Param}

instance : DecidablePred IsPlain := fun c ↦
  inferInstanceAs (Decidable (c ≠ '?' ∧ ¬ (c = '"' ∨ c = '\'')))

/-- The parameters are bound to all placeholders of the characters. -/
def Binds (cs : List Char) (ps : List Param) (ds : List Char) : Prop :=
  ∀ ⦃used : Nat⦄ ⦃rest : List Char⦄ ⦃more : List Param⦄ ⦃es : List Char⦄,
    bindFrom .outside (used + ps.length) rest more = .ok es →
      bindFrom .outside used (cs ++ rest) (ps ++ more) = .ok (ds ++ es)

theorem Binds.bind {statement : String} (h : Binds statement.toList ps ds) :
    ItemSql.bind statement ps = .ok (String.ofList ds) := by
  have hend : bindFrom .outside 0 (statement.toList ++ []) (ps ++ []) = .ok (ds ++ []) := h rfl
  rw [List.append_nil, List.append_nil, List.append_nil] at hend
  rw [ItemSql.bind, hend]
  rfl

theorem Binds.append (h : Binds cs ps ds) (h' : Binds cs' ps' ds') :
    Binds (cs ++ cs') (ps ++ ps') (ds ++ ds') := by
  intro used rest more es hes
  rw [List.length_append, ← Nat.add_assoc] at hes
  rw [List.append_assoc, List.append_assoc, List.append_assoc]
  exact h (h' hes)

theorem Binds.append_text {text text' bound bound' : String}
    (h : Binds text.toList ps bound.toList) (h' : Binds text'.toList ps' bound'.toList) :
    Binds (text ++ text').toList (ps ++ ps') (bound ++ bound').toList := by
  rw [String.toList_append, String.toList_append]
  exact h.append h'

/-- What has neither placeholders nor quotes stays as it is. -/
theorem Binds.plain (h : ∀ c ∈ cs, IsPlain c) : Binds cs [] cs :=
  fun _ _ _ es hes ↦ (bindFrom_copied (copied_of_isPlain h)).mpr ⟨es, rfl, hes⟩

/-- Whether text has neither placeholders nor quotes can be seen from it. -/
theorem Binds.text (text : String)
    (h : (text.toList.all fun c ↦ decide (IsPlain c)) = true) : Binds text.toList [] text.toList :=
  .plain fun c hc ↦ of_decide_eq_true (List.all_eq_true.mp h c hc)

theorem Binds.placeholder {p : Param} (hp : p.hasText = true) :
    Binds ['?'] [p] p.render.toList := by
  intro used rest more es hes
  change bindFrom .outside (used + 1) rest more = .ok es at hes
  change (if p.hasText = true then (bindFrom .outside (used + 1) rest more >>= fun rest ↦
    pure (p.render.toList ++ rest)) else .error (.nonFiniteFloat used)) = _
  rw [if_pos hp, hes]
  rfl

theorem binds_commaList (h : ∀ p ∈ ps, p.hasText = true) :
    Binds (commaList (ps.map fun _ ↦ "?")) ps (commaList (ps.map Param.render)) := by
  induction ps with
  | nil => exact .plain (by simp [commaList])
  | cons p ps ih =>
    obtain ⟨hp, hps⟩ := List.forall_mem_cons.mp h
    cases ps with
    | nil =>
      rw [List.map_singleton, List.map_singleton, commaList_singleton, commaList_singleton]
      exact .placeholder hp
    | cons q qs =>
      rw [List.map_cons, List.map_cons, commaList_cons_cons, List.map_cons, List.map_cons,
        commaList_cons_cons]
      have hcomma : Binds [',', ' '] [] [',', ' '] := .text ", " (by decide)
      exact (Binds.placeholder hp).append (hcomma.append (ih hps))

theorem Binds.name {name : String} (h : IsName name) : Binds name.toList [] name.toList := by
  obtain ⟨⟨c, cs, hname, -, hbegin, hcs⟩, -⟩ := h.isWord
  have hplain := fun d hd ↦ isPlain_of_continuesWord (List.all_eq_true.mp hcs d hd)
  rw [hname]
  refine .plain (List.forall_mem_cons.mpr ⟨?_, hplain⟩)
  exact isPlain_of_eq_true (by decide) (by decide) (by decide) hbegin

theorem Binds.names {names : List String} (h : ∀ name ∈ names, IsName name) :
    Binds (commaList names) [] (commaList names) := by
  induction names with
  | nil => exact .plain (by simp [commaList])
  | cons name names ih =>
    obtain ⟨hname, hnames⟩ := List.forall_mem_cons.mp h
    cases names with
    | nil =>
      rw [commaList_singleton]
      exact .name hname
    | cons other others =>
      have hcomma : Binds [',', ' '] [] [',', ' '] := .text ", " (by decide)
      rw [commaList_cons_cons]
      exact (Binds.name hname).append (hcomma.append (ih hnames))

end Binding

end ItemSql
