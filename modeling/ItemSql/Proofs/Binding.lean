import ItemSql.Binding
import ItemSql.Proofs.Token.Agree
import ItemSql.Proofs.Token.Symbol

/-!
# Binding keeps the structure of a statement

A text that is bound to a placeholder becomes one string literal, and nothing else of the statement
changes. This takes four things that were written apart to agree: where the binder sees a
placeholder, how a literal is written, where the scanner ends a token, and how a literal is read.

The proof goes over the statement from token to token. Whatever is copied is copied as a whole
token, because the binder is outside all literals at the end of each (`copied_token`); and the
token is cut off the bound text where it was cut off the statement, because the texts behind it
agree up to the next placeholder (`agree_of_bindFrom`).
-/

namespace ItemSql.Binding

open Token

/-! ## What binding should do -/

/-- The parameter is bound as a literal of the text. -/
inductive Textual : Param → String → Prop
  | string (text : String) : Textual (.string text) text
  | bytes (content : Text.Bytes) : Textual (.bytes content) (Text.lossy content)

/-- The symbol of a placeholder. -/
def placeholder : Symbol :=
  ⟨.unknown, "?"⟩

/-- The symbols with a string literal in the place of each placeholder. The literals have the texts
of the parameters, in order, and all other symbols are kept. -/
inductive Filled : List Symbol → List Param → List Symbol → Prop
  | nil : Filled [] [] []
  | keep {s : Symbol} {w v : List Symbol} {ps : List Param} (hs : s ≠ placeholder)
      (h : Filled w ps v) : Filled (s :: w) ps (s :: v)
  | fill {s : Symbol} {w v : List Symbol} {p : Param} {ps : List Param} (hkind : s.kind = .string)
      (hp : Textual p (Literal.unquote s.text)) (h : Filled w ps v) :
      Filled (placeholder :: w) (p :: ps) (s :: v)

theorem Textual.render {p : Param} {text : String} (h : Textual p text) :
    p.render = Literal.quote text := by
  cases h <;> rfl

/-! ## Copying -/

/-- The binder copies all of the characters, and goes from one place to another. -/
inductive Copied : Place → List Char → Place → Prop
  | nil (place : Place) : Copied place [] place
  | cons {place place' : Place} {c : Char} {cs : List Char} (hc : ¬ place.isPlaceholder c = true)
      (h : Copied (place.step c) cs place') : Copied place (c :: cs) place'

variable {used : Nat} {cs ds : List Char} {ps : List Param}

theorem isPlaceholder_iff {place : Place} {c : Char} :
    place.isPlaceholder c = true ↔ place = .outside ∧ c = '?' := by
  simp [Place.isPlaceholder]

theorem map_eq_ok_iff {f : List Char → List Char} {result : Except BindError (List Char)} :
    result.map f = .ok ds ↔ ∃ es, ds = f es ∧ result = .ok es := by
  cases result with
  | error e => exact iff_of_false nofun (by rintro ⟨es, -, ⟨⟩⟩)
  | ok es =>
    constructor
    · intro h
      exact ⟨es, (Except.ok.inj h).symm, rfl⟩
    · rintro ⟨_, rfl, ⟨⟩⟩
      rfl

theorem bindFrom_cons {place : Place} {c : Char} (hc : ¬ place.isPlaceholder c = true) :
    bindFrom place used (c :: cs) ps = (bindFrom (place.step c) used cs ps).map (c :: ·) := by
  rw [bindFrom.eq_def]
  dsimp only
  rw [if_neg hc]
  cases bindFrom (place.step c) used cs ps <;> rfl

theorem bindFrom_copy {place : Place} {c : Char} (hc : ¬ place.isPlaceholder c = true) :
    bindFrom place used (c :: cs) ps = .ok ds ↔
      ∃ es, ds = c :: es ∧ bindFrom (place.step c) used cs ps = .ok es := by
  rw [bindFrom_cons hc, map_eq_ok_iff]

/-- What is copied changes neither the result of binding what stands behind it nor its error. -/
theorem bindFrom_append {place place' : Place} (h : Copied place cs place') (rest : List Char) :
    bindFrom place used (cs ++ rest) ps = (bindFrom place' used rest ps).map (cs ++ ·) := by
  induction h with
  | nil place =>
    rw [List.nil_append]
    cases bindFrom place used rest ps <;> rfl
  | @cons place place' c cs hc h ih =>
    rw [List.cons_append, bindFrom_cons hc, ih]
    cases bindFrom place' used rest ps <;> rfl

theorem bindFrom_copied {place place' : Place} (h : Copied place cs place') {rest : List Char} :
    bindFrom place used (cs ++ rest) ps = .ok ds ↔
      ∃ es, ds = cs ++ es ∧ bindFrom place' used rest ps = .ok es := by
  rw [bindFrom_append h, map_eq_ok_iff]

theorem bindFrom_placeholder {p : Param} :
    bindFrom .outside used ('?' :: cs) (p :: ps) =
      if p.hasText then (bindFrom .outside (used + 1) cs ps).map (p.render.toList ++ ·)
      else .error (.nonFiniteFloat used) := by
  rw [bindFrom.eq_def]
  change (if p.hasText = true then _ else _) = _
  cases bindFrom .outside (used + 1) cs ps <;> rfl

theorem bindFrom_mark (h : bindFrom .outside used ('?' :: cs) ps = .ok ds) :
    ∃ p ps' es, ps = p :: ps' ∧ ds = p.render.toList ++ es ∧
      bindFrom .outside (used + 1) cs ps' = .ok es := by
  cases ps with
  | nil => cases h
  | cons p ps =>
    rw [bindFrom_placeholder] at h
    split at h
    · obtain ⟨es, hds, hes⟩ := map_eq_ok_iff.mp h
      exact ⟨p, ps, es, rfl, hds, hes⟩
    · cases h

theorem bindFrom_fill (hps : ∀ p ∈ ps, ∃ text, Textual p text)
    (h : bindFrom .outside used ('?' :: cs) ps = .ok ds) :
    ∃ p ps' text es, ps = p :: ps' ∧ Textual p text ∧ ds = (Literal.quote text).toList ++ es ∧
      bindFrom .outside (used + 1) cs ps' = .ok es := by
  obtain ⟨p, ps, es, rfl, hds, hes⟩ := bindFrom_mark h
  obtain ⟨text, hp⟩ := hps p List.mem_cons_self
  rw [hp.render] at hds
  exact ⟨p, ps, text, es, rfl, hp, hds, hes⟩

/-! ## Tokens are copied as a whole -/

theorem copied_of_isPlain (h : ∀ c ∈ cs, IsPlain c) : Copied .outside cs .outside := by
  induction cs with
  | nil => exact .nil _
  | cons c cs ih =>
    obtain ⟨hmark, hquote⟩ := h c List.mem_cons_self
    refine .cons (by simp [Place.isPlaceholder, hmark]) ?_
    have hstep : Place.step c .outside = .outside := if_neg hquote
    rw [hstep]
    exact ih fun d hd ↦ h d (List.mem_cons_of_mem _ hd)

theorem copied_blank {c : Char} (hc : Text.isBlank c = true) : Copied .outside [c] .outside := by
  have hplain : IsPlain c := isPlain_of_eq_true (by decide) (by decide) (by decide) hc
  exact copied_of_isPlain (by simpa using hplain)

/-- Inside a literal nothing is a placeholder. -/
theorem copied_inside {quote c : Char} {place : Place}
    (h : Copied (Place.step c (.inside quote)) cs place) : Copied (.inside quote) (c :: cs) place :=
  .cons Bool.false_ne_true h

theorem copied_escaped {quote c : Char} {place : Place} (h : Copied (.inside quote) cs place) :
    Copied (.inside quote) ('\\' :: c :: cs) place :=
  copied_inside (.cons Bool.false_ne_true h)

theorem step_inside {quote c : Char} (hc : c ≠ '\\') (hquote : c ≠ quote) :
    Place.step c (.inside quote) = .inside quote := by
  rw [Place.step, if_neg hc, if_neg hquote]

theorem copied_closing {quote : Char} (hquote : IsQuote quote) :
    ∀ {n : Nat}, closing quote cs = some n → Copied (.inside quote) (cs.take n) .outside := by
  fun_induction closing quote cs with
  | case1 => intro n h; cases h
  | case2 => intro n h; cases h
  | case3 c cs ih =>
    -- Neither character of an escape closes the literal for the binder.
    intro n h
    obtain ⟨m, hm, rfl⟩ := Option.map_eq_some_iff.mp h
    exact copied_escaped (ih hm)
  | case4 cs =>
    intro n h
    obtain rfl := Option.some.inj h
    have hstep : Place.step quote (.inside quote) = .outside := by
      rw [Place.step, if_neg hquote.ne_backslash, if_pos rfl]
    refine copied_inside ?_
    rw [hstep]
    exact .nil _
  | case5 c cs hlast hmore hc ih =>
    intro n h
    obtain ⟨m, hm, rfl⟩ := Option.map_eq_some_iff.mp h
    refine copied_inside ?_
    rw [step_inside (ne_backslash hlast hmore) hc]
    exact ih hm

theorem copied_unclosed {quote : Char} :
    closing quote cs = none → ∃ place, Copied (.inside quote) cs place := by
  fun_induction closing quote cs with
  | case1 => exact fun _ ↦ ⟨_, .nil _⟩
  | case2 => exact fun _ ↦ ⟨_, copied_inside (.nil _)⟩
  | case3 c cs ih =>
    intro h
    obtain ⟨place, hplace⟩ := ih (Option.map_eq_none_iff.mp h)
    exact ⟨place, copied_escaped hplace⟩
  | case4 => intro h; cases h
  | case5 c cs hlast hmore hc ih =>
    intro h
    obtain ⟨place, hplace⟩ := ih (Option.map_eq_none_iff.mp h)
    refine ⟨place, copied_inside ?_⟩
    rw [step_inside (ne_backslash hlast hmore) hc]
    exact hplace

/-! ## One token after another -/

theorem toList_quote (text : String) :
    (Literal.quote text).toList = '"' :: (Literal.escape text.toList ++ ['"']) := by
  rw [Literal.quote, String.toList_ofList, List.cons_append]

/-- Behind the last character the place does not matter. -/
theorem bindFrom_nil {place : Place} (h : bindFrom place used [] ps = .ok ds) :
    ps = [] ∧ ds = [] := by
  cases ps with
  | nil => exact ⟨rfl, (Except.ok.inj h).symm⟩
  | cons => cases h

theorem agree_of_bindFrom {place : Place} (hps : ∀ p ∈ ps, ∃ text, Textual p text)
    (h : bindFrom place used cs ps = .ok ds) : Agree cs ds := by
  induction cs generalizing place used ps ds with
  | nil =>
    obtain ⟨-, rfl⟩ := bindFrom_nil h
    exact .nil
  | cons c cs ih =>
    by_cases hc : place.isPlaceholder c = true
    · obtain ⟨rfl, rfl⟩ := isPlaceholder_iff.mp hc
      obtain ⟨p, ps, text, es, rfl, hp, rfl, hes⟩ := bindFrom_fill hps h
      rw [toList_quote]
      exact .mark _ _
    · obtain ⟨es, rfl, hes⟩ := (bindFrom_copy hc).mp h
      exact .cons c (ih hps hes)

/-- A token that is no placeholder is copied, and the binder is outside all literals behind it
unless nothing is left there. -/
theorem copied_cut {c : Char} (hmark : c ≠ '?') (cs : List Char) :
    ∃ place, Copied .outside (cutText c cs).toList place ∧
      (place = .outside ∨ cutRest c cs = []) := by
  have hplaceholder : ¬ Place.isPlaceholder c .outside = true := by
    simp [Place.isPlaceholder, hmark]
  rw [toList_cutText]
  by_cases hquote : IsQuote c
  · have hinside : Place.step c .outside = .inside c := if_pos hquote
    cases hclosing : closing c cs with
    | some n =>
      rw [measure_of_closing hquote hclosing]
      exact ⟨_, .cons hplaceholder (hinside ▸ copied_closing hquote hclosing), .inl rfl⟩
    | none =>
      -- The literal goes to the end.
      obtain ⟨place, hplace⟩ := copied_unclosed hclosing
      rw [cutRest, measure_of_unclosed hquote hclosing, List.take_length, List.drop_length]
      exact ⟨place, .cons hplaceholder (hinside ▸ hplace), .inr rfl⟩
  · have hplain := (measured c cs).plain hquote
    exact ⟨_, copied_of_isPlain (List.forall_mem_cons.mpr ⟨⟨hmark, hquote⟩, hplain⟩), .inl rfl⟩

/-- Binding goes on behind a token that is no placeholder. -/
theorem bindFrom_token {c : Char} (hmark : c ≠ '?') :
    bindFrom .outside used (c :: cs) ps =
      (bindFrom .outside used (cutRest c cs) ps).map ((cutText c cs).toList ++ ·) := by
  obtain ⟨place, hcopied, hplace⟩ := copied_cut hmark cs
  rw [← cutText_append_cutRest c cs, bindFrom_append hcopied]
  rcases hplace with rfl | hrest
  · rfl
  · rw [hrest]
    cases ps <;> rfl

theorem bindFrom_cut {c : Char} (hmark : c ≠ '?') :
    bindFrom .outside used (c :: cs) ps = .ok ds ↔
      ∃ es, ds = (cutText c cs).toList ++ es ∧
        bindFrom .outside used (cutRest c cs) ps = .ok es := by
  rw [bindFrom_token hmark, map_eq_ok_iff]

/-- A token that is no placeholder is copied, and cut off the bound text again: a string as far as
it is closed, and any other token if it measures the same there. -/
theorem token_of_bindFrom {c : Char} (hmark : c ≠ '?')
    (h : bindFrom .outside used (c :: cs) ps = .ok ds)
    (hsame : ¬ IsQuote c → ∀ es, ds = c :: es → measure c es = measure c cs) :
    ∃ es, ds = (cutText c cs).toList ++ es ∧
      bindFrom .outside used (cutRest c cs) ps = .ok es ∧
      measure c (cs.take (measure c cs).2 ++ es) = measure c cs := by
  obtain ⟨es, rfl, hes⟩ := (bindFrom_cut hmark).mp h
  refine ⟨es, rfl, hes, ?_⟩
  rw [toList_cutText] at hsame
  by_cases hquote : IsQuote c
  · cases hclosing : closing c cs with
    | some n =>
      rw [measure_of_closing hquote hclosing]
      exact measure_of_closing hquote (closing_take_append hquote hclosing)
    | none =>
      have hmeasure := measure_of_unclosed hquote hclosing
      rw [cutRest, hmeasure, List.drop_length] at hes
      obtain ⟨-, rfl⟩ := bindFrom_nil hes
      rw [hmeasure, List.take_length, List.append_nil, hmeasure]
  · exact hsame hquote _ rfl

/-- What is bound behind a token that is no placeholder does not change it. -/
theorem copied_token {c : Char} (hmark : c ≠ '?') (hps : ∀ p ∈ ps, ∃ text, Textual p text)
    (h : bindFrom .outside used (c :: cs) ps = .ok ds) :
    ∃ es, ds = (cutText c cs).toList ++ es ∧
      bindFrom .outside used (cutRest c cs) ps = .ok es ∧
      measure c (cs.take (measure c cs).2 ++ es) = measure c cs := by
  have hagree := agree_of_bindFrom hps h
  refine token_of_bindFrom hmark h fun hquote es hes ↦ measure_eq_of_agree hquote ?_
  rw [hes] at hagree
  cases hagree with
  | cons _ hagree => exact hagree

theorem closing_escape (text : List Char) :
    closing '"' (Literal.escape text ++ '"' :: ds) = some ((Literal.escape text).length + 1) := by
  induction text with
  | nil => rfl
  | cons c cs ih =>
    rw [Literal.escape]
    by_cases hc : c = '"' ∨ c = '\\'
    · rw [if_pos hc]
      change closing '"' ('\\' :: c :: (Literal.escape cs ++ '"' :: ds)) = _
      rw [closing, ih]
      rfl
    · rw [if_neg hc]
      rw [not_or] at hc
      change closing '"' (c :: (Literal.escape cs ++ '"' :: ds)) = _
      rw [closing_cons hc.2, if_neg hc.1, ih]
      rfl

/-- A literal that is written out is one token, whatever stands behind it. -/
theorem scanFrom_quote (offset : Nat) (text : String) :
    scanFrom 0 offset ((Literal.quote text).toList ++ ds) =
      ⟨.string, Literal.quote text, offset⟩ ::
        scanFrom 0 (offset + (Literal.quote text).utf8ByteSize) ds := by
  have hmeasure : measure '"' ((Literal.escape text.toList ++ ['"']) ++ ds) =
      (.string, (Literal.escape text.toList ++ ['"']).length) := by
    rw [List.append_assoc, List.length_append]
    exact measure_of_closing (.inl rfl) (closing_escape _)
  rw [toList_quote]
  exact scanFrom_append offset ds (by decide) hmeasure

/-- Symbols that stand for themselves are not placeholders. -/
theorem symbol_ne_placeholder {c : Char} (hmark : c ≠ '?') {kind : Kind} :
    Symbol.mk kind (cutText c cs) ≠ placeholder := by
  intro h
  have htext := congrArg (fun s : Symbol ↦ s.text.toList) h
  dsimp only at htext
  rw [toList_cutText] at htext
  exact hmark (List.cons.inj htext).1

theorem filled_scanFrom {offset offset' : Nat} (hps : ∀ p ∈ ps, ∃ text, Textual p text)
    (h : bindFrom .outside used cs ps = .ok ds) :
    Filled (symbols (scanFrom 0 offset cs)) ps (symbols (scanFrom 0 offset' ds)) := by
  -- From token to token of the statement. Offsets differ from the first placeholder on, and so
  -- does the number of parameters that are used.
  induction cs using cutInduction generalizing used offset offset' ps ds with
  | nil =>
    obtain ⟨rfl, rfl⟩ := bindFrom_nil h
    exact .keep (fun h ↦ by cases congrArg Symbol.kind h) .nil
  | blank c cs hc ih =>
    obtain ⟨es, rfl, hes⟩ := (bindFrom_copied (copied_blank hc)).mp h
    rw [scanFrom_blank offset cs hc, List.singleton_append, scanFrom_blank offset' es hc]
    exact ih hps hes
  | token c cs hc ih =>
    -- A question mark that begins a token is a placeholder, since the binder is outside here.
    by_cases hmark : c = '?'
    · subst hmark
      obtain ⟨p, ps, text, es, rfl, hp, rfl, hes⟩ := bindFrom_fill hps h
      rw [scanFrom_token offset cs hc, scanFrom_quote]
      refine .fill rfl ?_ (ih (fun p' hp' ↦ hps p' (List.mem_cons_of_mem _ hp')) hes)
      dsimp only [Token.symbol]
      rw [Literal.unquote_quote]
      exact hp
    · obtain ⟨es, rfl, hes, hmeasure⟩ := copied_token hmark hps h
      have hlength : (cs.take (measure c cs).2).length = (measure c cs).2 :=
        List.length_take_of_le (measure_le c cs)
      have hcut : measure c (cs.take (measure c cs).2 ++ es) =
          ((measure c cs).1, (cs.take (measure c cs).2).length) := by
        rw [hmeasure, hlength]
      rw [scanFrom_token offset cs hc, toList_cutText, scanFrom_append offset' es hc hcut]
      exact .keep (symbol_ne_placeholder hmark) (ih hps hes)

theorem bindFrom_of_bind {statement bound : String} (h : bind statement ps = .ok bound) :
    bindFrom .outside 0 statement.toList ps = .ok bound.toList := by
  rw [bind] at h
  cases hds : bindFrom .outside 0 statement.toList ps with
  | error e =>
    rw [hds] at h
    cases h
  | ok ds =>
    rw [hds] at h
    obtain rfl := Except.ok.inj h
    rw [String.toList_ofList]

/-- No injection: whatever texts are bound, each placeholder becomes one string literal that is read
as its text, and every other symbol of the statement stays. -/
theorem bind_filled {statement bound : String} (hps : ∀ p ∈ ps, ∃ text, Textual p text)
    (h : bind statement ps = .ok bound) :
    Filled (symbols (scan statement)) ps (symbols (scan bound)) := by
  rw [bind] at h
  cases hds : bindFrom .outside 0 statement.toList ps with
  | error e =>
    rw [hds] at h
    cases h
  | ok ds =>
    rw [hds] at h
    obtain rfl := Except.ok.inj h
    rw [scan, scan, String.toList_ofList]
    exact filled_scanFrom hps hds

theorem bind_filled_glued :
    (∀ p ∈ [Param.string "\" or ?", .bytes [0x41, 0xff]], ∃ text, Textual p text) ∧
      bind "a-?'?'?" [.string "\" or ?", .bytes [0x41, 0xff]] =
        .ok "a-\"\\\" or ?\"'?'\"A\ufffd\"" ∧
      Filled (symbols (scan "a-?'?'?")) [.string "\" or ?", .bytes [0x41, 0xff]]
        (symbols (scan "a-\"\\\" or ?\"'?'\"A\ufffd\"")) := by
  have hps : ∀ p ∈ [Param.string "\" or ?", .bytes [0x41, 0xff]], ∃ text, Textual p text := by
    simp only [List.mem_cons, List.not_mem_nil, or_false, forall_eq_or_imp, forall_eq]
    exact ⟨⟨_, .string _⟩, ⟨_, .bytes _⟩⟩
  have hbound : bind "a-?'?'?" [.string "\" or ?", .bytes [0x41, 0xff]] =
      .ok "a-\"\\\" or ?\"'?'\"A\ufffd\"" := by
    rfl
  exact ⟨hps, hbound, bind_filled hps hbound⟩

/-! ## Statements without placeholders -/

theorem cut_placeholder (cs : List Char) :
    measure '?' cs = (.unknown, 0) ∧ cutText '?' cs = "?" :=
  ⟨rfl, rfl⟩

theorem bindFrom_eq_self {offset : Nat} (h : placeholder ∉ symbols (scanFrom 0 offset cs)) :
    bindFrom .outside used cs [] = .ok cs := by
  induction cs using cutInduction generalizing offset with
  | nil => rfl
  | blank c cs hc ih =>
    rw [scanFrom_blank offset cs hc] at h
    exact (bindFrom_copied (copied_blank hc)).mpr ⟨cs, rfl, ih h⟩
  | token c cs hc ih =>
    rw [scanFrom_token offset cs hc, symbols_cons, List.mem_cons, not_or] at h
    obtain ⟨hsymbol, hrest⟩ := h
    have hmark : c ≠ '?' := by
      rintro rfl
      apply hsymbol
      rw [symbol, (cut_placeholder cs).1, (cut_placeholder cs).2, placeholder]
    exact (bindFrom_cut hmark).mpr ⟨_, (cutText_append_cutRest c cs).symm, ih hrest⟩

/-- Where there are no placeholders, nothing is bound. -/
theorem bind_eq_self {statement : String} (h : placeholder ∉ symbols (scan statement)) :
    bind statement [] = .ok statement := by
  rw [bind, bindFrom_eq_self h]
  exact congrArg Except.ok String.ofList_toList

end ItemSql.Binding
