import ItemSql.Proofs.NumberCell
import ItemSql.Proofs.Statement.Spelling

/-!
# Binding numbers

A text is bound as a literal, which its quotes keep apart from whatever stands next to it. A number
is bound as it is, and could go on what stands before it or be gone on by what stands behind. It
does neither where each placeholder stands between delimiters, or at an end of the text: then every
parameter becomes one symbol, and every other symbol of the statement stays.

The proof goes over the statement from token to token. The bound text and the statement coincide as
far as the scanner looks (`coincide_of_bindFrom`), because a placeholder, which is where they begin
to differ, has a delimiter before it. Behind the text of a parameter stands a delimiter too, so this
text is cut off as it would be at the end of a statement.
-/

namespace ItemSql.Binding

open Token

/-! ## What binding should do -/

/-- The parameter is a number. -/
inductive Numeric : Param → Prop
  | int (n : Int64) : Numeric (.int n)
  | float (x : Float) : Numeric (.float x)

/-- The symbol is what becomes of the parameter: a number as it is written, a string literal of the
text, or a word. -/
inductive Becomes : Param → Symbol → Prop
  | number {p : Param} (hp : Numeric p) : Becomes p ⟨.number, p.render⟩
  | text {p : Param} {s : Symbol} (hkind : s.kind = .string)
      (hp : Textual p (Literal.unquote s.text)) : Becomes p s
  | word (b : Bool) : Becomes (.bool b) ⟨.identifier, (Param.bool b).render⟩

/-- The symbols with what becomes of the parameters in the place of the placeholders, in order. All
other symbols are kept. -/
inductive Supplied : List Symbol → List Param → List Symbol → Prop
  | nil : Supplied [] [] []
  | keep {s : Symbol} {w v : List Symbol} {ps : List Param} (hs : s ≠ placeholder)
      (h : Supplied w ps v) : Supplied (s :: w) ps (s :: v)
  | supply {s : Symbol} {w v : List Symbol} {p : Param} {ps : List Param} (hp : Becomes p s)
      (h : Supplied w ps v) : Supplied (placeholder :: w) (p :: ps) (s :: v)

/-- The place behind the characters. -/
def behind (place : Place) (cs : List Char) : Place :=
  cs.foldl (fun place c ↦ place.step c) place

/-- Each placeholder among the characters, which stand behind others and begin in the given place,
has a delimiter or an end of the text on either side. -/
def FramedFrom (front : List Char) (place : Place) (cs : List Char) : Prop :=
  ∀ before after, cs = before ++ '?' :: after → behind place before = .outside →
    Delimited (front ++ before).reverse ∧ Delimited after

/-- Each placeholder of the statement has a delimiter or an end of the text on either side. -/
def Framed (statement : String) : Prop :=
  FramedFrom [] .outside statement.toList

variable {used : Nat} {front cs ds : List Char} {place : Place} {ps : List Param}

/-! ## Parts of a framed statement -/

theorem framedFrom_nil : FramedFrom front place [] := by
  intro before after hcs
  simp at hcs

theorem framedFrom_cons {c : Char} : FramedFrom front place (c :: cs) ↔
    (place.isPlaceholder c = true → Delimited front.reverse ∧ Delimited cs) ∧
      FramedFrom (front ++ [c]) (place.step c) cs := by
  constructor
  · intro h
    constructor
    · intro hc
      obtain ⟨rfl, rfl⟩ := isPlaceholder_iff.mp hc
      have hmark := h [] cs rfl rfl
      rwa [List.append_nil] at hmark
    · intro before after hcs hplace
      have hbefore := h (c :: before) after (congrArg _ hcs) hplace
      rwa [List.append_cons] at hbefore
  · rintro ⟨hc, hrest⟩ before after hcs hplace
    cases before with
    | nil =>
      obtain ⟨rfl, rfl⟩ := List.cons.inj hcs
      rw [List.append_nil]
      exact hc (isPlaceholder_iff.mpr ⟨hplace, rfl⟩)
    | cons d before =>
      obtain ⟨rfl, htail⟩ := List.cons.inj hcs
      rw [List.append_cons]
      exact hrest before after htail hplace

instance decidableFramedFrom : ∀ front place cs, Decidable (FramedFrom front place cs)
  | _, _, [] => .isTrue framedFrom_nil
  | front, place, c :: cs =>
    have := decidableFramedFrom (front ++ [c]) (place.step c) cs
    decidable_of_iff _ framedFrom_cons.symm

instance (statement : String) : Decidable (Framed statement) :=
  inferInstanceAs (Decidable (FramedFrom [] .outside statement.toList))

theorem FramedFrom.copied {place' : Place} (hcopied : Copied place cs place')
    (h : FramedFrom front place (cs ++ ds)) : FramedFrom (front ++ cs) place' ds := by
  induction hcopied generalizing front with
  | nil => rwa [List.append_nil]
  | cons _ _ ih =>
    rw [List.append_cons]
    exact ih (framedFrom_cons.mp h).2

/-- Binding goes on behind a token of a framed statement with what is framed again. -/
theorem FramedFrom.cut {c : Char} (h : FramedFrom front .outside (c :: cs)) (hmark : c ≠ '?') :
    FramedFrom (front ++ (cutText c cs).toList) .outside (cutRest c cs) := by
  obtain ⟨place, hcopied, hplace⟩ := copied_cut hmark cs
  rcases hplace with rfl | hrest
  · rw [← cutText_append_cutRest c cs] at h
    exact .copied hcopied h
  · rw [hrest]
    exact framedFrom_nil

theorem delimited_of_bindFrom (h : Delimited cs) (hds : bindFrom .outside used cs ps = .ok ds) :
    Delimited ds := by
  cases cs with
  | nil =>
    obtain ⟨-, rfl⟩ := bindFrom_nil hds
    exact h
  | cons c cs =>
    have hc := delimited_cons.mp h
    have hcopy : ¬ Place.isPlaceholder c .outside = true :=
      mt isPlaceholder_iff.mp fun hmark ↦ hc.isPlain.1 hmark.2
    obtain ⟨es, rfl, -⟩ := (bindFrom_copy hcopy).mp hds
    exact delimited_cons.mpr hc

/-! ## What parameters become -/

theorem numeric_or_textual_or_bool (p : Param) :
    Numeric p ∨ (∃ text, Textual p text) ∨ ∃ b, p = .bool b := by
  cases p with
  | int n => exact .inl (.int n)
  | float x => exact .inl (.float x)
  | bool b => exact .inr (.inr ⟨b, rfl⟩)
  | string text => exact .inr (.inl ⟨_, .string text⟩)
  | bytes content => exact .inr (.inl ⟨_, .bytes content⟩)

/-- A number is rendered without an exponent, and this is how numbers of a statement are written. -/
theorem Numeric.numeral {p : Param} (h : Numeric p) : Decimal.Numeral p.render.toList := by
  cases h with
  | int n => exact Decimal.numeral_ofInt n.toInt
  | float x => exact Decimal.numeral_write_plain x.toBits

theorem isWord_render_bool (b : Bool) :
    IsWord (Param.bool b).render ∧ wordKind (Param.bool b).render = .identifier := by
  cases b <;> decide

/-- A parameter becomes one symbol where its text is broken off. -/
theorem exists_becomes (p : Param) : ∃ s, Becomes p s ∧
    ∀ {rest : List Char}, Breaks rest → spelled (p.render.toList ++ rest) = s :: spelled rest := by
  rcases numeric_or_textual_or_bool p with hp | ⟨text, hp⟩ | ⟨b, rfl⟩
  · refine ⟨_, .number hp, fun hrest ↦ ?_⟩
    rw [spelled_numeral hp.numeral hrest, String.ofList_toList]
  · refine ⟨⟨.string, Literal.quote text⟩, .text rfl ?_, fun _ ↦ ?_⟩
    · rwa [Literal.unquote_quote]
    · rw [hp.render]
      exact spelled_quote text _
  · obtain ⟨hword, hkind⟩ := isWord_render_bool b
    refine ⟨_, .word b, fun hrest ↦ ?_⟩
    rw [spelled_word _ hword hrest, hkind]

theorem exists_cons_render (p : Param) : ∃ c cs, p.render.toList = c :: cs ∧ c ≠ '=' := by
  rcases numeric_or_textual_or_bool p with hp | ⟨text, hp⟩ | ⟨b, rfl⟩
  · obtain ⟨c, cs, hrender, hc, -⟩ := exists_measure_of_numeral hp.numeral
    refine ⟨c, cs, hrender, ?_⟩
    rintro rfl
    exact absurd hc (by decide)
  · rw [hp.render, toList_quote]
    exact ⟨_, _, rfl, by decide⟩
  · cases b
    · exact ⟨_, _, rfl, by decide⟩
    · exact ⟨_, _, rfl, by decide⟩

/-! ## What stays -/

/-- Unless the statement begins with a placeholder, the bound text coincides with it. -/
theorem coincide_of_bindFrom (hframed : FramedFrom front place cs)
    (hstart : ∀ c ∈ cs.head?, ¬ place.isPlaceholder c = true)
    (h : bindFrom place used cs ps = .ok ds) : Coincide cs ds := by
  induction cs generalizing front place used ps ds with
  | nil =>
    obtain ⟨-, rfl⟩ := bindFrom_nil h
    exact .stop breaks_nil breaks_nil
  | cons c cs ih =>
    obtain ⟨es, rfl, hes⟩ := (bindFrom_copy (hstart c rfl)).mp h
    have htail := (framedFrom_cons.mp hframed).2
    by_cases hnext : ∃ d ∈ cs.head?, (place.step c).isPlaceholder d = true
    · -- The next character is a placeholder, so this one is a delimiter.
      obtain ⟨d, hd, hplaceholder⟩ := hnext
      obtain ⟨hplace, rfl⟩ := isPlaceholder_iff.mp hplaceholder
      obtain ⟨cs, rfl⟩ := List.head?_eq_some_iff.mp hd
      have hc : IsDelimiter c := ((framedFrom_cons.mp htail).1 hplaceholder).1 c (by simp)
      exact .stop (breaks_cons.mpr hc.not_goesOn) (breaks_cons.mpr hc.not_goesOn)
    · exact .cons c (ih htail (fun d hd hplaceholder ↦ hnext ⟨d, hd, hplaceholder⟩) hes)

/-- An equals sign begins the bound text only where it begins the statement. -/
theorem head?_bindFrom (h : bindFrom place used cs ps = .ok ds) :
    ds.head? = some '=' ↔ cs.head? = some '=' := by
  cases cs with
  | nil =>
    obtain ⟨-, rfl⟩ := bindFrom_nil h
    rfl
  | cons c cs =>
    by_cases hc : place.isPlaceholder c = true
    · obtain ⟨rfl, rfl⟩ := isPlaceholder_iff.mp hc
      obtain ⟨p, ps, es, rfl, rfl, -⟩ := bindFrom_mark h
      obtain ⟨d, ds, hrender, hd⟩ := exists_cons_render p
      simp [hrender, hd]
    · obtain ⟨es, rfl, -⟩ := (bindFrom_copy hc).mp h
      rfl

/-- What begins a token other than a string measures the same in the bound text. -/
theorem measure_bindFrom {c : Char} (hframed : FramedFrom front .outside (c :: cs))
    (hmark : c ≠ '?') (hquote : ¬ IsQuote c)
    (h : bindFrom .outside used (c :: cs) ps = .ok (c :: ds)) : measure c ds = measure c cs := by
  have hc : ¬ Place.isPlaceholder c .outside = true :=
    mt isPlaceholder_iff.mp fun hc ↦ hmark hc.2
  have hstart : ∀ d ∈ (c :: cs).head?, ¬ Place.isPlaceholder d .outside = true := by
    rintro d ⟨⟩
    exact hc
  obtain ⟨es, heq, hes⟩ := (bindFrom_copy hc).mp h
  obtain ⟨-, rfl⟩ := List.cons.inj heq
  exact measure_eq_of_coincide hquote (fun _ ↦ head?_bindFrom hes)
    (coincide_of_bindFrom hframed hstart h)

/-! ## One token after another -/

theorem supplied_spelled (hframed : FramedFrom front .outside cs)
    (h : bindFrom .outside used cs ps = .ok ds) : Supplied (spelled cs) ps (spelled ds) := by
  -- From token to token of the statement, with what stands before it in `front`.
  induction cs using cutInduction generalizing front used ps ds with
  | nil =>
    obtain ⟨rfl, rfl⟩ := bindFrom_nil h
    exact .keep (by decide) .nil
  | blank c cs hc ih =>
    obtain ⟨es, rfl, hes⟩ := (bindFrom_copied (copied_blank hc)).mp h
    rw [spelled_blank hc, List.singleton_append, spelled_blank hc]
    exact ih (.copied (copied_blank hc) hframed) hes
  | token c cs hc ih =>
    by_cases hmark : c = '?'
    · subst hmark
      obtain ⟨p, ps, es, rfl, rfl, hes⟩ := bindFrom_mark h
      obtain ⟨s, hs, hspelled⟩ := exists_becomes p
      obtain ⟨hmark, htail⟩ := framedFrom_cons.mp hframed
      have hbound := delimited_of_bindFrom (hmark rfl).2 hes
      rw [spelled_cut hc, hspelled hbound.breaks]
      exact .supply hs (ih htail hes)
    · obtain ⟨es, rfl, hes, hmeasure⟩ := token_of_bindFrom hmark h fun hquote es hds ↦
        measure_bindFrom hframed hmark hquote (hds ▸ h)
      rw [spelled_cut hc, spelled_cut_append hc hmeasure]
      exact .keep (symbol_ne_placeholder hmark) (ih (hframed.cut hmark) hes)

/-- Where placeholders stand between delimiters, every parameter becomes one symbol, and every other
symbol of the statement stays. An integer is read back from its symbol as itself. -/
theorem bind_supplied {statement bound : String} (hframed : Framed statement)
    (h : bind statement ps = .ok bound) :
    Supplied (symbols (scan statement)) ps (symbols (scan bound)) ∧
      ∀ (n : Int64) (column : String) (policy : NumberPolicy),
        realize (some (.number (Param.int n).render)) column policy = .ok (.int n) := by
  refine ⟨supplied_spelled hframed (bindFrom_of_bind h), fun n column policy ↦ ?_⟩
  rw [realize_number]
  exact realizeNumber_ofInt n column policy

/-- Placeholders next to signs and a comma, and a question mark that is none. -/
def besideSigns : String :=
  "update t set a = ?, b =? where h='?' and r<?"

theorem bind_supplied_besideSigns :
    Framed besideSigns ∧
      bind besideSigns [.float 0.5, .string "x?", .int (-5)] =
        .ok "update t set a = 0.5, b =\"x?\" where h='?' and r<-5" ∧
      Supplied (symbols (scan besideSigns)) [.float 0.5, .string "x?", .int (-5)]
        (symbols (scan "update t set a = 0.5, b =\"x?\" where h='?' and r<-5")) ∧
      realize (some (.number (Param.int (-5)).render)) "r" .strict = .ok (.int (-5)) := by
  have hframed : Framed besideSigns := by decide +kernel
  have hbound : bind besideSigns [.float 0.5, .string "x?", .int (-5)] =
      .ok "update t set a = 0.5, b =\"x?\" where h='?' and r<-5" := by
    decide +kernel
  obtain ⟨hsupplied, hread⟩ := bind_supplied hframed hbound
  exact ⟨hframed, hbound, hsupplied, hread (-5) "r" .strict⟩

end ItemSql.Binding
