import ItemSql.Proofs.Binding.Arity
import ItemSql.Proofs.Binding.Supplied
import ItemSql.Proofs.NameMap

/-!
# Inserting parameters

The statement that inserts a row with a placeholder for each value, and what it comes to once
parameters are bound to it. A number and a text become literals, and where there are no others the
statement puts the item of their values (`sentence_insertion`).

A truth value becomes a word, and no rule of the grammar has a place for a word among the values.
That no such statement is accepted is seen by counting: an insertion has as many values as columns
and names its table, so there is one identifier more than there are literals (`Insert.balance_eq`).
Each truth value is one more identifier and one literal less.
-/

namespace ItemSql

/-- The statement that inserts a row, with a text for each value. -/
def insertText (table : String) (columns values : List String) : String :=
  "insert into " ++ table ++ " (" ++ String.intercalate ", " columns ++ ") values (" ++
    String.intercalate ", " values ++ ")"

open Token Statement.Grammar Binding

/-! ## The statement -/

/-- The symbols of the statement, with those of the columns and of the values. -/
def insertion (table : String) (w v : List Symbol) : List Symbol :=
  ⟨.keyword, "insert"⟩ :: ⟨.keyword, "into"⟩ :: ⟨.identifier, table⟩ :: ⟨.leftParen, "("⟩ ::
    (w ++ ⟨.rightParen, ")"⟩ :: ⟨.keyword, "values"⟩ :: ⟨.leftParen, "("⟩ ::
      (v ++ [⟨.rightParen, ")"⟩]))

variable {table : String} {columns : List String} {w v : List Symbol} {ps : List Param}

theorem toList_insertText (table : String) (columns values : List String) :
    (insertText table columns values).toList =
      "insert".toList ++ ' ' :: ("into".toList ++ ' ' :: (table.toList ++ ' ' :: ([] ++ '(' ::
        (commaList columns ++ ')' :: ([] ++ ' ' :: ("values".toList ++ ' ' :: ([] ++ '(' ::
          (commaList values ++ ')' :: [])))))))) := by
  delta insertText commaList
  rw [String.append_assoc, String.append_assoc, String.append_assoc, String.append_assoc,
    String.append_assoc, String.toList_append, String.toList_append, String.toList_append,
    String.toList_append, String.toList_append, String.toList_append]
  rfl

theorem binds_insertText (htable : IsName table) (hcolumns : ∀ name ∈ columns, IsName name)
    (hps : ∀ p ∈ ps, p.hasText = true) :
    Binds (insertText table columns (ps.map fun _ ↦ "?")).toList ps
      (insertText table columns (ps.map Param.render)).toList := by
  have hwhole := (Binds.text "insert into " (by decide)).append_text (.name htable)
    |>.append_text (.text " (" (by decide))
    |>.append_text (.names hcolumns)
    |>.append_text (.text ") values (" (by decide))
    |>.append_text (binds_commaList hps)
    |>.append_text (.text ")" (by decide))
  rw [List.append_nil] at hwhole
  exact hwhole

theorem spells_insertText {values : List String} (htable : IsName table)
    (hw : Spells (commaList columns) w) (hv : Spells (commaList values) v) :
    Spells (insertText table columns values).toList (insertion table w v) := by
  have hspells := (Spells.keyword "insert" (by decide) (by decide)).blank <|
    (Spells.keyword "into" (by decide) (by decide)).blank <|
    (Spells.name htable).blank <| Spells.nil.mark .leftParen <| hw.mark .rightParen <|
    Spells.nil.blank <| (Spells.keyword "values" (by decide) (by decide)).blank <|
    Spells.nil.mark .leftParen <| hv.mark .rightParen .nil
  rw [← toList_insertText] at hspells
  exact hspells

/-- With literals for values the statement puts the item of the row. -/
theorem sentence_insertion {entries : List (String × AttributeValue)}
    (hw : SepBy Comma Name w (entries.map Prod.fst))
    (hv : SepBy Comma Value v (entries.map Prod.snd)) :
    Sentence (insertion table w v ++ [endSymbol]) (.putItem ⟨table, .ofList entries⟩) := by
  have hinsert : Statement.Grammar.Insert (⟨.keyword, "into"⟩ :: ⟨.identifier, table⟩ ::
      ((⟨.leftParen, "("⟩ :: (w ++ [⟨.rightParen, ")"⟩])) ++ ⟨.keyword, "values"⟩ ::
        (⟨.leftParen, "("⟩ :: (v ++ [⟨.rightParen, ")"⟩]))))
      (.putItem ⟨table, .ofList ((entries.map Prod.fst).zip (entries.map Prod.snd))⟩) :=
    .mk ⟨rfl, by decide⟩ (.mk hw) ⟨rfl, by decide⟩ (.mk hv)
      (by rw [List.length_map, List.length_map])
  have hentries : (entries.map Prod.fst).zip (entries.map Prod.snd) = entries := by
    rw [List.zip_map']
    exact List.map_id entries
  rw [hentries] at hinsert
  have hsentence : Sentence (⟨.keyword, "insert"⟩ :: _) (.putItem ⟨table, .ofList entries⟩) :=
    .insert ⟨rfl, by decide⟩ (.mk hinsert .bare)
  simpa [insertion, List.append_assoc] using hsentence

/-! ## Values of parameters -/

/-- The attribute value that a parameter is written as. -/
inductive Carried : Param → AttributeValue → Prop
  | number {p : Param} (hp : Numeric p) : Carried p (.number p.render)
  | text {p : Param} {text : String} (hp : Textual p text) : Carried p (.string text)

/-- The symbols of a parameter, as an element of a list. -/
inductive Rendered : List Symbol → Param → Prop
  | mk {p : Param} {s : Symbol} (hs : Becomes p s) : Rendered [s] p

/-- An attribute of the row, and the entry of the item that it becomes. -/
def Entered (e : String × Param) (entry : String × AttributeValue) : Prop :=
  entry.1 = e.1 ∧ Carried e.2 entry.2

variable {row : List (String × Param)}

theorem exists_spells_param (p : Param) : ∃ w, Spells p.render.toList w ∧ Rendered w p := by
  obtain ⟨s, hs, hspelled⟩ := exists_becomes p
  exact ⟨[s], fun _ hrest ↦ hspelled hrest.breaks, .mk hs⟩

theorem exists_spells_values (hne : row ≠ []) :
    ∃ v, Spells (commaList (row.map fun e ↦ e.2.render)) v ∧
      SepBy Comma (fun w e ↦ Rendered w e.2) v row := by
  obtain ⟨v, hv, hvalues⟩ := @exists_spells_commaList _ _ (fun e : String × Param ↦ e.2.render) id
    (fun w e ↦ Rendered w e.2) row hne fun e _ ↦ exists_spells_param e.2
  rw [List.map_id] at hvalues
  exact ⟨v, hv, hvalues⟩

/-- All parameters but truth values are written as literals. -/
theorem Rendered.exists_value {p : Param} (h : Rendered w p) (hp : ∀ b, p ≠ .bool b) :
    ∃ value, Value w value ∧ Carried p value := by
  obtain @⟨p, ⟨kind, text⟩, hs⟩ := h
  cases hs with
  | number hp => exact ⟨_, .mk (.number _), .number hp⟩
  | text hkind hp =>
    obtain rfl : kind = .string := hkind
    exact ⟨_, .mk (.string text), .text hp⟩
  | word b => exact absurd rfl (hp b)

theorem exists_entries (h : SepBy Comma (fun w e ↦ Rendered w e.2) v row)
    (hrow : ∀ e ∈ row, ∀ b, e.2 ≠ .bool b) :
    ∃ entries, List.Forall₂ Entered row entries ∧ SepBy Comma Value v (entries.map Prod.snd) := by
  induction h with
  | @one w e he =>
    obtain ⟨value, hvalue, hcarried⟩ := he.exists_value (hrow e List.mem_cons_self)
    exact ⟨[(e.1, value)], .cons ⟨rfl, hcarried⟩ .nil, .one hvalue⟩
  | @more w v s e row he hs _ ih =>
    obtain ⟨value, hvalue, hcarried⟩ := he.exists_value (hrow e List.mem_cons_self)
    obtain ⟨entries, hentered, hvalues⟩ := ih fun e he ↦ hrow e (List.mem_cons_of_mem _ he)
    exact ⟨(e.1, value) :: entries, .cons ⟨rfl, hcarried⟩ hentered, .more hvalue hs hvalues⟩

theorem names_of_entered {entries : List (String × AttributeValue)}
    (h : List.Forall₂ Entered row entries) : entries.map Prod.fst = row.map Prod.fst := by
  induction h with
  | nil => rfl
  | cons he _ ih => rw [List.map_cons, List.map_cons, he.1, ih]

/-! ## Counting -/

/-- One for an identifier, and one less for a literal. -/
def weight (s : Symbol) : ℤ :=
  match s.kind with
  | .identifier => 1
  | .string | .number => -1
  | _ => 0

/-- How many identifiers there are more than literals. -/
def balance (w : List Symbol) : ℤ :=
  (w.map weight).sum

@[simp] theorem balance_nil : balance [] = 0 := rfl

@[simp] theorem balance_cons (s : Symbol) (w : List Symbol) :
    balance (s :: w) = weight s + balance w :=
  List.sum_cons

@[simp] theorem balance_append (w v : List Symbol) : balance (w ++ v) = balance w + balance v := by
  rw [balance, List.map_append, List.sum_append]
  rfl

namespace Statement.Grammar

theorem Keyword.weight_eq {word : String} {s : Symbol} (h : Keyword word s) : weight s = 0 := by
  rw [weight, h.1]

theorem Comma.weight_eq {s : Symbol} (h : Comma s) : weight s = 0 := by
  rw [weight, h]

theorem Name.balance_eq {name : String} (h : Name w name) : balance w = 1 := by
  cases h
  rfl

theorem Value.balance_eq {value : AttributeValue} (h : Value w value) : balance w = -1 := by
  obtain ⟨⟨⟩⟩ := h
  · rfl
  · rfl

theorem SepBy.balance_eq {α : Type} {element : List Symbol → α → Prop} {as : List α} {count : α → ℤ}
    (h : SepBy Comma element w as) (helement : ∀ v a, element v a → balance v = count a) :
    balance w = (as.map count).sum := by
  induction h with
  | one ha => simp [helement _ _ ha]
  | more ha hs _ ih => simp [helement _ _ ha, hs.weight_eq, ih]

theorem Parenthesized.balance_eq {α : Type} {element : List Symbol → α → Prop} {as : List α}
    {n : ℤ} (h : Parenthesized element w as) (helement : ∀ v a, element v a → balance v = n) :
    balance w = as.length * n := by
  obtain @⟨w, as, left, right, has⟩ := h
  have hsum : balance w = (as.map fun _ ↦ n).sum := has.balance_eq helement
  have hleft : weight ⟨.leftParen, left⟩ = 0 := rfl
  have hright : weight ⟨.rightParen, right⟩ = 0 := rfl
  simp [hleft, hright, hsum]

/-- An insertion has one identifier more than it has literals: the name of its table. -/
theorem Insert.balance_eq {r : Request} (h : Insert w r) : balance w = 1 := by
  obtain @⟨k, l, table, w, v, names, values, hk, hnames, hl, hvalues, hlength⟩ := h
  have htable : weight ⟨.identifier, table⟩ = 1 := rfl
  have hcolumns := hnames.balance_eq fun _ _ ↦ Name.balance_eq
  have hliterals := hvalues.balance_eq fun _ _ ↦ Value.balance_eq
  rw [← hlength] at hliterals
  rw [balance_cons, balance_cons, balance_append, balance_cons, hk.weight_eq, hl.weight_eq, htable,
    hcolumns, hliterals]
  omega

theorem Whole.balance_eq {r : Request} (h : Whole Insert w r) : balance w = 1 := by
  obtain ⟨hinsert, hend⟩ := h
  rw [balance_append, hinsert.balance_eq]
  cases hend <;> rfl

end Statement.Grammar

/-- Whether a parameter is a truth value. -/
def isBool : Param → Bool
  | .bool _ => true
  | _ => false

theorem isBool_eq_false {p : Param} {text : String} (h : Textual p text) : isBool p = false := by
  cases h <;> rfl

theorem Rendered.balance_eq {p : Param} (h : Rendered w p) :
    balance w = if isBool p then 1 else -1 := by
  obtain @⟨p, ⟨kind, text⟩, hs⟩ := h
  cases hs with
  | number hp => cases hp <;> rfl
  | text hkind hp =>
    obtain rfl : kind = .string := hkind
    rw [isBool_eq_false hp]
    rfl
  | word b => rfl

/-- A truth value makes up for a literal twice: it is none, and it is an identifier. -/
theorem balance_values (h : SepBy Comma (fun w e ↦ Rendered w e.2) v row) :
    balance v = 2 * row.countP (fun e ↦ isBool e.2) - row.length := by
  have hone (p : Param) :
      (if isBool p then 1 else -1 : ℤ) = 2 * (if isBool p then 1 else 0) - 1 := by
    cases isBool p <;> rfl
  induction h with
  | @one w e he =>
    rw [he.balance_eq, hone, List.countP_singleton]
    simp
  | @more w v s e row he hs _ ih =>
    rw [balance_append, balance_cons, he.balance_eq, hone, hs.weight_eq, ih, List.countP_cons,
      List.length_cons]
    push_cast
    ring

/-- No sentence has a truth value among its values. -/
theorem ne_bool_of_sentence {r : Request} (hw : SepBy Comma Name w (row.map Prod.fst))
    (hv : SepBy Comma (fun w e ↦ Rendered w e.2) v row)
    (h : Sentence (insertion table w v ++ [endSymbol]) r) : ∀ e ∈ row, ∀ b, e.2 ≠ .bool b := by
  have hcolumns : balance w = row.length := by
    rw [hw.balance_eq fun _ _ ↦ Name.balance_eq, List.map_const', List.sum_replicate,
      List.length_map, nsmul_one]
  have hbalance : balance (insertion table w v ++ [endSymbol]) = 1 := by
    rw [insertion, List.cons_append] at h ⊢
    cases h with
    | insert hk hwhole => rw [balance_cons, hk.weight_eq, hwhole.balance_eq, zero_add]
    | select hk | update hk | create hk | delete hk | drop hk => exact absurd hk.2 (by decide)
  have hnone : row.countP (fun e ↦ isBool e.2) = 0 := by
    have hsplit : balance (insertion table w v ++ [endSymbol]) = 1 + balance w + balance v := by
      simp [insertion, weight, endSymbol]
      ring
    rw [hbalance, hcolumns, balance_values hv] at hsplit
    omega
  rintro ⟨name, p⟩ he b rfl
  exact List.countP_eq_zero.mp hnone _ he rfl

/-! ## What is inserted -/

/-- What binding the values of a row comes to. The statement is accepted unless one of them is a
truth value, and then it puts an item that has just the values of the row, in order, under the names
of its columns. -/
structure Inserts (table : String) (row : List (String × Param)) (bound : String) : Prop where
  accepted_iff : (∃ r, Statement.parse bound = .ok r) ↔ ∀ e ∈ row, ∀ b, e.2 ≠ .bool b
  request (r : Request) (h : Statement.parse bound = .ok r) :
    ∃ item, r = .putItem ⟨table, item⟩ ∧ List.Forall₂ Entered row item.entries

/-- The symbols of the statement once the values are bound to it. -/
theorem exists_symbols_of_bind {bound : String} (htable : IsName table)
    (hcolumns : ∀ name ∈ row.map Prod.fst, IsName name) (hne : row ≠ [])
    (h : bind (insertText table (row.map Prod.fst) (row.map fun _ ↦ "?")) (row.map Prod.snd) =
      .ok bound) :
    ∃ w v, symbols (scan bound) = insertion table w v ++ [endSymbol] ∧
      SepBy Comma Name w (row.map Prod.fst) ∧ SepBy Comma (fun w e ↦ Rendered w e.2) v row := by
  have hbinds := binds_insertText htable hcolumns (hasText_of_bind h)
  simp only [List.map_map, Function.comp_def] at hbinds
  obtain rfl := Except.ok.inj (hbinds.bind.symm.trans h)
  obtain ⟨w, hw, hnames⟩ := exists_spells_names (mt List.map_eq_nil_iff.mp hne) hcolumns
  obtain ⟨v, hv, hvalues⟩ := exists_spells_values hne
  have hspells := spells_insertText htable hw hv
  refine ⟨w, v, ?_, hnames, hvalues⟩
  rw [scan, String.toList_ofList]
  exact hspells.spelled_eq

/-- Without a truth value the statement is accepted, for the values of the row. -/
theorem exists_entries_of_symbols {bound : String}
    (hsymbols : symbols (scan bound) = insertion table w v ++ [endSymbol])
    (hw : SepBy Comma Name w (row.map Prod.fst))
    (hv : SepBy Comma (fun w e ↦ Rendered w e.2) v row) (hrow : ∀ e ∈ row, ∀ b, e.2 ≠ .bool b) :
    ∃ entries, List.Forall₂ Entered row entries ∧
      Statement.parse bound = .ok (.putItem ⟨table, .ofList entries⟩) := by
  obtain ⟨entries, hentered, hvalues⟩ := exists_entries hv hrow
  rw [← names_of_entered hentered] at hw
  refine ⟨entries, hentered, Statement.parse_of_sentence ?_⟩
  rw [hsymbols]
  exact sentence_insertion hw hvalues

/-- Whatever the parameters are that are bound to it, the statement that inserts a row of them is
accepted unless one is a truth value, and puts the item of their values. -/
theorem inserts_of_bind {bound : String} (htable : IsName table)
    (hcolumns : ∀ name ∈ row.map Prod.fst, IsName name) (hdistinct : (row.map Prod.fst).Nodup)
    (hne : row ≠ [])
    (h : bind (insertText table (row.map Prod.fst) (row.map fun _ ↦ "?")) (row.map Prod.snd) =
      .ok bound) : Inserts table row bound := by
  obtain ⟨w, v, hsymbols, hw, hv⟩ := exists_symbols_of_bind htable hcolumns hne h
  have hrefused (r : Request) (hr : Statement.parse bound = .ok r) :
      ∀ e ∈ row, ∀ b, e.2 ≠ .bool b := by
    have hsentence := Statement.sentence_of_parse hr
    rw [hsymbols] at hsentence
    exact ne_bool_of_sentence hw hv hsentence
  refine ⟨⟨?_, fun hrow ↦ ?_⟩, fun r hr ↦ ?_⟩
  · rintro ⟨r, hr⟩
    exact hrefused r hr
  · obtain ⟨entries, -, hparse⟩ := exists_entries_of_symbols hsymbols hw hv hrow
    exact ⟨_, hparse⟩
  · obtain ⟨entries, hentered, hparse⟩ :=
      exists_entries_of_symbols hsymbols hw hv (hrefused r hr)
    obtain rfl := Except.ok.inj (hparse.symm.trans hr)
    rw [← names_of_entered hentered] at hdistinct
    refine ⟨_, rfl, ?_⟩
    rwa [NameMap.entries_ofList hdistinct]

/-- A row of an integer, of a fraction, and of bytes that are no text. -/
def threeKinds : List (String × Param) :=
  [("a", .int (-5)), ("b", .float 0.5), ("c", .bytes [0x41, 0xff])]

theorem inserts_of_bind_threeKinds :
    bind "insert into t (a, b, c) values (?, ?, ?)" (threeKinds.map Prod.snd) =
        .ok "insert into t (a, b, c) values (-5, 0.5, \"A\ufffd\")" ∧
      ∃ item, Statement.parse "insert into t (a, b, c) values (-5, 0.5, \"A\ufffd\")" =
          .ok (.putItem ⟨"t", item⟩) ∧ List.Forall₂ Entered threeKinds item.entries := by
  have hnames : ∀ name ∈ threeKinds.map Prod.fst, IsName name := by decide +kernel
  have hdistinct : (threeKinds.map Prod.fst).Nodup := by decide +kernel
  have htext : insertText "t" (threeKinds.map Prod.fst) (threeKinds.map fun _ ↦ "?") =
      "insert into t (a, b, c) values (?, ?, ?)" := by decide +kernel
  have hbound : bind "insert into t (a, b, c) values (?, ?, ?)" (threeKinds.map Prod.snd) =
      .ok "insert into t (a, b, c) values (-5, 0.5, \"A\ufffd\")" := by decide +kernel
  have hinserts := inserts_of_bind (by decide +kernel) hnames hdistinct (List.cons_ne_nil _ _)
    ((congrArg (bind · _) htext).trans hbound)
  obtain ⟨r, hr⟩ := hinserts.accepted_iff.mpr (by simp [threeKinds])
  obtain ⟨item, rfl, hitem⟩ := hinserts.request r hr
  exact ⟨hbound, item, hr, hitem⟩

/-- A truth value is bound, and then the statement is refused for it. -/
theorem inserts_of_bind_not_bool :
    IsName "t" ∧ IsName "c" ∧
      bind (insertText "t" ["c"] ["?"]) [.bool true] = .ok "insert into t (c) values (true)" ∧
      Statement.parse "insert into t (c) values (true)" = .error
        ⟨.unexpectedToken "true" .identifier .literal, "insert into t (c) values (true)"⟩ := by
  decide +kernel

end ItemSql
