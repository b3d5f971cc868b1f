import ItemSql.Proofs.Statement.Query

/-!
# The parser reads the grammar

Each of the six forms is read off its parser. A form goes to the end of the input, so the checks
that are made behind the end of an insertion find nothing left. The first words of the forms differ,
so the choice among them is the choice of the grammar.
-/

namespace ItemSql.Statement

open Token ItemSql.Parser Grammar

variable {v w : List Symbol}

theorem Grammar.Ending.follows_any (h : Ending w) : Follows Any w :=
  (h.follows []).imp fun _ _ ↦ trivial

/-! ## Items -/

private theorem reads_names : Reads (parenthesized identifier) (Parenthesized Name) Any :=
  reads_parenthesized reads_identifier (fun _ _ ↦ trivial) fun _ _ ↦ trivial

private theorem reads_values : Reads (parenthesized literal) (Parenthesized Value) Any :=
  reads_parenthesized reads_literal (fun _ _ ↦ trivial) fun _ _ ↦ trivial

theorem ends_insert : Ends insert (Whole Insert) := by
  have hvalues (table : String) (names : List String) := reads_values.ends_bind
    (fun values ↦ ends_finish (if names.length = values.length then
        pure (Request.putItem ⟨table, .ofList (names.zip values)⟩)
      else fail (.columnCountMismatch names.length values.length)))
    fun _ _ _ h ↦ h.1.follows_any
  have hnames (table : String) := reads_names.ends_bind
    (fun names ↦ (takes_expectKeyword "values").ends_bind fun _ ↦ hvalues table names) (by
      rintro _ _ _ ⟨_, _, _, rfl, -⟩
      exact follows_cons trivial)
  refine ((takes_expectKeyword "into").ends_bind fun _ ↦
    takes_identifier.ends_bind hnames).congr fun w r ↦ ?_
  constructor
  · rintro ⟨k, _, _, rfl, hk, _, table, _, rfl, rfl, u, names, _, rfl, hnames, l, _, _, rfl, hl, v,
      values, e, rfl, hvalues, he, rest, hdone⟩
    -- The lengths are compared behind the end, where a failure can only reject the whole.
    by_cases hlength : names.length = values.length
    · rw [if_pos hlength] at hdone
      obtain ⟨rfl, -⟩ := Outcome.done.inj hdone
      have hinsert : Insert _ (.putItem ⟨table, _⟩) := .mk hk hnames hl hvalues hlength
      have hwhole := Whole.mk hinsert he
      simpa only [List.append_assoc, List.cons_append] using hwhole
    · rw [if_neg hlength] at hdone
      cases hdone
  · rintro ⟨⟨hk, hnames, hl, hvalues, hlength⟩, he⟩
    refine ⟨_, (), _, rfl, hk, _, _, _, rfl, rfl, _, _, _, List.append_assoc _ _ _, hnames, _, (),
      _, rfl, hl, _, _, _, rfl, hvalues, he, [], ?_⟩
    rw [if_pos hlength]
    rfl

theorem ends_update : Ends update (Whole Update) := by
  have hkey (table : String) (updates : List Expression) :=
    (tests_conjunction.reads_chain reads_assignment fun _ _ ↦ trivial).ends_bind
      (fun key ↦ ends_finish_pure (Request.updateItem
        ⟨table, Expression.key key, Expression.updates updates⟩))
      fun _ _ _ h ↦ (h.1.follows []).imp fun _ hs ↦
        ⟨trivial, hs.not_conjunction List.not_mem_nil List.not_mem_nil⟩
  have hupdates (table : String) :=
    ((tests_kind .comma (by decide)).reads_chain reads_assignment
      fun _ _ ↦ trivial).ends_bind
        (fun updates ↦ (takes_expectKeyword "where").ends_bind fun _ ↦ hkey table updates) (by
          rintro _ _ _ ⟨_, _, _, rfl, hl, -⟩
          exact follows_cons ⟨trivial, hl.kind_ne (by decide)⟩)
  refine Ends.congr (takes_identifier.ends_bind fun table ↦ (takes_expectKeyword "set").ends_bind
    fun _ ↦ hupdates table) fun w r ↦ ?_
  constructor
  · rintro ⟨_, table, _, rfl, rfl, k, _, _, rfl, hk, u, updates, _, rfl, hupdates, l, _, _, rfl, hl,
      v, key, e, rfl, hkey, he, rfl⟩
    have hupdate : Update _ (.updateItem ⟨table, _, _⟩) := .mk hk hupdates hl hkey
    have hwhole := Whole.mk hupdate he
    simpa only [List.append_assoc, List.cons_append] using hwhole
  · rintro ⟨⟨hk, hupdates, hl, hkey⟩, he⟩
    exact ⟨_, _, _, rfl, rfl, _, (), _, rfl, hk, _, _, _, List.append_assoc _ _ _, hupdates, _, (),
      _, rfl, hl, _, _, _, rfl, hkey, he, rfl⟩

theorem ends_delete : Ends delete (Whole Delete) := by
  have hkey (table : String) :=
    ((tests_keyword "and").reads_chain reads_assignment fun _ _ ↦ trivial).ends_bind
      (fun key ↦ ends_finish_pure (Request.deleteItem ⟨table, Expression.key key⟩))
      fun _ _ _ h ↦ (h.1.not_keyword "and").imp fun _ hs ↦ ⟨trivial, hs⟩
  refine Ends.congr ((takes_expectKeyword "from").ends_bind fun _ ↦ takes_identifier.ends_bind
    fun table ↦ (takes_expectKeyword "where").ends_bind fun _ ↦ hkey table) fun w r ↦ ?_
  constructor
  · rintro ⟨k, _, _, rfl, hk, _, table, _, rfl, rfl, l, _, _, rfl, hl, v, key, e, rfl, hkey, he,
      rfl⟩
    have hdelete : Delete _ (.deleteItem ⟨table, _⟩) := .mk hk hl hkey
    exact .mk hdelete he
  · rintro ⟨⟨hk, hl, hkey⟩, he⟩
    exact ⟨_, (), _, rfl, hk, _, _, _, rfl, rfl, _, (), _, rfl, hl, _, _, _, rfl, hkey, he, rfl⟩

/-! ## Tables -/

theorem ends_drop : Ends drop (Whole Drop) := by
  refine Ends.congr ((takes_expectKeyword "table").ends_bind fun _ ↦ takes_identifier.ends_bind
    fun table ↦ ends_finish_pure (Request.deleteTable ⟨table⟩)) fun w r ↦ ?_
  constructor
  · rintro ⟨k, _, _, rfl, hk, _, table, e, rfl, rfl, he, rfl⟩
    have hdrop : Drop _ (.deleteTable ⟨table⟩) := .mk hk
    exact .mk hdrop he
  · rintro ⟨⟨hk⟩, he⟩
    exact ⟨_, (), _, rfl, hk, _, _, _, rfl, rfl, he, rfl⟩

theorem takes_typeWord : Takes typeWord fun s type ↦
    s.kind = .typeName ∧ AttributeType.ofWord? s.text = some type := by
  refine takes_next (fun t ts type rest _ ↦ ?_) (fun offset type rest ↦ ?_) fun type h ↦ ?_
  · by_cases h : t.kind = .typeName
    · rw [if_pos h]
      cases htype : AttributeType.ofWord? t.text with
      | some type' => simp [Token.symbol, h, htype, eq_comm (a := ts), eq_comm (a := type')]
      | none => simp [Token.symbol, htype, unexpected, fail]
    · rw [if_neg h]
      simp [Token.symbol, h, unexpected, fail]
  · simp [unexpected, fail]
  · cases h.1

private theorem tests_constraint :
    Tests (fun t ↦ t.kind = .constraint) fun s ↦ s.kind = .constraint where
  iff _ := Iff.rfl
  not_end h := by cases h

theorem reads_keyConstraint : Reads keyConstraint
    (fun w type? ↦ (∃ s type, w = [s] ∧ s.kind = .constraint ∧
      KeyType.ofConstraint? s.text = some type ∧ type? = some type) ∨ w = [] ∧ type? = none)
    fun s ↦ s.kind ≠ .constraint := by
  refine Reads.congr (tests_constraint.reads_ifNext (Y := fun s w type? ↦ w = [] ∧ ∃ type,
    KeyType.ofConstraint? s.text = some type ∧ type? = some type) (fun t ↦ ?_) (reads_pure none)
    fun v _ rest hv hrest ↦ by rw [hv.1]; exact hrest) fun w type? ↦ ?_
  · rw [Token.symbol]
    cases KeyType.ofConstraint? t.text with
    | none => exact (reads_fail _).congr (by simp)
    | some type => exact (reads_pure _).congr (by simp)
  · constructor
    · rintro (⟨s, _, rfl, hs, rfl, type, htype⟩ | h)
      · exact .inl ⟨s, type, rfl, hs, htype⟩
      · exact .inr h
    · rintro (⟨s, type, rfl, hs, htype⟩ | h)
      · exact .inl ⟨s, [], rfl, hs, rfl, type, htype⟩
      · exact .inr h

theorem reads_declaration : Reads declaration Declared fun s ↦ s.kind ≠ .constraint := by
  have hkey (name : String) (type : AttributeType) := reads_keyConstraint.map
    fun keyType? ↦ Declaration.mk ⟨name, type⟩ (keyType?.map fun keyType ↦ ⟨name, keyType⟩)
  refine Reads.congr (takes_identifier.bind fun name ↦ takes_typeWord.bind fun type ↦
    hkey name type) fun w d ↦ ?_
  constructor
  · rintro ⟨_, name, _, rfl, rfl, ⟨_, word⟩, type, _, rfl, ⟨rfl, htype⟩, _, hu, rfl⟩
    rcases hu with ⟨⟨_, constraint⟩, keyType, rfl, rfl, hkey, rfl⟩ | ⟨rfl, rfl⟩
    · exact .key htype hkey
    · exact .plain htype
  · intro h
    cases h with
    | plain htype =>
      exact ⟨_, _, _, rfl, rfl, _, _, _, rfl, ⟨rfl, htype⟩, none, .inr ⟨rfl, rfl⟩, rfl⟩
    | key htype hkey =>
      exact ⟨_, _, _, rfl, rfl, _, _, _, rfl, ⟨rfl, htype⟩, _, .inl ⟨_, _, rfl, rfl, hkey, rfl⟩,
        rfl⟩

/-- What a number does to the throughput depends on the name in front of it. -/
private def Changes (name : String) (units : Int64)
    (change : ProvisionedThroughput → ProvisionedThroughput) : Prop :=
  (Text.lowerAscii name = "read" ∧ change = fun p ↦ { p with readCapacityUnits := units }) ∨
    (Text.lowerAscii name = "write" ∧ change = fun p ↦ { p with writeCapacityUnits := units })

private theorem takes_units (name : String) : Takes (do
      let t ← next
      match Decimal.int64? t.text with
      | none => fail (.invalidThroughput name t.text)
      | some units =>
        if Text.lowerAscii name = "read" then return fun p ↦ { p with readCapacityUnits := units }
        else if Text.lowerAscii name = "write" then
          return fun p ↦ { p with writeCapacityUnits := units }
        else fail (.invalidThroughput name t.text))
    (fun s change ↦ ∃ units, Decimal.int64? s.text = some units ∧ Changes name units change) := by
  have hempty : Decimal.int64? "" = none := rfl
  refine takes_next (fun t ts change rest _ ↦ ?_) (fun offset change rest ↦ ?_) fun change h ↦ ?_
  · rw [Token.symbol]
    cases Decimal.int64? t.text with
    | none => simp [fail]
    | some units =>
      by_cases hread : Text.lowerAscii name = "read"
      · simp [Changes, hread, eq_comm (a := ts), eq_comm (a := change)]
      · by_cases hwrite : Text.lowerAscii name = "write"
        · simp [Changes, hwrite, eq_comm (a := ts), eq_comm (a := change)]
        · simp [Changes, hread, hwrite, fail]
  · simp [hempty, fail]
  · obtain ⟨units, hunits, -⟩ := h
    cases hempty.symm.trans hunits

theorem reads_capacity : Reads capacity Capacity Any := by
  refine (takes_identifier.bind fun name ↦ takes_equals.bind fun _ ↦
    (takes_units name).reads).congr_of_isCut fun w change hcut ↦ ?_
  constructor
  · rintro ⟨_, name, _, rfl, rfl, _, _, _, rfl, rfl, ⟨kind, text⟩, rfl, units, hunits, hchange⟩
    have hs : Symbol.IsCut ⟨kind, text⟩ := hcut _ (by simp)
    obtain ⟨z, hz, -⟩ := Option.bind_eq_some_iff.mp hunits
    obtain rfl : kind = .number := hs.kind_eq_number hz
    obtain ⟨z, hz, hlow, hhigh, rfl⟩ := (Decimal.int64?_eq_some_iff (hs.number_head rfl)).mp hunits
    rcases hchange with ⟨hname, rfl⟩ | ⟨hname, rfl⟩
    · exact .read hname hz hlow hhigh
    · exact .write hname hz hlow hhigh
  · intro h
    cases h with
    | @read name text z hname hz hlow hhigh =>
      have hs : Symbol.IsCut ⟨.number, text⟩ := hcut _ (by simp)
      have hunits := (Decimal.int64?_eq_some_iff (hs.number_head rfl)).mpr ⟨z, hz, hlow, hhigh, rfl⟩
      exact ⟨_, _, _, rfl, rfl, _, (), _, rfl, rfl, _, rfl, _, hunits, .inl ⟨hname, rfl⟩⟩
    | @write name text z hname hz hlow hhigh =>
      have hs : Symbol.IsCut ⟨.number, text⟩ := hcut _ (by simp)
      have hunits := (Decimal.int64?_eq_some_iff (hs.number_head rfl)).mpr ⟨z, hz, hlow, hhigh, rfl⟩
      exact ⟨_, _, _, rfl, rfl, _, (), _, rfl, rfl, _, rfl, _, hunits, .inr ⟨hname, rfl⟩⟩

theorem reads_throughput : Reads throughput Throughput fun s ↦ ¬ Keyword "with" s := by
  have hparenthesized : Reads (parenthesized capacity) (Parenthesized Capacity) Any :=
    reads_parenthesized reads_capacity (fun _ _ ↦ trivial) fun _ _ ↦ trivial
  have hchanges := (hparenthesized.map fun changes ↦
    changes.foldl (fun p change ↦ change p) ({} : ProvisionedThroughput)).mono
      (G := fun s ↦ ¬ Keyword "with" s) fun _ _ ↦ trivial
  refine Reads.congr ((tests_keyword "with").reads_optional hchanges {} fun _ hs ↦ hs)
    fun w p ↦ ?_
  constructor
  · rintro (⟨k, _, rfl, hk, changes, hw, rfl⟩ | ⟨rfl, rfl⟩)
    · exact .asked hk hw
    · exact .unsaid
  · intro h
    cases h with
    | unsaid => exact .inr ⟨rfl, rfl⟩
    | asked hk hw => exact .inl ⟨_, _, rfl, hk, _, hw, rfl⟩

theorem ends_create : Ends create (Whole Create) := by
  have hthroughput (table : String) (declarations : List Declaration) :=
    reads_throughput.ends_bind (fun throughput ↦ ends_finish_pure (Request.createTable
      ⟨table, declarations.map (·.definition), declarations.filterMap (·.key?), throughput⟩))
      fun _ _ _ h ↦ h.1.not_keyword "with"
  have hdeclarations (table : String) :=
    (reads_parenthesized reads_declaration (fun s hs hs' ↦ by cases hs.symm.trans hs')
      (fun s hs hs' ↦ by cases hs.symm.trans hs')).ends_bind (hthroughput table) (by
        rintro _ _ _ ⟨u, throughput, v, rfl, hu, he, -⟩
        cases hu with
        | unsaid => exact he.follows_any
        | asked => exact follows_cons trivial)
  refine Ends.congr ((takes_expectKeyword "table").ends_bind fun _ ↦
    takes_identifier.ends_bind hdeclarations) fun w r ↦ ?_
  constructor
  · rintro ⟨k, _, _, rfl, hk, _, table, _, rfl, rfl, u, declarations, _, rfl, hu, v, throughput, e,
      rfl, hv, he, rfl⟩
    have hcreate : Create _ (.createTable ⟨table, _, _, _⟩) := .mk hk hu hv
    have hwhole := Whole.mk hcreate he
    simpa only [List.append_assoc, List.cons_append] using hwhole
  · rintro ⟨⟨hk, hu, hv⟩, he⟩
    exact ⟨_, (), _, rfl, hk, _, _, _, rfl, rfl, _, _, _, List.append_assoc _ _ _, hu, _, _, _, rfl,
      hv, he, rfl⟩

/-! ## Statements -/

/-- A choice among forms by the first word, which is one of these. -/
private structure Chooses (form : Token → Parser Request) (words : List String)
    (R : List Symbol → Request → Prop) : Prop where
  ends : Ends (next >>= form) R
  head {w : List Symbol} {r : Request} (h : R w r) :
    ∃ word ∈ words, ∃ k v, w = k :: v ∧ Keyword word k

private theorem chooses_nothing :
    Chooses (fun t ↦ fail (.unknownStatement t.text)) [] fun _ _ ↦ False where
  ends ts r _ := by
    constructor
    · rintro ⟨rest, h⟩
      cases ts <;> cases h
    · exact False.elim
  head h := h.elim

/-- A word that is not among the others chooses one more form. -/
private theorem Chooses.more {form : Token → Parser Request} {words : List String}
    {R Q : List Symbol → Request → Prop} {p : Parser Request} (h : Chooses form words R)
    (word : String) (hp : Ends p Q) (hword : word ∉ words) :
    Chooses (fun t ↦ if isKeyword t word then p else form t) (word :: words)
      fun w r ↦ (∃ k v, w = k :: v ∧ Keyword word k ∧ Q v r) ∨ R w r where
  ends ts r hts := by
    have hform := h.ends hts (a := r)
    obtain ⟨t, us, rfl⟩ := List.exists_cons_of_ne_nil hts.ne_nil
    by_cases hk : isKeyword t word = true
    · -- A keyword is not the end of the input, so the form is read from a scanned list.
      have hus : Scanned us := by
        cases hts with
        | last => cases hk
        | cons _ hus => exact hus
      have hstep : (next >>= fun t ↦ if isKeyword t word then p else form t) (t :: us) = p us := by
        change (if isKeyword t word then p else form t) us = p us
        rw [if_pos hk]
      rw [isKeyword_iff] at hk
      rw [hstep]
      refine (hp hus).trans ?_
      constructor
      · intro hQ
        exact .inl ⟨_, _, rfl, hk, hQ⟩
      · rintro (⟨k, v, hw, -, hQ⟩ | hR)
        · obtain ⟨rfl, rfl⟩ := List.cons.inj hw
          exact hQ
        · obtain ⟨word', hword', k, v, hw, hk'⟩ := h.head hR
          obtain ⟨rfl, rfl⟩ := List.cons.inj hw
          exact absurd (hk.eq hk' ▸ hword') hword
    · have hstep : (next >>= fun t ↦ if isKeyword t word then p else form t) (t :: us) =
          (next >>= form) (t :: us) := by
        change (if isKeyword t word then p else form t) us = form t us
        rw [if_neg hk]
      rw [isKeyword_iff] at hk
      rw [hstep]
      refine hform.trans ?_
      constructor
      · exact .inr
      · rintro (⟨k, v, hw, hk', -⟩ | hR)
        · obtain ⟨rfl, -⟩ := List.cons.inj hw
          exact absurd hk' hk
        · exact hR
  head := by
    rintro w r (⟨k, v, rfl, hk, -⟩ | hR)
    · exact ⟨word, List.mem_cons_self, k, v, rfl, hk⟩
    · obtain ⟨word', hword', hhead⟩ := h.head hR
      exact ⟨word', List.mem_cons_of_mem _ hword', hhead⟩

theorem ends_statement : Ends statement Sentence := by
  have hchooses := (((((chooses_nothing.more "drop" ends_drop (by decide)).more
    "delete" ends_delete (by decide)).more "create" ends_create (by decide)).more
    "update" ends_update (by decide)).more "insert" ends_insert (by decide)).more
    "select" ends_select (by decide)
  refine hchooses.ends.congr fun w r ↦ ?_
  constructor
  · rintro (⟨k, v, rfl, hk, h⟩ | ⟨k, v, rfl, hk, h⟩ | ⟨k, v, rfl, hk, h⟩ | ⟨k, v, rfl, hk, h⟩ |
      ⟨k, v, rfl, hk, h⟩ | ⟨k, v, rfl, hk, h⟩ | ⟨⟨⟩⟩)
    · exact .select hk h
    · exact .insert hk h
    · exact .update hk h
    · exact .create hk h
    · exact .delete hk h
    · exact .drop hk h
  · rintro (⟨hk, h⟩ | ⟨hk, h⟩ | ⟨hk, h⟩ | ⟨hk, h⟩ | ⟨hk, h⟩ | ⟨hk, h⟩)
    · exact .inl ⟨_, _, rfl, hk, h⟩
    · exact .inr (.inl ⟨_, _, rfl, hk, h⟩)
    · exact .inr (.inr (.inl ⟨_, _, rfl, hk, h⟩))
    · exact .inr (.inr (.inr (.inl ⟨_, _, rfl, hk, h⟩)))
    · exact .inr (.inr (.inr (.inr (.inl ⟨_, _, rfl, hk, h⟩))))
    · exact .inr (.inr (.inr (.inr (.inr (.inl ⟨_, _, rfl, hk, h⟩)))))

theorem parse_eq_ok_iff {source : String} {r : Request} :
    parse source = .ok r ↔ ∃ rest, statement (scan source) = .done r rest := by
  rw [parse]
  cases statement (scan source) with
  | done r' rest => simp
  | failed cause rest => simp

theorem sentence_of_parse {source : String} {r : Request} (h : parse source = .ok r) :
    Sentence (symbols (scan source)) r :=
  (ends_statement (scanned_scan source)).mp (parse_eq_ok_iff.mp h)

theorem parse_of_sentence {source : String} {r : Request}
    (h : Sentence (symbols (scan source)) r) : parse source = .ok r :=
  parse_eq_ok_iff.mpr ((ends_statement (scanned_scan source)).mpr h)

/-- A text parses to a request exactly if its symbols are a sentence of the grammar and the request
is what the sentence denotes. -/
theorem parse_eq_ok_iff_sentence (source : String) (r : Request) :
    parse source = .ok r ↔ Sentence (symbols (scan source)) r :=
  parse_eq_ok_iff.trans (ends_statement (scanned_scan source))

/-- However a text is derived, it denotes one request. -/
theorem sentence_unique {source : String} {r r' : Request}
    (h : Sentence (symbols (scan source)) r) (h' : Sentence (symbols (scan source)) r') :
    r = r' := by
  obtain ⟨rest, hr⟩ := (ends_statement (scanned_scan source)).mpr h
  obtain ⟨rest', hr'⟩ := (ends_statement (scanned_scan source)).mpr h'
  obtain ⟨heq, -⟩ := Outcome.done.inj (hr.symm.trans hr')
  exact heq

end ItemSql.Statement
