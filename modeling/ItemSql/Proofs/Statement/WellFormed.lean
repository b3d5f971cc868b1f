import ItemSql.Proofs.Statement.Selection
import ItemSql.Proofs.Statement.Spelling
import ItemSql.Proofs.Token.Numeral

/-!
# Requests of a text

A request that is parsed is *well formed*: its names are identifiers of the text, its values are
strings and numerals, and no part that the store needs is missing. Apart from the limit of a query,
the parser checks none of this. The names and the values come from symbols of the text and from
nowhere else, which is shown along the grammar; what a symbol of their class looks like is up to the
scanner.
-/

namespace ItemSql

open Token (Symbol symbols scan)

/-! ## Parts of a request -/

namespace Request

/-- Everything a request names: its table, and attributes in every place where they are named. -/
def names : Request → List String
  | .query p => p.tableName :: (p.attributesToGet ++ p.conditions.names)
  | .putItem p => p.tableName :: p.item.names
  | .updateItem p => p.tableName :: (p.key.names ++ p.updates.names)
  | .deleteItem p => p.tableName :: p.key.names
  | .createTable p =>
    p.tableName :: (p.definitions.map (·.attributeName) ++ p.keySchema.map (·.attributeName))
  | .deleteTable p => [p.tableName]

/-- Every value in a request. -/
def values : Request → List AttributeValue
  | .query p => p.conditions.entries.flatMap (·.2.values)
  | .putItem p => p.item.entries.map (·.2)
  | .updateItem p => p.key.entries.map (·.2) ++ p.updates.entries.filterMap (·.2.value?)
  | .deleteItem p => p.key.entries.map (·.2)
  | .createTable _ => []
  | .deleteTable _ => []

/-- No part that the store needs is missing. -/
def Complete : Request → Prop
  | .query p =>
    (∀ name c, (name, c) ∈ p.conditions.entries → c.values ≠ []) ∧
      ∀ n, p.limit? = some n → 0 ≤ n.toInt ∧ n.toInt ≤ 2147483647
  | .putItem p => p.item.entries ≠ []
  | .updateItem p =>
    p.key.entries ≠ [] ∧ p.updates.entries ≠ [] ∧
      ∀ name u, (name, u) ∈ p.updates.entries → u.value? ≠ none ∧ u.action? = some .put
  | .deleteItem p => p.key.entries ≠ []
  | .createTable p =>
    p.definitions ≠ [] ∧
      (p.keySchema.map (·.attributeName)).Sublist (p.definitions.map (·.attributeName))
  | .deleteTable _ => True

end Request

/-! ## Where the parts come from -/

namespace Statement.Grammar

variable {w v : List Symbol}

/-- The names are identifiers among the symbols, and the values are literals among them. -/
structure Drawn (w : List Symbol) (names : List String) (values : List AttributeValue) : Prop where
  names : ∀ name ∈ names, ⟨.identifier, name⟩ ∈ w
  values : ∀ value ∈ values, ∃ s ∈ w, Literal s value

theorem Drawn.mono {names names' : List String} {values values' : List AttributeValue}
    (h : Drawn w names values) (hw : w ⊆ v) (hnames : names' ⊆ names)
    (hvalues : values' ⊆ values) : Drawn v names' values' := by
  refine ⟨fun name hname ↦ hw (h.names name (hnames hname)), fun value hvalue ↦ ?_⟩
  obtain ⟨s, hs, hliteral⟩ := h.values value (hvalues hvalue)
  exact ⟨s, hw hs, hliteral⟩

theorem SepBy.ne_nil {α : Type} {separator : Symbol → Prop} {element : List Symbol → α → Prop}
    {as : List α} (h : SepBy separator element w as) : as ≠ [] := by
  cases h <;> exact List.cons_ne_nil _ _

/-- What is drawn for each element is drawn for the list. -/
theorem SepBy.drawn {α : Type} {separator : Symbol → Prop} {element : List Symbol → α → Prop}
    {as : List α} {names : α → List String} {values : α → List AttributeValue}
    (h : SepBy separator element w as)
    (helement : ∀ v a, element v a → Drawn v (names a) (values a)) :
    Drawn w (as.flatMap names) (as.flatMap values) := by
  constructor
  · intro name hname
    obtain ⟨a, ha, hname⟩ := List.mem_flatMap.mp hname
    obtain ⟨v, hv, hsubset⟩ := h.exists_of_mem ha
    exact hsubset ((helement v a hv).names name hname)
  · intro value hvalue
    obtain ⟨a, ha, hvalue⟩ := List.mem_flatMap.mp hvalue
    obtain ⟨v, hv, hsubset⟩ := h.exists_of_mem ha
    obtain ⟨s, hs, hliteral⟩ := (helement v a hv).values value hvalue
    exact ⟨s, hsubset hs, hliteral⟩

theorem Parenthesized.ne_nil {α : Type} {element : List Symbol → α → Prop} {as : List α}
    (h : Parenthesized element w as) : as ≠ [] := by
  obtain ⟨has⟩ := h
  exact has.ne_nil

theorem Parenthesized.exists_of_mem {α : Type} {element : List Symbol → α → Prop} {as : List α}
    {a : α} (h : Parenthesized element w as) (ha : a ∈ as) : ∃ v, element v a ∧ v ⊆ w := by
  obtain ⟨has⟩ := h
  obtain ⟨v, hv, hsubset⟩ := has.exists_of_mem ha
  exact ⟨v, hv, fun s hs ↦ by simp [hsubset hs]⟩

theorem Parenthesized.drawn {α : Type} {element : List Symbol → α → Prop} {as : List α}
    {names : α → List String} {values : α → List AttributeValue} (h : Parenthesized element w as)
    (helement : ∀ v a, element v a → Drawn v (names a) (values a)) :
    Drawn w (as.flatMap names) (as.flatMap values) := by
  obtain ⟨has⟩ := h
  exact (has.drawn helement).mono (by simp) (List.Subset.refl _) (List.Subset.refl _)

theorem Name.drawn {name : String} (h : Name w name) : Drawn w [name] [] := by
  obtain ⟨name⟩ := h
  exact ⟨by simp, by simp⟩

theorem Value.drawn {value : AttributeValue} (h : Value w value) : Drawn w [] [value] := by
  obtain ⟨hs⟩ := h
  exact ⟨by simp, by simpa using hs⟩

theorem Comparison.drawn {e : Expression} (h : Comparison w e) : Drawn w [e.name] e.values := by
  cases h with
  | sign _ hs => exact ⟨by simp, by simp [hs]⟩
  | between _ hlow hhigh => exact ⟨by simp, by simp [hlow, hhigh]⟩

theorem Assignment.drawn {e : Expression} (h : Assignment w e) : Drawn w [e.name] e.values := by
  obtain ⟨hs⟩ := h
  exact ⟨by simp, by simp [hs]⟩

theorem Assignment.values_ne_nil {e : Expression} (h : Assignment w e) : e.values ≠ [] := by
  obtain ⟨-⟩ := h
  exact List.cons_ne_nil _ _

theorem Declared.drawn {d : Declaration} (h : Declared w d) :
    Drawn w [d.definition.attributeName] [] := by
  cases h <;> exact ⟨by simp, by simp⟩

/-! ### Clauses -/

theorem Columns.drawn {names : List String} (h : Columns w names) : Drawn w names [] := by
  cases h with
  | all => exact ⟨by simp, by simp⟩
  | unsaid => exact ⟨by simp, by simp⟩
  | listed hw => exact (hw.drawn fun _ _ h ↦ h.drawn).mono (fun _ h ↦ h) (by simp) (by simp)

theorem Where.drawn {conditions : NameMap Condition} (h : Where w conditions) :
    Drawn w conditions.names (conditions.entries.flatMap (·.2.values)) := by
  cases h with
  | unsaid => exact ⟨nofun, nofun⟩
  | clause hk hw =>
    refine (hw.drawn fun _ _ h ↦ h.drawn).mono (List.subset_cons_self _ _) ?_ ?_
    · intro name hname
      obtain ⟨e, he, rfl⟩ := List.mem_map.mp (Expression.names_conditions_subset hname)
      exact List.mem_flatMap.mpr ⟨e, he, List.mem_cons_self⟩
    · intro value hvalue
      obtain ⟨⟨name, c⟩, hc, hvalue⟩ := List.mem_flatMap.mp hvalue
      obtain ⟨e, he, hvalue⟩ := Expression.exists_of_mem_values hc hvalue
      exact List.mem_flatMap.mpr ⟨e, he, hvalue⟩

theorem Where.values_ne_nil {conditions : NameMap Condition} (h : Where w conditions)
    {name : String} {c : Condition} (hc : (name, c) ∈ conditions.entries) : c.values ≠ [] := by
  cases h with
  | unsaid => exact absurd hc List.not_mem_nil
  | clause hk hw =>
    refine Expression.values_ne_nil_of_mem hc fun e he ↦ ?_
    obtain ⟨v, hv, -⟩ := hw.exists_of_mem he
    exact hv.values_ne_nil

theorem Limit.bounds {n : Int32} (h : Limit w (.some n)) : 0 ≤ n.toInt ∧ n.toInt ≤ 2147483647 := by
  cases h with
  | some hk htext hlow hhigh =>
    have hmin : Int32.minValue.toInt ≤ 0 := by decide
    rw [Int32.toInt_ofInt_of_le (Int.le_trans hmin hlow) (Int.lt_add_one_of_le hhigh)]
    exact ⟨hlow, hhigh⟩

variable {α : Type} {separator : Symbol → Prop} {f : AttributeValue → α} {clause : List Expression}

/-- What the assignments give is there, and their names are drawn. -/
theorem SepBy.given (h : SepBy separator Assignment w clause) :
    (NameMap.ofList (Expression.given f clause)).entries ≠ [] ∧
      ∀ name a, (name, a) ∈ (NameMap.ofList (Expression.given f clause)).entries →
        ⟨.identifier, name⟩ ∈ w ∧ ∃ value, f value = a ∧ ∃ s ∈ w, Literal s value := by
  have hdrawn := h.drawn fun _ _ h ↦ h.drawn
  constructor
  · refine NameMap.entries_ofList_ne_nil (Expression.given_ne_nil h.ne_nil fun e he ↦ ?_)
    obtain ⟨v, hv, -⟩ := h.exists_of_mem he
    exact hv.values_ne_nil
  · intro name a hmem
    obtain ⟨e, he, rfl, value, hvalue, ha⟩ :=
      Expression.exists_of_mem_given (NameMap.mem_of_mem_entries_ofList hmem)
    exact ⟨hdrawn.names _ (List.mem_flatMap.mpr ⟨e, he, List.mem_cons_self⟩), value, ha,
      hdrawn.values _ (List.mem_flatMap.mpr ⟨e, he, hvalue⟩)⟩

theorem SepBy.drawn_key (h : SepBy separator Assignment w clause) :
    (Expression.key clause).entries ≠ [] ∧
      Drawn w (Expression.key clause).names ((Expression.key clause).entries.map (·.2)) := by
  rw [Expression.key_eq_ofList]
  obtain ⟨hne, hgiven⟩ := h.given (f := id)
  refine ⟨hne, fun name hname ↦ ?_, fun value hvalue ↦ ?_⟩
  · obtain ⟨⟨_, value⟩, hmem, rfl⟩ := List.mem_map.mp hname
    exact (hgiven _ _ hmem).1
  · obtain ⟨⟨name, _⟩, hmem, rfl⟩ := List.mem_map.mp hvalue
    obtain ⟨-, value, rfl, hliteral⟩ := hgiven _ _ hmem
    exact hliteral

theorem SepBy.drawn_updates (h : SepBy separator Assignment w clause) :
    (Expression.updates clause).entries ≠ [] ∧
      Drawn w (Expression.updates clause).names
        ((Expression.updates clause).entries.filterMap (·.2.value?)) ∧
      ∀ name u, (name, u) ∈ (Expression.updates clause).entries →
        u.value? ≠ none ∧ u.action? = some .put := by
  rw [Expression.updates_eq_ofList]
  obtain ⟨hne, hgiven⟩ := h.given (f := AttributeUpdate.put)
  refine ⟨hne, ⟨fun name hname ↦ ?_, fun value hvalue ↦ ?_⟩, fun name u hmem ↦ ?_⟩
  · obtain ⟨⟨_, u⟩, hmem, rfl⟩ := List.mem_map.mp hname
    exact (hgiven _ _ hmem).1
  · obtain ⟨⟨name, u⟩, hmem, hvalue⟩ := List.mem_filterMap.mp hvalue
    obtain ⟨-, value', rfl, hliteral⟩ := hgiven _ _ hmem
    exact Option.some.inj hvalue ▸ hliteral
  · obtain ⟨-, value, rfl, -⟩ := hgiven _ _ hmem
    exact ⟨Option.some_ne_none value, rfl⟩

/-! ### Statements -/

/-- The parts of a request are drawn from the symbols, and none is missing. -/
structure Makes (w : List Symbol) (r : Request) : Prop where
  drawn : Drawn w r.names r.values
  complete : r.Complete

variable {r : Request}

theorem Drawn.cons {name : String} {names : List String} {values : List AttributeValue}
    (h : Drawn w names values) (hname : ⟨.identifier, name⟩ ∈ w) : Drawn w (name :: names) values :=
  ⟨List.forall_mem_cons.mpr ⟨hname, h.names⟩, h.values⟩

theorem Drawn.append {names names' : List String} {values values' : List AttributeValue}
    (h : Drawn w names values) (h' : Drawn w names' values') :
    Drawn w (names ++ names') (values ++ values') :=
  ⟨List.forall_mem_append.mpr ⟨h.names, h'.names⟩, List.forall_mem_append.mpr ⟨h.values, h'.values⟩⟩

theorem Drawn.within {names : List String} {values : List AttributeValue}
    (h : Drawn w names values) (hw : w ⊆ v) : Drawn v names values :=
  h.mono hw (List.Subset.refl _) (List.Subset.refl _)

theorem Select.makes (h : Select w r) : Makes w r := by
  obtain ⟨hnames, hk, hearly, hconditions, horder, hlate, -⟩ := h
  refine ⟨.cons ?_ (by simp), fun name c hc ↦ hconditions.values_ne_nil hc, fun n hn ↦ ?_⟩
  · exact (hnames.drawn.within fun _ hs ↦ by simp [hs]).append
      (hconditions.drawn.within fun _ hs ↦ by simp [hs])
  · rcases Option.or_eq_some_iff.mp hn with hn | ⟨-, hn⟩
    · exact (hn ▸ hearly).bounds
    · exact (hn ▸ hlate).bounds

/-- The pairs of names and values are drawn if both lists are. -/
theorem Drawn.zip {names : List String} {values : List AttributeValue}
    (h : Drawn w names values) :
    Drawn w (NameMap.ofList (names.zip values)).names
      ((NameMap.ofList (names.zip values)).entries.map (·.2)) := by
  constructor
  · intro name hname
    obtain ⟨⟨_, value⟩, hpair, rfl⟩ := List.mem_map.mp hname
    exact h.names _ (List.of_mem_zip (NameMap.mem_of_mem_entries_ofList hpair)).1
  · intro value hvalue
    obtain ⟨⟨name, _⟩, hpair, rfl⟩ := List.mem_map.mp hvalue
    exact h.values _ (List.of_mem_zip (NameMap.mem_of_mem_entries_ofList hpair)).2

theorem Insert.makes (h : Insert w r) : Makes w r := by
  obtain @⟨k, l, table, w, v, names, values, hk, hnames, hl, hvalues, -⟩ := h
  have hpairs : names.zip values ≠ [] := by
    obtain ⟨name, names, rfl⟩ := List.exists_cons_of_ne_nil hnames.ne_nil
    obtain ⟨value, values, rfl⟩ := List.exists_cons_of_ne_nil hvalues.ne_nil
    exact List.cons_ne_nil _ _
  have hnamesdrawn := hnames.drawn fun _ _ h ↦ h.drawn
  have hvaluesdrawn := hvalues.drawn fun _ _ h ↦ h.drawn
  rw [List.flatMap_singleton'] at hnamesdrawn hvaluesdrawn
  have hdrawn : Drawn (k :: ⟨.identifier, table⟩ :: (w ++ l :: v)) names values := by
    refine (hnamesdrawn.within ?_).append (hvaluesdrawn.within ?_) |>.mono (List.Subset.refl _)
      (List.subset_append_left _ _) (List.subset_append_right _ _)
    · exact fun _ hs ↦ by simp [hs]
    · exact fun _ hs ↦ by simp [hs]
  exact ⟨hdrawn.zip.cons (by simp), NameMap.entries_ofList_ne_nil hpairs⟩

theorem Update.makes (h : Update w r) : Makes w r := by
  obtain ⟨hk, hupdates, hl, hkey⟩ := h
  obtain ⟨hupdatesne, hupdatesdrawn, hput⟩ := hupdates.drawn_updates
  obtain ⟨hkeyne, hkeydrawn⟩ := hkey.drawn_key
  refine ⟨.cons ?_ (by simp), hkeyne, hupdatesne, hput⟩
  exact (hkeydrawn.within fun _ hs ↦ by simp [hs]).append
    (hupdatesdrawn.within fun _ hs ↦ by simp [hs])

theorem Delete.makes (h : Delete w r) : Makes w r := by
  obtain ⟨hk, hl, hkey⟩ := h
  obtain ⟨hkeyne, hkeydrawn⟩ := hkey.drawn_key
  exact ⟨.cons (hkeydrawn.within fun _ hs ↦ by simp [hs]) (by simp), hkeyne⟩

theorem Drop.makes (h : Drop w r) : Makes w r := by
  obtain ⟨hk⟩ := h
  exact ⟨⟨by simp [Request.names], nofun⟩, trivial⟩

theorem sublist_keys {declarations : List Declaration}
    (h : ∀ d ∈ declarations, ∃ v, Declared v d) :
    ((declarations.filterMap (·.key?)).map (·.attributeName)).Sublist
      ((declarations.map (·.definition)).map (·.attributeName)) := by
  induction declarations with
  | nil => exact .slnil
  | cons d declarations ih =>
    obtain ⟨⟨v, hd⟩, hrest⟩ := List.forall_mem_cons.mp h
    cases hd with
    | plain => exact (ih hrest).cons _
    | key => exact (ih hrest).cons_cons _

theorem Create.makes (h : Create w r) : Makes w r := by
  obtain @⟨k, table, w, v, declarations, throughput, hk, hw, hv⟩ := h
  have hsublist := sublist_keys fun d hd ↦ by
    obtain ⟨v, hv, -⟩ := hw.exists_of_mem hd
    exact ⟨v, hv⟩
  have hdefinitions : Drawn w ((declarations.map (·.definition)).map (·.attributeName)) [] := by
    have hdrawn := hw.drawn fun _ _ h ↦ h.drawn
    rw [List.map_map, List.map_eq_flatMap]
    exact hdrawn.mono (List.Subset.refl _) (List.Subset.refl _) (List.nil_subset _)
  have hkeys := hdefinitions.mono (List.Subset.refl _) hsublist.subset (List.Subset.refl _)
  refine ⟨.cons ?_ (by simp), mt List.map_eq_nil_iff.mp hw.ne_nil, hsublist⟩
  exact (hdefinitions.append hkeys).within fun _ hs ↦ by simp [hs]

theorem Whole.makes {body : List Symbol → Request → Prop} (h : Whole body w r)
    (hbody : ∀ v r, body v r → Makes v r) : Makes w r := by
  obtain ⟨hw, he⟩ := h
  obtain ⟨hdrawn, hcomplete⟩ := hbody _ _ hw
  exact ⟨hdrawn.within (List.subset_append_left _ _), hcomplete⟩

theorem Sentence.makes (h : Sentence w r) : Makes w r := by
  have hcons {k : Symbol} {w : List Symbol} (h : Makes w r) : Makes (k :: w) r :=
    ⟨h.drawn.within (List.subset_cons_self _ _), h.complete⟩
  cases h with
  | select _ hw => exact hcons (hw.makes fun _ _ h ↦ h.makes)
  | insert _ hw => exact hcons (hw.makes fun _ _ h ↦ h.makes)
  | update _ hw => exact hcons (hw.makes fun _ _ h ↦ h.makes)
  | create _ hw => exact hcons (hw.makes fun _ _ h ↦ h.makes)
  | delete _ hw => exact hcons (hw.makes fun _ _ h ↦ h.makes)
  | drop _ hw => exact hcons (hw.makes fun _ _ h ↦ h.makes)

end Statement.Grammar

/-! ## Well-formed requests -/

/-- What can be a name in a text. -/
structure Token.Names (source name : String) : Prop where
  token : ∃ t ∈ scan source, t.kind = .identifier ∧ t.text = name
  first : ∃ c cs, name.toList = c :: cs ∧ (Text.isLetter c = true ∨ c = '_')
  /-- The name is no reserved word, in any letter case. -/
  free : Text.foldCase name ∉ keywords ++ typeNames ++ constraints ++ wordOperators

/-- What can be a value in a text: a string, or a number that is written as one. -/
inductive AttributeValue.Written : AttributeValue → Prop
  | string (content : String) : Written (.string content)
  | number {text : String} (h : Decimal.Numeral text.toList) : Written (.number text)

/-- What can be a request of a text. -/
structure Request.WellFormed (source : String) (r : Request) : Prop where
  names : ∀ name ∈ r.names, Token.Names source name
  values : ∀ value ∈ r.values, value.Written
  complete : r.Complete

theorem Token.names_of_mem {source name : String}
    (h : ⟨.identifier, name⟩ ∈ symbols (scan source)) : Names source name := by
  have hcut : Symbol.IsCut ⟨.identifier, name⟩ := (scanned_scan source).isCut _ h (by simp)
  obtain ⟨t, ht, hsymbol⟩ := List.mem_map.mp h
  obtain ⟨hkind, htext⟩ := Symbol.mk.inj hsymbol
  refine ⟨⟨t, ht, hkind, htext⟩, ?_, ?_⟩
  · obtain ⟨c, cs, more, hm, htoList⟩ := hcut
    have hbegin := hm.word_of_identifier.1
    rw [Text.beginsWord, Bool.or_eq_true, beq_iff_eq] at hbegin
    exact ⟨c, cs.take more, htoList, hbegin⟩
  · cases hcut.worded (by simp) with
    | identifier hfree => exact hfree

theorem Statement.Grammar.Literal.written {s : Symbol} {value : AttributeValue}
    (h : Literal s value) (hcut : s.kind ≠ .endOfInput → s.IsCut) : value.Written := by
  cases h with
  | string text => exact .string _
  | number text =>
    have hnumber : Symbol.IsCut ⟨.number, text⟩ := hcut (by simp)
    exact .number (hnumber.numeral rfl)

namespace Statement

/-- What is parsed is well formed. -/
theorem wellFormed_of_parse {source : String} {r : Request} (h : parse source = .ok r) :
    r.WellFormed source := by
  obtain ⟨hdrawn, hcomplete⟩ := (sentence_of_parse h).makes
  refine ⟨fun name hname ↦ Token.names_of_mem (hdrawn.names name hname), fun value hvalue ↦ ?_,
    hcomplete⟩
  obtain ⟨s, hs, hliteral⟩ := hdrawn.values value hvalue
  exact hliteral.written ((Token.scanned_scan source).isCut s hs)

/-- A name in capitals that ends in a digit, an attribute that is named twice, and a number with all
its parts. -/
def fullText : String :=
  "UPDATE T1 SET _a = -01.50e+3, b = 'x', _a = 2 WHERE k = 'limit'"

def fullRequest : Request :=
  .updateItem ⟨"T1", .ofList [("k", .string "limit")],
    .ofList [("_a", .put (.number "2")), ("b", .put (.string "x"))]⟩

theorem wellFormed_fullText :
    parse fullText = .ok fullRequest ∧ fullRequest.WellFormed fullText := by
  have hparse : parse fullText = .ok fullRequest := by decide +kernel
  exact ⟨hparse, wellFormed_of_parse hparse⟩

end Statement

end ItemSql
