import ItemSql.Proofs.Statement.Disjunction
import ItemSql.Proofs.Store.Selection

/-!
# What a clause of equations selects

The conditions of a clause gather the texts that an attribute is compared with, and an equality
holds of any of them. So a clause of equations selects the items that have, for each of its
attributes, one of the texts that stand with it (`items_disjunction`). The words between the
equations make no difference, and the items are those of the formula only where the clause is
complete. As with any query, the items must not be too much for the sort.
-/

namespace ItemSql

/-! ## Conditions of equations -/

namespace Equation

variable {chain : List Equation} {name : String} {c : Condition}

/-- The texts that an attribute is compared with. -/
def texts (name : String) (chain : List Equation) : List String :=
  (chain.filter fun e ↦ e.name = name).map (·.text)

theorem mem_texts {text : String} : text ∈ texts name chain ↔ ⟨name, text⟩ ∈ chain := by
  rw [texts, List.mem_map]
  constructor
  · rintro ⟨⟨name', text⟩, he, rfl⟩
    obtain ⟨hmem, hname⟩ := List.mem_filter.mp he
    obtain rfl := of_decide_eq_true hname
    exact hmem
  · intro h
    exact ⟨_, List.mem_filter.mpr ⟨h, decide_eq_true rfl⟩, rfl⟩

/-- The condition on an attribute of the clause is an equality with all of its texts. -/
theorem get?_conditions_expression :
    (Expression.conditions (chain.map expression)).get? name = some c ↔
      (∃ e ∈ chain, e.name = name) ∧ c = ⟨.eq, (texts name chain).map .string⟩ := by
  have habout : Expression.about name (chain.map expression) =
      (chain.filter fun e ↦ e.name = name).map expression := List.filter_map
  have hvalues : ((chain.filter fun e ↦ e.name = name).map expression).flatMap (·.values) =
      (texts name chain).map .string := by
    rw [List.flatMap_map, texts, List.map_map]
    exact List.map_eq_flatMap.symm
  rw [Expression.get?_conditions, habout, hvalues, Option.map_eq_some_iff]
  constructor
  · rintro ⟨last, hlast, rfl⟩
    obtain ⟨e, he, rfl⟩ := List.mem_map.mp (List.mem_of_getLast? hlast)
    obtain ⟨hmem, hname⟩ := List.mem_filter.mp he
    exact ⟨⟨e, hmem, of_decide_eq_true hname⟩, rfl⟩
  · rintro ⟨⟨e, he, hname⟩, rfl⟩
    have hmem : e ∈ chain.filter fun e ↦ e.name = name :=
      List.mem_filter.mpr ⟨he, decide_eq_true hname⟩
    rw [List.getLast?_map, List.getLast?_eq_some_getLast (List.ne_nil_of_mem hmem)]
    exact ⟨_, rfl, rfl⟩

/-- The conditions of the clause ask for one of its texts for each attribute. -/
theorem all_conditions_iff {item : Item} :
    ((Expression.conditions (chain.map expression)).entries.all fun (name, c) ↦
      c.satisfiedBy (item.get? name)) = true ↔ gathers chain item = true := by
  rw [List.all_eq_true, gathers_iff]
  constructor
  · intro h e he
    have hget := get?_conditions_expression.mpr ⟨⟨e, he, rfl⟩, rfl⟩
    obtain ⟨text, htext, hvalue⟩ :=
      Condition.satisfiedBy_texts.mp (h _ (NameMap.mem_entries_iff.mpr hget))
    exact ⟨text, mem_texts.mp htext, hvalue⟩
  · rintro h ⟨name, c⟩ hc
    obtain ⟨⟨e, he, rfl⟩, rfl⟩ := get?_conditions_expression.mp (NameMap.mem_entries_iff.mp hc)
    obtain ⟨text, htext, hvalue⟩ := h e he
    exact Condition.satisfiedBy_texts.mpr ⟨text, mem_texts.mpr htext, hvalue⟩

end Equation

theorem Table.matching_equations (t : Table) (chain : List Equation) :
    t.matching (Expression.conditions (chain.map Equation.expression)) =
      t.items.filter (Equation.gathers chain) :=
  List.filter_congr fun _ _ ↦ Bool.eq_iff_iff.mpr Equation.all_conditions_iff

/-! ## Selections end to end -/

namespace Store

open Statement Statement.Grammar Token

theorem query_of_disjunction {config : Config} {s : Store} {source statement : String}
    {params : List Param} {t : Table} {selection : Selection (List (List Equation))}
    (hselects : Selects Disjunction (symbols (scan source)) selection)
    (hlimit : selection.limit? = none) (hbind : bind statement params = .ok source)
    (ht : s.tables.get? selection.table = some t) :
    ∃ s', s'.tables = s.tables ∧
      ((∃ cursor items, ((connection config).query statement params).run s =
          (some (.ok cursor), s') ∧ cursor.items? = some items ∧
        items.Perm ((t.items.filter (Equation.gathers selection.clause.flatten)).map
          (Table.narrow selection.columns))) ∨
      (((connection config).query statement params).run s = (none, s') ∧
        t.Unsortable (t.items.filter (Equation.gathers selection.clause.flatten)))) := by
  have hexpressions := hselects.map fun _ _ ↦ Disjunction.clause
  rw [← Table.matching_equations]
  obtain ⟨s', htables, ⟨o, ho, hrun⟩ | ⟨hnone, hrun⟩⟩ := query_of_selects hexpressions hbind ht
  · exact ⟨s', htables, .inl ⟨_, _, hrun, rfl, Table.items_query_perm ho hlimit⟩⟩
  · exact ⟨s', htables, .inr ⟨hrun, Table.unsortable_of_query_eq_none hnone⟩⟩

/-- A selection without a limit, whose clause is made of equations, returns the items that have one
of the texts of the clause for each of its attributes. The one exception is that these items are too
much for the sort. They are the items of which the clause holds as a formula, whatever the items,
exactly if the clause is complete. -/
theorem items_disjunction (config : Config) {s : Store} {source : String} {t : Table}
    {selection : Selection (List (List Equation))}
    (hselects : Selects Disjunction (symbols (scan source)) selection)
    (hlimit : selection.limit? = none) (ht : s.tables.get? selection.table = some t) :
    bind source [] = .ok source ∧
      (∀ statement params, bind statement params = .ok source →
        ∃ s', s'.tables = s.tables ∧
          ((∃ cursor items, ((connection config).query statement params).run s =
              (some (.ok cursor), s') ∧ cursor.items? = some items ∧
            items.Perm ((t.items.filter (Equation.gathers selection.clause.flatten)).map
              (Table.narrow selection.columns))) ∨
          (((connection config).query statement params).run s = (none, s') ∧
            t.Unsortable (t.items.filter (Equation.gathers selection.clause.flatten))))) ∧
      ((∀ item, Equation.gathers selection.clause.flatten item =
        Equation.reads selection.clause item) ↔ Equation.Complete selection.clause) := by
  refine ⟨?_, fun statement params hbind ↦ ?_, Equation.gathers_eq_reads_iff⟩
  · exact bind_of_selects (hselects.map fun _ _ ↦ Disjunction.clause)
  · exact query_of_disjunction hselects hlimit hbind ht

/-! ### A complete clause and one that is not -/

/-- Items that meet both sides of a clause, or one of them. -/
def corner : Table :=
  ⟨[⟨"k", .hash⟩],
    [.ofList [("k", .string "1"), ("a", .string "x")],
      .ofList [("k", .string "2"), ("b", .string "z"), ("a", .string "x")],
      .ofList [("k", .string "3"), ("b", .string "y")]]⟩

def cornerStore : Store :=
  ⟨.ofList [("t", corner)], []⟩

/-- A clause that spells out every choice of texts for two attributes. -/
def productText : String :=
  "select * from t where a = 'x' and b = 'y' or b = 'z' and a = 'x'"

def productSelection : Selection (List (List Equation)) :=
  ⟨"t", [], [[⟨"a", "x"⟩, ⟨"b", "y"⟩], [⟨"b", "z"⟩, ⟨"a", "x"⟩]], none, none⟩

theorem selects_productText : Selects Disjunction (symbols (scan productText)) productSelection := by
  have hfirst : SepBy (Keyword "and") Equates
      ([⟨.identifier, "a"⟩, ⟨.operator, "="⟩, ⟨.string, "'x'"⟩] ++ ⟨.keyword, "and"⟩ ::
        [⟨.identifier, "b"⟩, ⟨.operator, "="⟩, ⟨.string, "'y'"⟩])
      [⟨"a", "x"⟩, ⟨"b", "y"⟩] :=
    .more (.mk "a" "'x'") ⟨rfl, by decide⟩ (.one (.mk "b" "'y'"))
  have hsecond : SepBy (Keyword "and") Equates
      ([⟨.identifier, "b"⟩, ⟨.operator, "="⟩, ⟨.string, "'z'"⟩] ++ ⟨.keyword, "and"⟩ ::
        [⟨.identifier, "a"⟩, ⟨.operator, "="⟩, ⟨.string, "'x'"⟩])
      [⟨"b", "z"⟩, ⟨"a", "x"⟩] :=
    .more (.mk "b" "'z'") ⟨rfl, by decide⟩ (.one (.mk "a" "'x'"))
  have hclause : SepBy (Keyword "or") (SepBy (Keyword "and") Equates)
      (_ ++ ⟨.keyword, "or"⟩ :: _) productSelection.clause :=
    .more hfirst ⟨rfl, by decide⟩ (.one hsecond)
  have hsymbols : symbols (scan productText) =
      [⟨.keyword, "select"⟩, ⟨.wildcard, "*"⟩, ⟨.keyword, "from"⟩, ⟨.identifier, "t"⟩,
        ⟨.keyword, "where"⟩, ⟨.identifier, "a"⟩, ⟨.operator, "="⟩, ⟨.string, "'x'"⟩,
        ⟨.keyword, "and"⟩, ⟨.identifier, "b"⟩, ⟨.operator, "="⟩, ⟨.string, "'y'"⟩,
        ⟨.keyword, "or"⟩, ⟨.identifier, "b"⟩, ⟨.operator, "="⟩, ⟨.string, "'z'"⟩,
        ⟨.keyword, "and"⟩, ⟨.identifier, "a"⟩, ⟨.operator, "="⟩, ⟨.string, "'x'"⟩,
        endSymbol] := by
    decide +kernel
  rw [hsymbols]
  exact .plain "t" (.all "*") (Disjunction.mk ⟨rfl, by decide⟩ hclause)

theorem complete_product : Equation.Complete productSelection.clause where
  whole own hown _ _ := by
    have hnames : ∀ own ∈ productSelection.clause, ∀ e ∈ productSelection.clause.flatten,
        ∃ e' ∈ own, e'.name = e.name := by
      decide
    exact hnames own hown
  every choice hchoice := by
    have ha : choice "a" = "x" := by
      simpa [productSelection] using hchoice ⟨"a", "x"⟩ (by decide)
    have hb : choice "b" = "y" ∨ choice "b" = "z" := by
      simpa [productSelection] using hchoice ⟨"b", "y"⟩ (by decide)
    rcases hb with hb | hb
    · exact ⟨_, List.mem_cons_self, by simp [Equation.ChosenBy, ha, hb]⟩
    · exact ⟨_, .tail _ List.mem_cons_self, by simp [Equation.ChosenBy, ha, hb]⟩

theorem items_disjunction_product :
    Selects Disjunction (symbols (scan productText)) productSelection ∧
      (∃ cursor items s', ((connection {}).query productText []).run cornerStore =
          (some (.ok cursor), s') ∧ cursor.items? = some items ∧
        items.Perm [.ofList [("k", .string "2"), ("b", .string "z"), ("a", .string "x")]]) ∧
      ∀ item, Equation.gathers productSelection.clause.flatten item =
        Equation.reads productSelection.clause item := by
  have ht : cornerStore.tables.get? productSelection.table = some corner := by decide +kernel
  have hitems : (corner.items.filter (Equation.gathers productSelection.clause.flatten)).map
      (Table.narrow productSelection.columns) =
        [.ofList [("k", .string "2"), ("b", .string "z"), ("a", .string "x")]] := by
    decide +kernel
  obtain ⟨hbind, hrun, hagree⟩ := items_disjunction {} selects_productText rfl ht
  refine ⟨selects_productText, ?_, hagree.mpr complete_product⟩
  obtain ⟨s', -, ⟨cursor, items, hquery, hleft, hperm⟩ | ⟨-, hmany⟩⟩ := hrun _ _ hbind
  · exact ⟨cursor, items, s', hquery, hleft, hitems ▸ hperm⟩
  · exact absurd hmany.many (by decide +kernel)

/-- A clause whose alternatives name one attribute each, of two. -/
def cornerText : String :=
  "select k from t where a = 'x' or b = 'y'"

def cornerSelection : Selection (List (List Equation)) :=
  ⟨"t", ["k"], [[⟨"a", "x"⟩], [⟨"b", "y"⟩]], none, none⟩

theorem selects_cornerText : Selects Disjunction (symbols (scan cornerText)) cornerSelection := by
  have hclause : SepBy (Keyword "or") (SepBy (Keyword "and") Equates)
      (_ ++ ⟨.keyword, "or"⟩ :: _) cornerSelection.clause :=
    .more (.one (.mk "a" "'x'")) ⟨rfl, by decide⟩ (.one (.one (.mk "b" "'y'")))
  have hsymbols : symbols (scan cornerText) =
      [⟨.keyword, "select"⟩, ⟨.identifier, "k"⟩, ⟨.keyword, "from"⟩, ⟨.identifier, "t"⟩,
        ⟨.keyword, "where"⟩, ⟨.identifier, "a"⟩, ⟨.operator, "="⟩, ⟨.string, "'x'"⟩,
        ⟨.keyword, "or"⟩, ⟨.identifier, "b"⟩, ⟨.operator, "="⟩, ⟨.string, "'y'"⟩,
        endSymbol] := by
    decide +kernel
  rw [hsymbols]
  exact .plain "t" (.listed (.one (.mk "k"))) (Disjunction.mk ⟨rfl, by decide⟩ hclause)

/-- A disjunction over two attributes returns none of the items that meet one side only. -/
theorem items_disjunction_not_reads :
    ¬ ∀ (config : Config) (s : Store) (source : String) (t : Table)
      (selection : Selection (List (List Equation))),
      Selects Disjunction (symbols (scan source)) selection → selection.limit? = none →
        s.tables.get? selection.table = some t →
        ∃ cursor items s', ((connection config).query source []).run s = (some (.ok cursor), s') ∧
          cursor.items? = some items ∧
          items.Perm ((t.items.filter (Equation.reads selection.clause)).map
            (Table.narrow selection.columns)) := by
  intro hreads
  have ht : cornerStore.tables.get? "t" = some corner := by decide +kernel
  have hbind : bind cornerText [] = .ok cornerText := by decide +kernel
  have hnone : corner.items.filter (Equation.gathers cornerSelection.clause.flatten) = [] := by
    decide +kernel
  have hall : corner.items.filter (Equation.reads cornerSelection.clause) = corner.items := by
    decide +kernel
  obtain ⟨cursor, items, s', hquery, hleft, hperm⟩ :=
    hreads {} cornerStore cornerText corner cornerSelection selects_cornerText rfl ht
  obtain ⟨s'', -, ⟨cursor', items', hquery', hleft', hperm'⟩ | ⟨hquery', -⟩⟩ :=
    query_of_disjunction selects_cornerText rfl hbind ht
  · obtain rfl : cursor = cursor' :=
      Except.ok.inj (Option.some.inj (Prod.mk.inj (hquery.symm.trans hquery')).1)
    obtain rfl : items = items' := Option.some.inj (hleft.symm.trans hleft')
    rw [hnone, List.map_nil] at hperm'
    rw [hall, hperm'.eq_nil] at hperm
    exact absurd hperm.length_eq (by decide)
  · cases (Prod.mk.inj (hquery.symm.trans hquery')).1

end Store

end ItemSql
