import ItemSql.Proofs.Statement.Selection
import Mathlib.Data.List.Dedup

/-!
# Clauses of equations

A clause that compares attributes with strings, and nothing else, can be read as a formula: `and`
binds tighter than `or`, so it is a list of alternatives, and each alternative is a list of
equations. The grammar of statements knows nothing of this. There a clause is one list, and the
words between its expressions do not count.

A formula holds of an item by its words (`reads`). What a query asks for is another thing: each
attribute of the clause has one of the texts that it is compared with anywhere (`gathers`). The two
agree on all items exactly if the clause is complete (`gathers_eq_reads_iff`), that is if its
alternatives spell out every way to choose a text for each attribute.
-/

namespace ItemSql

/-- An attribute compared with a text. -/
structure Equation where
  name : String
  text : String
  deriving DecidableEq, Repr

namespace Equation

variable {chain own : List Equation} {alternatives : List (List Equation)} {item : Item}

/-- The expression of a clause that states the equation. -/
def expression (e : Equation) : Expression :=
  ⟨e.name, .eq, [.string e.text]⟩

/-- Whether an item has the text. -/
def holdsOf (e : Equation) (item : Item) : Bool :=
  item.get? e.name = some (.string e.text)

/-- Whether every equation of some alternative holds of an item. -/
def reads (alternatives : List (List Equation)) (item : Item) : Bool :=
  alternatives.any fun own ↦ own.all fun e ↦ e.holdsOf item

/-- Whether for each attribute some equation holds of an item. -/
def gathers (chain : List Equation) (item : Item) : Bool :=
  chain.all fun e ↦ chain.any fun e' ↦ e'.name = e.name && e'.holdsOf item

theorem holdsOf_iff {e : Equation} : e.holdsOf item = true ↔
    item.get? e.name = some (.string e.text) :=
  decide_eq_true_iff

theorem reads_iff : reads alternatives item = true ↔
    ∃ own ∈ alternatives, ∀ e ∈ own, e.holdsOf item = true := by
  simp only [reads, List.any_eq_true, List.all_eq_true]

theorem gathers_iff : gathers chain item = true ↔
    ∀ e ∈ chain, ∃ text, ⟨e.name, text⟩ ∈ chain ∧ item.get? e.name = some (.string text) := by
  simp only [gathers, List.any_eq_true, List.all_eq_true, Bool.and_eq_true, decide_eq_true_iff,
    holdsOf_iff]
  refine forall₂_congr fun e _ ↦ ⟨?_, ?_⟩
  · rintro ⟨⟨name, text⟩, hmem, rfl, hget⟩
    exact ⟨text, hmem, hget⟩
  · rintro ⟨text, hmem, hget⟩
    exact ⟨⟨e.name, text⟩, hmem, rfl, hget⟩

/-! ## Choices of texts -/

/-- The equations are those of a choice of one text for each attribute. -/
def ChosenBy (choice : String → String) (own : List Equation) : Prop :=
  ∀ e ∈ own, e.text = choice e.name

/-- The alternatives spell out the choices of a text for each attribute. -/
structure Complete (alternatives : List (List Equation)) : Prop where
  /-- An alternative that can hold names each attribute of the clause. -/
  whole : ∀ own ∈ alternatives, ∀ choice, ChosenBy choice own →
    ∀ e ∈ alternatives.flatten, ∃ e' ∈ own, e'.name = e.name
  /-- Each choice among the texts of the clause is that of an alternative. -/
  every : ∀ choice, (∀ e ∈ alternatives.flatten, ⟨e.name, choice e.name⟩ ∈ alternatives.flatten) →
    ∃ own ∈ alternatives, ChosenBy choice own

/-- The item that has the attributes of the equations, each with its chosen text. -/
def chosenItem (choice : String → String) (own : List Equation) : Item :=
  .ofList ((own.map (·.name)).dedup.map fun name ↦ (name, .string (choice name)))

theorem entries_chosenItem (choice : String → String) (own : List Equation) :
    (chosenItem choice own).entries =
      (own.map (·.name)).dedup.map fun name ↦ (name, .string (choice name)) := by
  refine NameMap.entries_ofList ?_
  rw [Entries.names, List.map_map]
  exact (List.map_id _).symm ▸ List.nodup_dedup _

theorem get?_chosenItem {choice : String → String} {name : String} {value : AttributeValue} :
    (chosenItem choice own).get? name = some value ↔
      (∃ e ∈ own, e.name = name) ∧ value = .string (choice name) := by
  rw [← NameMap.mem_entries_iff, entries_chosenItem, List.mem_map]
  constructor
  · rintro ⟨name, hname, heq⟩
    obtain ⟨rfl, rfl⟩ := Prod.mk.inj heq
    exact ⟨List.mem_map.mp (List.mem_dedup.mp hname), rfl⟩
  · rintro ⟨hname, rfl⟩
    exact ⟨name, List.mem_dedup.mpr (List.mem_map.mpr hname), rfl⟩

theorem holdsOf_chosenItem {choice : String → String} {e : Equation} :
    e.holdsOf (chosenItem choice own) = true ↔
      (∃ e' ∈ own, e'.name = e.name) ∧ e.text = choice e.name := by
  rw [holdsOf_iff, get?_chosenItem, AttributeValue.string.injEq]

/-- The text that an item has for each attribute; any, if it has none. -/
def choiceOf (item : Item) (name : String) : String :=
  match item.get? name with
  | some (.string text) => text
  | _ => ""

theorem choiceOf_of_get? {name text : String} (h : item.get? name = some (.string text)) :
    choiceOf item name = text := by
  rw [choiceOf, h]

theorem Complete.gathers_eq_reads (h : Complete alternatives) (item : Item) :
    gathers alternatives.flatten item = reads alternatives item := by
  rw [Bool.eq_iff_iff, gathers_iff, reads_iff]
  constructor
  · intro hgathers
    have hchosen : ∀ e ∈ alternatives.flatten,
        ⟨e.name, choiceOf item e.name⟩ ∈ alternatives.flatten ∧
          item.get? e.name = some (.string (choiceOf item e.name)) := by
      intro e he
      obtain ⟨text, hmem, hget⟩ := hgathers e he
      rw [choiceOf_of_get? hget]
      exact ⟨hmem, hget⟩
    obtain ⟨own, hown, hchosenBy⟩ := h.every (choiceOf item) fun e he ↦ (hchosen e he).1
    refine ⟨own, hown, fun e he ↦ ?_⟩
    rw [holdsOf_iff, hchosenBy e he]
    exact (hchosen e (List.mem_flatten_of_mem hown he)).2
  · rintro ⟨own, hown, hholds⟩ e he
    have hchosenBy : ChosenBy (choiceOf item) own := fun e he ↦
      (choiceOf_of_get? (holdsOf_iff.mp (hholds e he))).symm
    obtain ⟨e', he', hname⟩ := h.whole own hown _ hchosenBy e he
    refine ⟨e'.text, ?_, hname ▸ holdsOf_iff.mp (hholds e' he')⟩
    rw [← hname]
    exact List.mem_flatten_of_mem hown he'

/-- The items of the choices tell whether a clause is complete. -/
theorem complete_of_gathers_eq_reads
    (h : ∀ item, gathers alternatives.flatten item = reads alternatives item) :
    Complete alternatives where
  whole own hown choice hchosenBy e he := by
    have hreads : reads alternatives (chosenItem choice own) = true :=
      reads_iff.mpr ⟨own, hown, fun e he ↦
        holdsOf_chosenItem.mpr ⟨⟨e, he, rfl⟩, hchosenBy e he⟩⟩
    rw [← h, gathers_iff] at hreads
    obtain ⟨text, -, hget⟩ := hreads e he
    exact (get?_chosenItem.mp hget).1
  every choice hchoice := by
    have hgathers : gathers alternatives.flatten (chosenItem choice alternatives.flatten) = true :=
      gathers_iff.mpr fun e he ↦
        ⟨choice e.name, hchoice e he, get?_chosenItem.mpr ⟨⟨e, he, rfl⟩, rfl⟩⟩
    rw [h, reads_iff] at hgathers
    obtain ⟨own, hown, hholds⟩ := hgathers
    exact ⟨own, hown, fun e he ↦ (holdsOf_chosenItem.mp (hholds e he)).2⟩

theorem gathers_eq_reads_iff :
    (∀ item, gathers alternatives.flatten item = reads alternatives item) ↔
      Complete alternatives :=
  ⟨complete_of_gathers_eq_reads, fun h ↦ h.gathers_eq_reads⟩

/-! ### Complete clauses -/

/-- A conjunction over distinct attributes is complete. -/
theorem complete_singleton (h : (own.map (·.name)).Nodup) : Complete [own] where
  whole own' hown' choice _ e he := by
    obtain rfl := List.mem_singleton.mp hown'
    rw [List.flatten_singleton] at he
    exact ⟨e, he, rfl⟩
  every choice hchoice := by
    refine ⟨own, List.mem_singleton_self own, fun e he ↦ ?_⟩
    rw [List.flatten_singleton] at hchoice
    have heq : e = ⟨e.name, choice e.name⟩ := List.inj_on_of_nodup_map h he (hchoice e he) rfl
    rw [heq]

/-- A disjunction over one attribute is complete. -/
theorem complete_of_name {name : String} (hchain : chain ≠ []) (h : ∀ e ∈ chain, e.name = name) :
    Complete (chain.map fun e ↦ [e]) where
  whole own hown choice _ e he := by
    obtain ⟨e', he', rfl⟩ := List.mem_map.mp hown
    rw [← List.flatMap_def, List.flatMap_singleton'] at he
    exact ⟨e', List.mem_singleton_self e', (h e' he').trans (h e he).symm⟩
  every choice hchoice := by
    rw [← List.flatMap_def, List.flatMap_singleton'] at hchoice
    obtain ⟨e, he⟩ := List.exists_mem_of_ne_nil chain hchain
    refine ⟨_, List.mem_map.mpr ⟨_, hchoice e he, rfl⟩, fun e' he' ↦ ?_⟩
    obtain rfl := List.mem_singleton.mp he'
    rfl

end Equation

/-! ## The grammar of disjunctions -/

namespace Statement.Grammar

open Token (Symbol)

variable {w v : List Symbol}

/-- An attribute compared with a string. -/
inductive Equates : List Symbol → Equation → Prop
  | mk (name text : String) :
      Equates [⟨.identifier, name⟩, ⟨.operator, "="⟩, ⟨.string, text⟩]
        ⟨name, ItemSql.Literal.unquote text⟩

/-- A clause of equations, read with `and` binding tighter than `or`. -/
inductive Disjunction : List Symbol → List (List Equation) → Prop
  | mk {k : Symbol} {w : List Symbol} {alternatives : List (List Equation)}
      (hk : Keyword "where" k)
      (hw : SepBy (Keyword "or") (SepBy (Keyword "and") Equates) w alternatives) :
      Disjunction (k :: w) alternatives

section SepBy

variable {α β : Type} {separator separator' : Symbol → Prop} {element : List Symbol → α → Prop}
  {element' : List Symbol → β → Prop}

theorem SepBy.append {s : Symbol} {as bs : List α} (has : SepBy separator element w as)
    (hs : separator s) (hbs : SepBy separator element v bs) :
    SepBy separator element (w ++ s :: v) (as ++ bs) := by
  induction has with
  | one ha => exact .more ha hs hbs
  | more ha hs' _ ih =>
    rw [List.append_assoc, List.cons_append]
    exact .more ha hs' ih

theorem SepBy.map {f : α → β} {as : List α} (has : SepBy separator element w as)
    (hseparator : ∀ s, separator s → separator' s)
    (helement : ∀ v a, element v a → element' v (f a)) :
    SepBy separator' element' w (as.map f) := by
  induction has with
  | one ha => exact .one (helement _ _ ha)
  | more ha hs _ ih => exact .more (helement _ _ ha) (hseparator _ hs) ih

end SepBy

/-- The clause is a list of expressions to the grammar of statements. -/
theorem Disjunction.clause {alternatives : List (List Equation)} (h : Disjunction w alternatives) :
    Clause w (alternatives.flatten.map Equation.expression) := by
  obtain ⟨hk, hw⟩ := h
  refine .stated hk ?_
  have hown : ∀ {w own}, SepBy (Keyword "and") Equates w own →
      SepBy Conjunction Comparison w (own.map Equation.expression) := by
    intro w own h
    refine h.map (fun _ ↦ .inl) fun v e he ↦ ?_
    cases he with
    | mk name text => exact .sign rfl (.string text)
  induction hw with
  | one h =>
    rw [List.flatten_singleton]
    exact hown h
  | more h hor _ ih =>
    rw [List.flatten_cons, List.map_append]
    exact (hown h).append (.inr (.inl hor)) ih

/-- Every chain of equations can be read as a disjunction. -/
theorem exists_disjunction {chain : List Equation}
    (h : SepBy (fun s ↦ Keyword "and" s ∨ Keyword "or" s) Equates w chain) :
    ∃ alternatives, alternatives.flatten = chain ∧
      SepBy (Keyword "or") (SepBy (Keyword "and") Equates) w alternatives := by
  induction h with
  | @one _ e he => exact ⟨[[e]], rfl, .one (.one he)⟩
  | @more _ _ _ e _ he hs _ ih =>
    obtain ⟨alternatives, rfl, hw⟩ := ih
    rcases hs with hand | hor
    · -- The equation joins the first of the alternatives behind it.
      cases hw with
      | one hown => exact ⟨_, rfl, .one (.more he hand hown)⟩
      | more hown hor hrest =>
        refine ⟨(e :: _) :: _, rfl, ?_⟩
        rw [← List.cons_append, ← List.append_assoc]
        exact .more (.more he hand hown) hor hrest
    · exact ⟨[e] :: alternatives, rfl, .more (.one he) hor hw⟩

end Statement.Grammar

end ItemSql
