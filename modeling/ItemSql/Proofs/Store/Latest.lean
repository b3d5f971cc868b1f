import ItemSql.Proofs.Statement.Selection
import ItemSql.Store
import Mathlib.Data.List.Basic

/-!
# The latest expression on an attribute

A clause may name an attribute again, and the condition on this attribute then has the values of all
its expressions, the latest ones behind the others. Which expression decides depends on where a
comparison looks for its operands. A comparison with one operand looks at the end, where the latest
expression is. A range looks at the beginning: its bounds are the first two values that were ever
given for the attribute, and the latest expression gives no more than the operator.
-/

namespace ItemSql

/-- The number of operands that an operator has in a statement. -/
def ComparisonOperator.arity : ComparisonOperator → Nat
  | .between => 2
  | _ => 1

theorem ComparisonOperator.arity_of_ne {op : ComparisonOperator} (h : op ≠ .between) :
    op.arity = 1 := by
  cases op <;> first | rfl | exact absurd rfl h

/-! ## Operands -/

namespace Condition

/-- Every comparison but an equality and a range has the last value as its only operand. -/
theorem satisfiedBy_append_singleton {op : ComparisonOperator} (heq : op ≠ .eq)
    (hbetween : op ≠ .between) (before : List AttributeValue) (operand : AttributeValue)
    (value? : Option AttributeValue) :
    (⟨op, before ++ [operand]⟩ : Condition).satisfiedBy value? =
      (⟨op, [operand]⟩ : Condition).satisfiedBy value? := by
  have hholds : (⟨op, before ++ [operand]⟩ : Condition).holdsOf =
      (⟨op, [operand]⟩ : Condition).holdsOf := by
    funext value
    cases op with
    | eq => exact absurd rfl heq
    | between => exact absurd rfl hbetween
    | _ => rw [holdsOf, holdsOf, List.getLast?_concat, List.getLast?_singleton]
  rw [satisfiedBy, satisfiedBy, hholds]

/-- Whatever stands before the two values of a range, there are two values in front. -/
theorem exists_bounds (before : List AttributeValue) (low high : AttributeValue) :
    ∃ low' high' others, before ++ [low, high] = low' :: high' :: others := by
  match before with
  | [] => exact ⟨low, high, [], rfl⟩
  | [value] => exact ⟨value, low, [high], rfl⟩
  | value :: value' :: others => exact ⟨value, value', others ++ [low, high], rfl⟩

/-- A range has the first two values as its operands. -/
theorem satisfiedBy_between (low high : AttributeValue) (others : List AttributeValue)
    (value? : Option AttributeValue) :
    (⟨.between, low :: high :: others⟩ : Condition).satisfiedBy value? =
      (⟨.between, [low, high]⟩ : Condition).satisfiedBy value? :=
  rfl

end Condition

/-! ## The condition on an attribute -/

namespace Expression

variable {clause before : List Expression} {last : Expression} {name : String}

/-- How the condition on an attribute is judged, where `last` is the latest expression on it and
`before` are the others. -/
structure Judged (before : List Expression) (last : Expression) (c : Condition) : Prop where
  /-- A comparison with one operand is judged as if it were the only one. -/
  comparison : last.operator ≠ .between →
    ∀ value?, c.satisfiedBy value? = last.condition.satisfiedBy value?
  /-- A range is between the first two values of all expressions. -/
  range : last.operator = .between → ∃ low high others,
    (before ++ [last]).flatMap (·.values) = low :: high :: others ∧
      ∀ value?, c.satisfiedBy value? =
        (⟨.between, [low, high]⟩ : Condition).satisfiedBy value?
  /-- If the first expression is a range too, it is this one that decides. -/
  first : ∀ e others, before = e :: others → e.operator = .between → last.operator = .between →
    ∀ value?, c.satisfiedBy value? = e.condition.satisfiedBy value?

/-- The condition on an attribute is judged in this way, unless it is an equality. -/
theorem judged (harity : ∀ e ∈ before ++ [last], e.values.length = e.operator.arity)
    (hop : last.operator ≠ .eq) :
    Judged before last ⟨last.operator, (before ++ [last]).flatMap (·.values)⟩ := by
  have hgathered : (before ++ [last]).flatMap (·.values) =
      before.flatMap (·.values) ++ last.values := by
    rw [List.flatMap_append, List.flatMap_singleton]
  have hlast : last.values.length = last.operator.arity :=
    harity last (List.mem_append_right _ List.mem_cons_self)
  refine ⟨fun hbetween value? ↦ ?_, fun hbetween ↦ ?_, ?_⟩
  · rw [ComparisonOperator.arity_of_ne hbetween] at hlast
    obtain ⟨operand, hoperand⟩ := List.length_eq_one_iff.mp hlast
    rw [hgathered, hoperand, Condition.satisfiedBy_append_singleton hop hbetween, condition,
      hoperand]
  · rw [hbetween, ComparisonOperator.arity] at hlast
    obtain ⟨low, high, hvalues⟩ := List.length_eq_two.mp hlast
    obtain ⟨low', high', others, hfront⟩ :=
      Condition.exists_bounds (before.flatMap (·.values)) low high
    rw [hgathered, hvalues, hfront, hbetween]
    exact ⟨low', high', others, rfl, Condition.satisfiedBy_between low' high' others⟩
  · rintro e others rfl he hbetween value?
    have hfirst : e.values.length = 2 := by
      rw [harity e List.mem_cons_self, he]
      rfl
    obtain ⟨low, high, hvalues⟩ := List.length_eq_two.mp hfirst
    rw [hbetween, condition, he, hvalues]
    simp only [List.cons_append, List.flatMap_cons, hvalues, Condition.satisfiedBy_between]

theorem get?_conditions_of_about (hown : about name clause = before ++ [last]) :
    (conditions clause).get? name =
      some ⟨last.operator, (before ++ [last]).flatMap (·.values)⟩ := by
  rw [get?_conditions, hown, List.getLast?_concat]
  rfl

/-- The latest expression on an attribute decides alone, unless it is an equality or a range. -/
theorem exists_judged (hown : about name clause = before ++ [last])
    (harity : ∀ e ∈ before ++ [last], e.values.length = e.operator.arity)
    (hop : last.operator ≠ .eq) :
    ∃ c, (conditions clause).get? name = some c ∧ Judged before last c :=
  ⟨_, get?_conditions_of_about hown, judged harity hop⟩

/-- An equality on one attribute, an expression on another, and a range on the first again. -/
def steppedClause : List Expression :=
  [⟨"a", .eq, [.number "5"]⟩, ⟨"b", .lt, [.string "x"]⟩,
    ⟨"a", .between, [.number "1", .number "3"]⟩]

/-- The number of the equality has become the lower bound of the range. -/
theorem exists_judged_steppedClause :
    about "a" steppedClause =
        [⟨"a", .eq, [.number "5"]⟩] ++ [⟨"a", .between, [.number "1", .number "3"]⟩] ∧
      ∃ c, (conditions steppedClause).get? "a" = some c ∧
        ∀ value?, c.satisfiedBy value? =
          (⟨.between, [.number "5", .number "1"]⟩ : Condition).satisfiedBy value? := by
  have hown : about "a" steppedClause =
      [⟨"a", .eq, [.number "5"]⟩] ++ [⟨"a", .between, [.number "1", .number "3"]⟩] := by
    decide
  obtain ⟨c, hget, hjudged⟩ := exists_judged hown (by decide) (by decide)
  obtain ⟨low, high, others, hvalues, hrange⟩ := hjudged.range rfl
  obtain ⟨rfl, htail⟩ := List.cons.inj hvalues
  obtain ⟨rfl, -⟩ := List.cons.inj htail
  exact ⟨hown, c, hget, hrange⟩

/-- A number inside the latest range does not meet the condition. -/
theorem latest_between_not_alone :
    ¬ ∀ (clause : List Expression) (last : Expression), (∀ e ∈ clause, e.name = last.name) →
      (∀ e ∈ clause ++ [last], e.values.length = e.operator.arity) → last.operator ≠ .eq →
      ∃ c, (conditions (clause ++ [last])).get? last.name = some c ∧
        ∀ value?, c.satisfiedBy value? = last.condition.satisfiedBy value? := by
  intro h
  obtain ⟨c, hget, halone⟩ := h [⟨"a", .eq, [.number "5"]⟩]
    ⟨"a", .between, [.number "1", .number "3"]⟩ (by decide) (by decide) (by decide)
  have hfolded : c = ⟨.between, [.number "5", .number "1", .number "3"]⟩ :=
    (Option.some.inj hget).symm
  have htwo := halone (some (.number "2"))
  rw [hfolded] at htwo
  revert htwo
  decide +kernel

end Expression

/-! ## Queries of a text -/

namespace Statement

open Token Grammar

/-- An expression that is read has as many values as its operator takes. -/
theorem Grammar.Comparison.length_values {w : List Symbol} {e : Expression} (h : Comparison w e)
    (hcut : ∀ s ∈ w, s.kind ≠ .endOfInput → s.IsCut) :
    e.values.length = e.operator.arity := by
  by_cases hop : e.operator = .between
  · obtain ⟨low, high, hvalues⟩ := h.values_of_between hcut hop
    rw [hvalues, hop]
    rfl
  · rw [ComparisonOperator.arity_of_ne hop]
    cases h with
    | sign => rfl
    | between => exact absurd rfl hop

/-- Every condition of a query that is no equality is judged by the clause of the text in this
way. -/
theorem judged_of_selects {source : String} {s : Selection (List Expression)} {name : String}
    {before : List Expression} {last : Expression}
    (h : Selects Clause (symbols (scan source)) s)
    (hown : Expression.about name s.clause = before ++ [last]) (hop : last.operator ≠ .eq) :
    ∃ c, s.query.conditions.get? name = some c ∧ Expression.Judged before last c := by
  refine ⟨_, Expression.get?_conditions_of_about hown, Expression.judged (fun e he ↦ ?_) hop⟩
  obtain ⟨v, hv, hcut⟩ := exists_comparison h (List.mem_filter.mp (hown ▸ he)).1
  exact hv.length_values hcut

end Statement

end ItemSql
