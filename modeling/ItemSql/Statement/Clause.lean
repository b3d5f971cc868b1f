import ItemSql.Condition
import ItemSql.Literal
import ItemSql.Statement.Parser

/-!
# Clauses of a statement

The parts that several statements share: names, literals, and lists of expressions. An expression of
a query compares an attribute with a literal, or with two for a range. An expression of a key or an
update gives an attribute a literal.
-/

namespace ItemSql.Statement

open ItemSql.Parser

/-- The name of a table or an attribute. -/
def identifier : Parser String := expect .identifier

/-- A string or a number. -/
def literal : Parser AttributeValue := do
  let t ← next
  match t.kind with
  | .string => return .string (Literal.unquote t.text)
  | .number => return .number t.text
  | _ => unexpected t .literal

/-- The end of a statement: a semicolon, if there is one, and nothing behind it. -/
def finish : Parser Unit := do
  let _ ← eat .semicolon
  let _ ← expect .endOfInput

/-- An operator that compares. -/
def comparison : Parser ComparisonOperator := do
  let t ← next
  if t.kind = .operator ∨ t.kind = .keyword then
    match ComparisonOperator.ofSymbol? t.text with
    | some op => return op
    | none => unexpected t .comparisonOperator
  else unexpected t .comparisonOperator

/-- Two literals in parentheses. -/
def literalPair : Parser (List AttributeValue) := do
  let _ ← expect .leftParen
  let low ← literal
  let _ ← expect .comma
  let high ← literal
  let _ ← expect .rightParen
  return [low, high]

/-- An attribute, an operator and what it compares with. -/
def expression : Parser Expression := do
  let name ← identifier
  let op ← comparison
  let values ← if op = .between then literalPair else (fun value ↦ [value]) <$> literal
  return ⟨name, op, values⟩

/-- The sign between a name and its value. -/
def equals : Parser Unit := do
  let t ← next
  if t.kind = .operator ∧ t.text = "=" then return () else unexpected t .equals

/-- An attribute and the literal it is given. -/
def assignment : Parser Expression := do
  let name ← identifier
  equals
  return ⟨name, .eq, [← literal]⟩

/-- A word between two expressions: `and`, `or`, or any operator. -/
def conjunction : Parser Bool :=
  eatIf fun t ↦ isKeyword t "and" || isKeyword t "or" || t.kind = .operator

/-- A comma between two elements. -/
def comma : Parser Bool := eat .comma

/-- One or more elements in parentheses, with commas between them. -/
def parenthesized {α : Type} (element : Parser α) : Parser (List α) := do
  let _ ← expect .leftParen
  let elements ← chain element comma
  let _ ← expect .rightParen
  return elements

end ItemSql.Statement
