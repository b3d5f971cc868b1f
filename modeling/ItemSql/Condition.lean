import ItemSql.AttributeValue
import ItemSql.Text.Case

/-!
# Conditions and updates

A clause of a statement is a list of expressions, each about one attribute. The store takes clauses
in another form, one entry for each attribute: a *condition* for a query, a *value* for a key, an
*update* for a change. Folding the expressions one by one gives that form. The three clauses differ
in what happens when an attribute is named again: a condition gathers the values and takes the
latest operator, a key and an update take the latest value.
-/

namespace ItemSql

/-- How an attribute is compared with the values of a condition. -/
inductive ComparisonOperator where
  | eq
  | le
  | lt
  | ge
  | gt
  | beginsWith
  | between
  deriving DecidableEq, Repr

namespace ComparisonOperator

/-- All operators, in the order in which diagnostics list them. -/
def all : List ComparisonOperator :=
  [.eq, .le, .lt, .ge, .gt, .beginsWith, .between]

/-- The operator on the wire. -/
def wireName : ComparisonOperator → String
  | .eq => "EQ"
  | .le => "LE"
  | .lt => "LT"
  | .ge => "GE"
  | .gt => "GT"
  | .beginsWith => "BEGINS_WITH"
  | .between => "BETWEEN"

/-- The operator in a statement. -/
def symbol : ComparisonOperator → String
  | .eq => "="
  | .le => "<="
  | .lt => "<"
  | .ge => ">="
  | .gt => ">"
  | .beginsWith => "like"
  | .between => "between"

/-- The operator that a symbol or a word of a statement stands for. -/
def ofSymbol? (text : String) : Option ComparisonOperator :=
  all.find? fun op ↦ op.symbol = Text.lowerAscii text

end ComparisonOperator

/-- What is done to an attribute of an item. -/
inductive AttributeAction where
  /-- The attribute is given a value. -/
  | put
  deriving DecidableEq, Repr, Inhabited

namespace AttributeAction

/-- All actions. -/
def all : List AttributeAction := [.put]

/-- The action on the wire. -/
def wireName : AttributeAction → String
  | .put => "PUT"

end AttributeAction

/-- A comparison of an attribute with values. -/
structure Condition where
  operator : ComparisonOperator
  values : List AttributeValue
  deriving DecidableEq, Repr

/-- A change of an attribute. -/
structure AttributeUpdate where
  value? : Option AttributeValue
  action? : Option AttributeAction
  deriving DecidableEq, Repr

/-- The change that gives an attribute a value. -/
def AttributeUpdate.put (value : AttributeValue) : AttributeUpdate :=
  ⟨some value, some .put⟩

/-- A comparison as a statement has it: an attribute, an operator and its operands. -/
structure Expression where
  name : String
  operator : ComparisonOperator
  values : List AttributeValue
  deriving DecidableEq, Repr

namespace Expression

/-- Folds an expression into the conditions of a query. The values of an attribute gather, and its
latest operator holds. -/
def addCondition (conditions : NameMap Condition) (e : Expression) : NameMap Condition :=
  if conditions.contains e.name then
    conditions.alter e.name fun c ↦ ⟨e.operator, c.values ++ e.values⟩
  else conditions.insert e.name ⟨e.operator, e.values⟩

/-- Folds an expression into a key. The latest value of an attribute holds. -/
def addKey (key : Item) (e : Expression) : Item :=
  match e.values with
  | [] => key
  | value :: _ => key.insert e.name value

/-- Folds an expression into the updates of an item. The latest value of an attribute holds. -/
def addUpdate (updates : NameMap AttributeUpdate) (e : Expression) :
    NameMap AttributeUpdate :=
  match e.values with
  | [] => updates
  | value :: _ => updates.insert e.name (.put value)

/-- The conditions that a clause states. -/
def conditions (clause : List Expression) : NameMap Condition :=
  clause.foldl addCondition ∅

/-- The key that a clause names. -/
def key (clause : List Expression) : Item :=
  clause.foldl addKey ∅

/-- The updates that a clause asks for. -/
def updates (clause : List Expression) : NameMap AttributeUpdate :=
  clause.foldl addUpdate ∅

end Expression

end ItemSql
