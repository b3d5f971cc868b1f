import ItemSql.Text.Case

/-!
# Tokens of a statement

A token is a piece of the statement's text with its lexical class and the byte offset at which it
begins. The text is kept as written: reserved words keep their letter case, strings their quotes.
-/

namespace ItemSql

/-- The lexical class of a token. -/
inductive Token.Kind where
  | keyword
  | identifier
  | wildcard
  | typeName
  | constraint
  | string
  | number
  | operator
  | comma
  | semicolon
  | leftParen
  | rightParen
  | endOfInput
  | unknown
  deriving DecidableEq, Repr, Inhabited

/-- A token of a statement. -/
structure Token where
  kind : Token.Kind
  text : String
  /-- The number of bytes before the token. -/
  offset : Nat
  deriving DecidableEq, Repr, Inhabited

namespace Token

/-- The name of a class, as diagnostics write it. -/
def Kind.name : Kind → String
  | .keyword => "Keyword"
  | .identifier => "Identifier"
  | .wildcard => "Wildcard"
  | .typeName => "Type"
  | .constraint => "Constraint"
  | .string => "String"
  | .number => "Number"
  | .operator => "Operator"
  | .comma => "','"
  | .semicolon => "';'"
  | .leftParen => "'('"
  | .rightParen => "')'"
  | .endOfInput => "EOF"
  | .unknown => "Unknown"

/-! ## Reserved words -/

/-- The words that begin a statement or a clause, or join two of them. -/
def keywords : List String :=
  ["select", "insert", "update", "delete", "drop", "create", "from", "where", "set", "limit",
   "order", "by", "asc", "desc", "into", "values", "table", "with", "and", "or", "between"]

/-- The words that name an attribute type. -/
def typeNames : List String :=
  ["string", "number", "stringset", "numberset", "binary", "binaryset"]

/-- The words that constrain a key or an index. -/
def constraints : List String :=
  ["hash", "range", "index", "all", "projection"]

/-- The words that are operators. -/
def wordOperators : List String :=
  ["like"]

/-- The class of a word, by its lower case. -/
def wordKind (word : String) : Kind :=
  let folded := Text.foldCase word
  if folded ∈ keywords then .keyword
  else if folded ∈ typeNames then .typeName
  else if folded ∈ constraints then .constraint
  else if folded ∈ wordOperators then .operator
  else .identifier

end Token

end ItemSql
