import ItemSql.Decimal.Integer
import ItemSql.Token

/-!
# Syntax errors

A statement is refused at the first token that the grammar does not accept, or because of what it
says in a place where the grammar accepts any number or name. The error carries the whole statement,
so it can be reported where the statement is no longer at hand.
-/

namespace ItemSql

/-- What the grammar accepts in a place. -/
inductive Expected where
  | kind (k : Token.Kind)
  | keyword (word : String)
  | literal
  | comparisonOperator
  | equals
  | keyConstraint
  /-- No second limit. -/
  | oneLimit
  deriving DecidableEq, Repr

/-- What is accepted, in words. -/
def Expected.describe : Expected → String
  | .kind k => k.name
  | .keyword word => "'" ++ word ++ "'"
  | .literal => "String or Number"
  | .comparisonOperator => "comparison operator"
  | .equals => "'='"
  | .keyConstraint => "'hash' or 'range'"
  | .oneLimit => "a single LIMIT clause"

namespace SyntaxError

/-- Why a statement is refused. -/
inductive Cause where
  | unexpectedToken (found : String) (kind : Token.Kind) (expected : Expected)
  /-- The first word begins no statement. -/
  | unknownStatement (found : String)
  /-- A throughput is no integer, or has an unknown name. -/
  | invalidThroughput (name value : String)
  /-- The columns and the values of an insertion differ in number. -/
  | columnCountMismatch (columns values : Nat)
  /-- A limit is no integer, or not in range. -/
  | invalidLimit (value : String)
  deriving DecidableEq, Repr

/-- The cause in words. -/
def Cause.describe : Cause → String
  | .unexpectedToken found kind expected =>
    "unexpected token '" ++ found ++ "' (" ++ kind.name ++ "), expected " ++ expected.describe
  | .unknownStatement found => "unknown statement '" ++ found ++ "'"
  | .invalidThroughput name value => "invalid throughput '" ++ name ++ " = " ++ value ++ "'"
  | .columnCountMismatch columns values =>
    Decimal.ofNat columns ++ " columns but " ++ Decimal.ofNat values ++ " values"
  | .invalidLimit value => "invalid limit '" ++ value ++ "'"

end SyntaxError

/-- A statement that is refused. -/
structure SyntaxError where
  cause : SyntaxError.Cause
  /-- The whole statement. -/
  source : String
  deriving DecidableEq, Repr

/-- The error in words. -/
def SyntaxError.message (e : SyntaxError) : String :=
  "parser: " ++ e.cause.describe ++ " in '" ++ e.source ++ "'"

end ItemSql
