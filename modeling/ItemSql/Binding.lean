import ItemSql.Decimal.Layout
import ItemSql.Literal
import ItemSql.Text.Glyph

/-!
# Binding parameters to placeholders

A statement may have question marks where literals are due. Binding puts the text of a parameter in
the place of each, in order. A question mark inside a string literal is part of the literal, so the
binder follows the quotes: it is outside all literals, or inside one and right behind a backslash or
not.
-/

namespace ItemSql

/-- A value to put in the place of a placeholder. -/
inductive Param where
  | int (n : Int64)
  | float (x : Float)
  | bool (b : Bool)
  | string (text : String)
  /-- The text of the bytes, with replacement characters where they are not UTF-8. -/
  | bytes (content : Text.Bytes)

namespace Param

/-- The text of a parameter in a statement: a number or a word as it is, a text as a literal. -/
def render : Param → String
  | .int n => Decimal.ofInt n.toInt
  | .float x => Decimal.Layout.plain.write x.toBits
  | .bool b => if b then "true" else "false"
  | .string text => Literal.quote text
  | .bytes content => Literal.quote (Text.lossy content)

/-- Whether a parameter has a text. Infinity, and what is no number, have none. -/
def hasText : Param → Bool
  | .float x => x.isFinite
  | _ => true

end Param

/-- Why parameters cannot be bound. Placeholders and parameters are counted from zero. -/
inductive BindError where
  | missingParameter (index : Nat)
  | extraParameters (expected given : Nat)
  | nonFiniteFloat (index : Nat)
  deriving DecidableEq, Repr

/-- The error in words. -/
def BindError.message : BindError → String
  | .missingParameter index => "no parameter for placeholder " ++ Decimal.ofNat index
  | .extraParameters expected given =>
    Decimal.ofNat given ++ " parameters supplied for " ++ Decimal.ofNat expected ++ " placeholders"
  | .nonFiniteFloat index => "parameter " ++ Decimal.ofNat index ++ " is not a finite number"

namespace Binding

/-- Where a character of a statement stands. -/
inductive Place where
  | outside
  | inside (quote : Char)
  /-- Inside a literal, behind a backslash. -/
  | escaped (quote : Char)
  deriving DecidableEq, Repr

/-- The place behind a character. -/
def Place.step (c : Char) : Place → Place
  | .outside => if c = '"' ∨ c = '\'' then .inside c else .outside
  | .inside quote =>
    if c = '\\' then .escaped quote else if c = quote then .outside else .inside quote
  | .escaped quote => .inside quote

/-- Whether a character is a placeholder in its place. -/
def Place.isPlaceholder (c : Char) (place : Place) : Bool :=
  place = .outside && c = '?'

/-- Binds the parameters that are left to the characters that are left, once `used` parameters are
bound. -/
def bindFrom (place : Place) (used : Nat) : List Char → List Param → Except BindError (List Char)
  | [], [] => .ok []
  | [], params => .error (.extraParameters used (used + params.length))
  | c :: cs, params =>
    if place.isPlaceholder c then
      match params with
      | [] => .error (.missingParameter used)
      | p :: params =>
        if p.hasText then do
          let rest ← bindFrom .outside (used + 1) cs params
          return p.render.toList ++ rest
        else .error (.nonFiniteFloat used)
    else do
      let rest ← bindFrom (place.step c) used cs params
      return c :: rest

end Binding

/-- The statement with the parameters in the place of its placeholders. -/
def bind (statement : String) (params : List Param) : Except BindError String :=
  (Binding.bindFrom .outside 0 statement.toList params).map String.ofList

end ItemSql
