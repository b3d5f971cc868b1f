import ItemSql.Statement.Error
import ItemSql.Token.Scan

/-!
# Parsers over tokens

A parser takes tokens from the front of a list and answers a value or the cause of a failure, in
either case with the tokens that are left. A failing parser has taken the token that made it fail,
so the tokens left tell where that was.

A list of elements with separators between them is read in rounds. Each round takes an element and a
separator, so there cannot be more rounds than tokens.
-/

namespace ItemSql

/-- What comes of parsing. -/
inductive Outcome (α : Type) where
  | done (a : α) (rest : List Token)
  | failed (cause : SyntaxError.Cause) (rest : List Token)
  deriving DecidableEq, Repr

/-- A parser of a type. -/
def Parser (α : Type) : Type := List Token → Outcome α

namespace Parser

variable {α β : Type}

/-- Takes nothing. -/
def done (a : α) : Parser α := fun ts ↦ .done a ts

/-- Parses one thing and then another, which may depend on the first. -/
def andThen (p : Parser α) (f : α → Parser β) : Parser β := fun ts ↦
  match p ts with
  | .done a rest => f a rest
  | .failed cause rest => .failed cause rest

/-- Fails without taking a token. -/
def fail (cause : SyntaxError.Cause) : Parser α := fun ts ↦ .failed cause ts

instance : Monad Parser where
  pure := done
  bind := andThen

@[simp] theorem pure_apply (a : α) (ts : List Token) : (pure a : Parser α) ts = .done a ts := rfl

@[simp] theorem bind_apply (p : Parser α) (f : α → Parser β) (ts : List Token) :
    (p >>= f) ts =
      match p ts with
      | .done a rest => f a rest
      | .failed cause rest => .failed cause rest := rfl

/-! ## Single tokens -/

/-- The token behind all others. -/
def lastToken : Token := ⟨.endOfInput, "", 0⟩

/-- Takes a token. -/
def next : Parser Token
  | [] => .done lastToken []
  | t :: rest => .done t rest

/-- Looks at the next token without taking it. -/
def peek : Parser Token := fun ts ↦ .done (ts.headD lastToken) ts

/-- Refuses a token that was taken. -/
def unexpected (t : Token) (expected : Expected) : Parser α :=
  fail (.unexpectedToken t.text t.kind expected)

/-- Takes a token of a class and answers its text. -/
def expect (kind : Token.Kind) : Parser String := do
  let t ← next
  if t.kind = kind then return t.text else unexpected t (.kind kind)

/-- Whether a token is the keyword, in any letter case. -/
def isKeyword (t : Token) (word : String) : Bool :=
  t.kind = .keyword && Text.lowerAscii t.text = word

/-- Takes a keyword. -/
def expectKeyword (word : String) : Parser Unit := do
  let t ← next
  if isKeyword t word then return () else unexpected t (.keyword word)

/-- Takes the next token if it passes the test, and answers whether it did. -/
def eatIf (test : Token → Bool) : Parser Bool := do
  let t ← peek
  if test t then
    let _ ← next
    return true
  else return false

/-- Takes a token of a class, if it is next. -/
def eat (kind : Token.Kind) : Parser Bool := eatIf (·.kind = kind)

/-- Takes a keyword, if it is next. -/
def eatKeyword (word : String) : Parser Bool := eatIf (isKeyword · word)

/-! ## Lists of elements -/

/-- One element, and another one each time a separator is taken, for so many rounds at most. -/
def chainUpTo (element : Parser α) (separator : Parser Bool) : (rounds : Nat) → Parser (List α)
  | 0 => do return [← element]
  | rounds + 1 => do
    let a ← element
    if ← separator then
      let more ← chainUpTo element separator rounds
      return a :: more
    else return [a]

/-- One element, and another one each time a separator is taken. -/
def chain (element : Parser α) (separator : Parser Bool) : Parser (List α) := fun ts ↦
  chainUpTo element separator ts.length ts

end Parser

end ItemSql
