import ItemSql.Text.Blank
import ItemSql.Text.Letter
import ItemSql.Token

/-!
# Scanning a statement into tokens

Every text has tokens: white space is passed over, a known token is taken as long as it goes on, and
a character that begins none is an unknown token of its own. A string that is never closed is one
unknown token to the end of the text. The last token is the end of the input.

A token is found in two steps. `measure` looks at the text from the token's first character on and
answers its class and how many characters go on it. `scanFrom` cuts it off. Since `scanFrom` then
steps over those characters one by one, it is a recursion on the text itself.
-/

namespace ItemSql.Token

/-! ## Numbers -/

/-- The number of ASCII digits at the front. -/
def digitRun (cs : List Char) : Nat :=
  (cs.takeWhile Char.isDigit).length

/-- The length of a fraction at the front: a point and the digits behind it, if there are any. -/
def fractionRun : List Char → Nat
  | '.' :: cs => if digitRun cs = 0 then 0 else digitRun cs + 1
  | _ => 0

/-- The length of a sign at the front. -/
def signRun : List Char → Nat
  | '+' :: _ => 1
  | '-' :: _ => 1
  | _ => 0

/-- The length of what follows the mark of an exponent: an optional sign and digits. Nothing does
without digits. -/
def powerRun (cs : List Char) : Nat :=
  let sign := signRun cs
  let power := digitRun (cs.drop sign)
  if power = 0 then 0 else sign + power

/-- The length of an exponent at the front. -/
def exponentRun : List Char → Nat
  | c :: cs => if (c = 'e' ∨ c = 'E') ∧ powerRun cs ≠ 0 then powerRun cs + 1 else 0
  | [] => 0

/-- The length of a number at the front: digits, then a fraction and an exponent if there are
any. -/
def numberRun (cs : List Char) : Nat :=
  let whole := digitRun cs
  let fraction := fractionRun (cs.drop whole)
  whole + fraction + exponentRun (cs.drop (whole + fraction))

/-! ## Strings -/

/-- The number of characters up to and with the closing quote. A backslash keeps the character
after it from closing the string. -/
def closing (quote : Char) : List Char → Option Nat
  | [] => none
  | ['\\'] => none
  | '\\' :: _ :: cs => (closing quote cs).map (· + 2)
  | c :: cs => if c = quote then some 1 else (closing quote cs).map (· + 1)

/-! ## Words -/

/-- The number of characters at the front that go on a word. -/
def wordRun (cs : List Char) : Nat :=
  (cs.takeWhile Text.continuesWord).length

/-! ## All tokens -/

/-- The class of the token that begins with `c`, and how many of the characters `cs` after it go
on it. -/
def measure (c : Char) (cs : List Char) : Kind × Nat :=
  if c = '*' then (.wildcard, 0)
  else if c = ',' then (.comma, 0)
  else if c = ';' then (.semicolon, 0)
  else if c = '(' then (.leftParen, 0)
  else if c = ')' then (.rightParen, 0)
  else if c = '=' then (.operator, 0)
  else if c = '<' ∨ c = '>' then (.operator, if cs.head? = some '=' then 1 else 0)
  else if c = '"' ∨ c = '\'' then
    match closing c cs with
    | some n => (.string, n)
    | none => (.unknown, cs.length)
  else if c = '-' then
    if digitRun cs = 0 then (.unknown, 0) else (.number, numberRun cs)
  else if c.isDigit then (.number, numberRun (c :: cs) - 1)
  else if Text.beginsWord c then
    (wordKind (String.ofList (c :: cs.take (wordRun cs))), wordRun cs)
  else (.unknown, 0)

/-- The tokens of a text that begins at the given byte offset, after the given number of characters
that still belong to the token before. -/
def scanFrom : (inside offset : Nat) → List Char → List Token
  | _, offset, [] => [⟨.endOfInput, "", offset⟩]
  | inside + 1, offset, c :: cs => scanFrom inside (offset + c.utf8Size) cs
  | 0, offset, c :: cs =>
    if Text.isBlank c then scanFrom 0 (offset + c.utf8Size) cs
    else
      let (kind, more) := measure c cs
      ⟨kind, String.ofList (c :: cs.take more), offset⟩ ::
        scanFrom more (offset + c.utf8Size) cs

/-- The tokens of a statement. -/
def scan (source : String) : List Token :=
  scanFrom 0 0 source.toList

end ItemSql.Token
