import ItemSql.Json.Numeral
import ItemSql.Text.Glyph
import ItemSql.Text.Hex

/-!
# The lexemes of a JSON text

A text is cut into brackets, separators, words, numbers and strings. Where it stops being JSON the
lexemes stop too, and the last one says what is wrong: the text is *malformed* there, or it is
*truncated*, that is, it ended where it had to go on.

A value can be *read* or merely *passed over*, and the two do not find the same faults. A string
that is passed over may hold bytes that are not UTF-8 and surrogates that stand alone. A number that
is passed over must be whole, while one that is read may be cut short by the end of the text, which
then counts as truncated. So a lexeme keeps what either would find.
-/

namespace ItemSql.Json

open Text (Glyph)

/-- Why a text cannot be read on. -/
inductive Fault where
  /-- The text ends too early. -/
  | truncated
  /-- The text is no JSON. -/
  | malformed
  /-- No value stands where one is due. -/
  | noValue
  /-- More stands behind what is due. -/
  | trailing
  deriving DecidableEq, Repr

/-- What stands where a value cannot be read. -/
inductive Remnant where
  | nothing
  /-- A string that is never closed. -/
  | openString
  /-- The beginning of `null`. -/
  | openNull
  | other
  deriving DecidableEq, Repr

/-- A place where a value cannot be read, with what is found when it is read and when it is passed
over. -/
structure Cut where
  read : Fault
  skipped : Fault
  remnant : Remnant
  deriving DecidableEq, Repr

/-- The place of something else than a value. -/
def Cut.other (read skipped : Fault) : Cut :=
  ⟨read, skipped, .other⟩

/-- A lexeme of a JSON text. -/
inductive Lexeme where
  | openBrace
  | closeBrace
  | openBracket
  | closeBracket
  | colon
  | comma
  | null
  | bool (b : Bool)
  | number (n : Numeral)
  /-- A string, with its text or what is wrong when it is read. -/
  | string (text : Except Fault String)
  | cut (c : Cut)

/-! ## Strings -/

/-- A piece of a string: a character, a code unit of UTF-16 from an escape, or bytes that spell no
character. -/
inductive Piece where
  | char (c : Char)
  | unit (n : Nat)
  | stray
  deriving DecidableEq, Repr

namespace Piece

/-- Whether a code unit begins a pair of surrogates. -/
def leads (n : Nat) : Bool := 0xD800 ≤ n && n < 0xDC00

/-- Whether a code unit ends a pair of surrogates. -/
def trails (n : Nat) : Bool := 0xDC00 ≤ n && n < 0xE000

/-- The character of a pair of surrogates. -/
def join (lead trail : Nat) : Char :=
  Char.ofNat (0x10000 + (lead - 0xD800) * 0x400 + (trail - 0xDC00))

/-- The characters that the pieces of a whole string spell, if all surrogates are paired and all
bytes are UTF-8. -/
def spell? : List Piece → Option (List Char)
  | [] => some []
  | .char c :: rest => (spell? rest).map (c :: ·)
  | .unit lead :: .unit trail :: rest =>
    if leads lead then
      if trails trail then (spell? rest).map (join lead trail :: ·) else none
    else if trails lead then none
    else (spell? (.unit trail :: rest)).map (Char.ofNat lead :: ·)
  | .unit n :: rest =>
    if leads n || trails n then none else (spell? rest).map (Char.ofNat n :: ·)
  | .stray :: _ => none

/-- Whether a surrogate stands alone in the pieces of a string that was cut off. One at the very end
may still have been paired. -/
def hasLone : List Piece → Bool
  | [] => false
  | [.unit n] => trails n
  | .unit lead :: .unit trail :: rest =>
    if leads lead then !trails trail || hasLone rest
    else trails lead || hasLone (.unit trail :: rest)
  | .unit n :: rest => leads n || trails n || hasLone rest
  | _ :: rest => hasLone rest

end Piece

/-- The code unit of four hexadecimal digits. -/
def codeUnit? (a b c d : Char) : Option Nat := do
  let a ← Text.hexValue? a
  let b ← Text.hexValue? b
  let c ← Text.hexValue? c
  let d ← Text.hexValue? d
  return ((a * 16 + b) * 16 + c) * 16 + d

/-- The character that a letter behind a backslash stands for. -/
def unescape? (c : Char) : Option Char :=
  if c = '"' ∨ c = '\\' ∨ c = '/' then some c
  else if c = 'b' then some '\x08'
  else if c = 'f' then some '\x0c'
  else if c = 'n' then some '\n'
  else if c = 'r' then some '\r'
  else if c = 't' then some '\t'
  else none

/-- What is found of a string behind its opening quote: its pieces, and how many glyphs it takes to
the closing quote or why it has none. -/
structure Body where
  pieces : List Piece
  ending : Except Fault Nat

/-- The body with a piece before it that takes `n` glyphs. -/
def Body.cons (piece : Piece) (n : Nat) (b : Body) : Body :=
  ⟨piece :: b.pieces, b.ending.map (n + ·)⟩

/-- The body that stops at once. -/
def Body.stop (f : Fault) : Body :=
  ⟨[], .error f⟩

/-- Finds the body of a string. Four bytes are taken for the digits of an escape before they are
looked at, so an escape near the end of the text is truncated whatever it holds. -/
def body : List Glyph → Body
  | [] => .stop .truncated
  | .char '"' :: _ => ⟨[], .ok 1⟩
  | [.char '\\'] => .stop .truncated
  | .char '\\' :: .char 'u' :: .char a :: .char b :: .char c :: .char d :: rest =>
    match codeUnit? a b c d with
    | some n => (body rest).cons (.unit n) 6
    | none => .stop .malformed
  | .char '\\' :: .char 'u' :: rest =>
    .stop (if Glyph.totalSize rest < 4 then .truncated else .malformed)
  | .char '\\' :: .char c :: rest =>
    match unescape? c with
    | some e => (body rest).cons (.char e) 2
    | none => .stop .malformed
  | .char '\\' :: .stray _ :: _ => .stop .malformed
  | .char c :: rest =>
    if c.toNat < 0x20 then .stop .malformed else (body rest).cons (.char c) 1
  | .stray _ :: rest => (body rest).cons .stray 1

/-! ## Numbers -/

/-- The digits at the front. -/
def frontDigits : List Glyph → List Nat
  | .char c :: rest => if c.isDigit then (c.toNat - 0x30) :: frontDigits rest else []
  | _ => []

/-- What is found when digits are due and none are there. -/
def noDigits (rest : List Glyph) : Cut :=
  match rest with
  | [] => .other .truncated .malformed
  | _ => .other .malformed .malformed

/-- The digits of the integer part. Nothing goes before a zero or after a leading one. -/
def wholePart (rest : List Glyph) : Except Cut (List Nat) :=
  match frontDigits rest with
  | [] => .error (noDigits rest)
  | [0] => .ok [0]
  | 0 :: _ => .error (.other .malformed .malformed)
  | ds => .ok ds

/-- The digits of a fraction, if a point begins one. -/
def fractionPart : List Glyph → Except Cut (Option (List Nat))
  | .char '.' :: rest =>
    match frontDigits rest with
    | [] => .error (noDigits rest)
    | ds => .ok (some ds)
  | _ => .ok none

/-- The sign of an exponent and the number of glyphs it takes. -/
def exponentSign : List Glyph → Bool × Nat
  | .char '+' :: _ => (false, 1)
  | .char '-' :: _ => (true, 1)
  | _ => (false, 0)

/-- The exponent, if a mark begins one, and the number of glyphs it takes. -/
def exponentPart : List Glyph → Except Cut (Option Int × Nat)
  | .char c :: rest =>
    if c = 'e' ∨ c = 'E' then
      let (negative, signed) := exponentSign rest
      match frontDigits (rest.drop signed) with
      | [] => .error (noDigits (rest.drop signed))
      | ds =>
        let n : Int := (ds.foldl (fun v d ↦ 10 * v + d) 0 : Nat)
        .ok (some (if negative then -n else n), 1 + signed + ds.length)
    else .ok (none, 0)
  | _ => .ok (none, 0)

/-- Reads a number behind its sign, and how many glyphs it takes. -/
def numeral (negative : Bool) (rest : List Glyph) : Except Cut (Numeral × Nat) := do
  let whole ← wholePart rest
  let rest := rest.drop whole.length
  let fraction? ← fractionPart rest
  let fractionSize := (fraction?.map fun ds ↦ ds.length + 1).getD 0
  let (exponent?, exponentSize) ← exponentPart (rest.drop fractionSize)
  return (⟨negative, whole, fraction?, exponent?⟩, whole.length + fractionSize + exponentSize)

/-! ## All lexemes -/

/-- Whether a glyph merely separates lexemes. -/
def isSpace : Glyph → Bool
  | .char c => c = ' ' || c = '\t' || c = '\n' || c = '\r'
  | .stray _ => false

/-- The lexeme of a word whose other letters are due. The remnant is what a beginning of the word
leaves. -/
def word (due : List Char) (lexeme : Lexeme) (remnant : Remnant) (rest : List Glyph) :
    Lexeme × Nat :=
  let due := due.map Glyph.char
  if due.isPrefixOf rest then (lexeme, due.length)
  else if rest.isPrefixOf due then (.cut ⟨.truncated, .truncated, remnant⟩, 0)
  else (.cut (.other .malformed .malformed), 0)

/-- The lexeme of a string behind its opening quote. -/
def stringLexeme (rest : List Glyph) : Lexeme × Nat :=
  let b := body rest
  match b.ending with
  | .ok n =>
    let text :=
      match Piece.spell? b.pieces with
      | some cs => .ok (String.ofList cs)
      | none => .error .malformed
    (.string text, n)
  | .error f => (.cut ⟨if Piece.hasLone b.pieces then .malformed else f, f, .openString⟩, 0)

/-- The lexeme of a number behind its sign. -/
def numberLexeme (negative : Bool) (rest : List Glyph) : Lexeme × Nat :=
  match numeral negative rest with
  | .ok (n, size) => (.number n, size)
  | .error c => (.cut c, 0)

/-- The lexeme that begins with `g`, and how many of the glyphs behind it go on it. -/
def lexeme (g : Glyph) (rest : List Glyph) : Lexeme × Nat :=
  match g with
  | .char '\x7b' => (.openBrace, 0)
  | .char '\x7d' => (.closeBrace, 0)
  | .char '[' => (.openBracket, 0)
  | .char ']' => (.closeBracket, 0)
  | .char ':' => (.colon, 0)
  | .char ',' => (.comma, 0)
  | .char 'n' => word ['u', 'l', 'l'] .null .openNull rest
  | .char 't' => word ['r', 'u', 'e'] (.bool true) .other rest
  | .char 'f' => word ['a', 'l', 's', 'e'] (.bool false) .other rest
  | .char '"' => stringLexeme rest
  | .char '-' => numberLexeme true rest
  | .char c =>
    if c.isDigit then
      let (l, n) := numberLexeme false (g :: rest)
      (l, n - 1)
    else (.cut (.other .noValue .malformed), 0)
  | .stray _ => (.cut (.other .noValue .malformed), 0)

/-- The lexemes of the glyphs, after the given number of glyphs that still belong to the lexeme
before. -/
def lexemesFrom : (inside : Nat) → List Glyph → List Lexeme
  | _, [] => []
  | inside + 1, _ :: rest => lexemesFrom inside rest
  | 0, g :: rest =>
    if isSpace g then lexemesFrom 0 rest
    else
      match lexeme g rest with
      | (.cut c, _) => [.cut c]
      | (l, n) => l :: lexemesFrom n rest

/-- The lexemes of a text. -/
def lexemes (glyphs : List Glyph) : List Lexeme :=
  lexemesFrom 0 glyphs

end ItemSql.Json
