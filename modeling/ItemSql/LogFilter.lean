import ItemSql.Decimal.Double
import ItemSql.LogFilter.Pattern

/-!
# Filters of log messages

A filter is a list of directives with commas between them. A directive is a level, or names the
messages it is about, by their target, by their span or by both, and may end in an equals sign and
a level. A span may name a field and the value that the field has. Directives of no text do not
matter. Only what is wrong with a filter is asked here.

A directive may stand between white space. Its pieces, however, are cut from the text with the white
space, at the places that they have in the text without it, and places are counted in bytes. So
white space does no harm only to a directive that is cut nowhere. Elsewhere the pieces are shifted,
and if the white space is not ASCII a cut may even fall inside a character. That is no matter of
form, so it is told apart from a directive that is malformed.
-/

namespace ItemSql.LogFilter

/-! ## The pieces of a directive -/

/-- The names of the levels. -/
def levels : List (List Char) :=
  ["error", "warn", "info", "debug", "trace", "off"].map String.toList

/-- The greatest number of a level. -/
def greatestLevel : Nat := 5

/-- Whether a text is a level: its name in any letter case, its number, or nothing. -/
def isLevel (cs : List Char) : Bool :=
  cs.isEmpty || levels.contains (cs.map Char.toLower) ||
    match cs with
    | '+' :: ds => (Decimal.natural? ds).any (· ≤ greatestLevel)
    | ds => (Decimal.natural? ds).any (· ≤ greatestLevel)

/-- Whether a character can begin a target. -/
def beginsTarget (c : Char) : Bool :=
  c = '-' || c = ':' || c = '_' || Text.isLetter c || Text.isNumeral c

/-- Whether a text is the value of a field: a number or a pattern. -/
def isValue (cs : List Char) : Bool :=
  (Decimal.double? (String.ofList cs)).isSome || Pattern.isWellFormed cs

/-- Whether a text is a field: a name, which may have a value behind an equals sign. A second equals
sign ends the value, and what follows does not matter. -/
def isField (cs : List Char) : Bool :=
  match cs.dropWhile (· ≠ '=') with
  | [] => !cs.isEmpty
  | _ :: rest => isValue (rest.takeWhile (· ≠ '='))

/-! ## Directives -/

/-- What is wrong with a directive. -/
inductive Fault where
  /-- The text is no directive. -/
  | malformed
  /-- The text is cut inside a character. -/
  | splitCharacter
  deriving DecidableEq, Repr

/-- The text before a place and the text from there on. A place behind the end counts as the end. -/
def cut : (place : Nat) → List Char → Except Fault (List Char × List Char)
  | 0, cs => .ok ([], cs)
  | _ + 1, [] => .ok ([], [])
  | place + 1, c :: cs =>
    if c.utf8Size ≤ place + 1 then
      (cut (place + 1 - c.utf8Size) cs).map fun (before, rest) ↦ (c :: before, rest)
    else .error .splitCharacter

/-- The text between two places. -/
def piece (directive : List Char) (start stop : Nat) : Except Fault (List Char) := do
  let (before, _) ← cut stop directive
  let (_, between) ← cut start before
  return between

/-- What a directive has been read to. Of a span, a field and a level, the place where it starts is
kept. -/
inductive State where
  | start
  | target
  | span (origin : Nat)
  | field (origin : Nat)
  | behindField
  | behindSpan
  | level (origin : Nat)
  deriving DecidableEq, Repr

/-- What does not hold makes a directive malformed. -/
def require (condition : Bool) : Except Fault Unit :=
  if condition then .ok () else .error .malformed

namespace State

/-- Reads the character at a place of a directive. -/
def read (directive : List Char) (place : Nat) (s : State) (c : Char) : Except Fault State :=
  match s with
  | .start =>
    if c = '[' then return .span (place + 1)
    else do
      require (beginsTarget c)
      return .target
  | .target =>
    if c = '=' then do
      let _ ← piece directive 0 place
      return .level (place + 1)
    else if c = '[' then do
      let _ ← piece directive 0 place
      return .span (place + 1)
    else return .target
  | .span origin =>
    if c = ']' then do
      let _ ← piece directive origin place
      return .behindSpan
    else if c = '\x7b' then do
      let _ ← piece directive origin place
      return .field (place + 1)
    else return .span origin
  | .field origin =>
    if c = '\x7d' then do
      let field ← piece directive origin place
      require (isField field)
      return .behindField
    else return .field origin
  | .behindField => do
    require (c = ']')
    return .behindSpan
  | .behindSpan => do
    require (c = '=')
    return .level (place + 1)
  | .level origin => return .level origin

/-- Reads the characters from a place on. -/
def readAll (directive : List Char) : (place : Nat) → State → List Char → Except Fault State
  | _, s, [] => return s
  | place, s, c :: cs => do
    readAll directive (place + c.utf8Size) (← s.read directive place c) cs

/-- A directive may end behind a target, a span or a level. -/
def finish (directive : List Char) : State → Except Fault Unit
  | .target => return
  | .behindSpan => return
  | .level origin => do
    let (_, text) ← cut origin directive
    require (isLevel text)
  | _ => .error .malformed

end State

/-- Reads a directive. -/
def readDirective (directive : List Char) : Except Fault Unit := do
  let s ← State.start.readAll directive 0 (Text.trimChars directive)
  s.finish directive

/-! ## Filters -/

/-- The parts of a text between commas. -/
def splitCommas : List Char → List (List Char)
  | [] => [[]]
  | c :: cs =>
    match splitCommas cs with
    | [] => [[c]]
    | part :: parts => if c = ',' then [] :: part :: parts else (c :: part) :: parts

/-- The directives of a filter. -/
def directives (filter : String) : List (List Char) :=
  (splitCommas filter.toList).filter (· ≠ [])

/-- What is wrong with a directive, if anything is. -/
def fault? (directive : List Char) : Option Fault :=
  match readDirective directive with
  | .ok () => none
  | .error fault => some fault

/-- What is wrong with the directives of a filter, in their order. A filter is well formed if there
is nothing. -/
def faults (filter : String) : List Fault :=
  (directives filter).filterMap fault?

end ItemSql.LogFilter
