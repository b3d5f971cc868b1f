import ItemSql.Text.Blank
import ItemSql.Text.Hex
import ItemSql.Text.Letter

/-!
# Patterns

A pattern is a regular expression, which the value of a field is to match. Only whether it is well
formed is asked here, so reading one builds no tree. It gives how deep the parts of the pattern are
nested, because that has a limit.

A pattern is read in a *mode*. The flags of a group set the mode for the group, and flags alone in
parentheses set it for what follows in their group. Two things keep a pattern from being used
although its text can be read. It must not need a table of Unicode properties, so the classes of
words, digits and spaces, and letters in either case, are there for ASCII only. And it must match
whole characters only: with characters of ASCII, whatever would match some single byte beyond ASCII
is refused.
-/

namespace ItemSql.LogFilter.Pattern

/-! ## Modes -/

/-- How a pattern is read at one of its places. -/
structure Mode where
  /-- Whether letters match in either case. -/
  caseless : Bool := false
  /-- Whether the characters are those of Unicode rather than those of ASCII. -/
  unicode : Bool := true
  /-- Whether white space and comments merely set the pattern out. -/
  spaced : Bool := false

/-- The flags. The dash turns off those behind it. -/
def flagChars : List Char :=
  ['i', 'm', 's', 'U', 'u', 'R', 'x', '-']

/-- Whether a text is a sequence of flags: none is there twice, and the dash turns off something. -/
def areFlags (cs : List Char) : Bool :=
  cs.all flagChars.contains && cs.Nodup && cs.getLast? ≠ some '-'

/-- What stands for itself in a pattern. -/
structure Literal where
  char : Char
  /-- Whether it is written as a byte, by two hexadecimal digits. -/
  isByte : Bool := false

namespace Mode

/-- The mode that flags make of a mode. -/
def set (m : Mode) (flags : List Char) : Mode :=
  let on := flags.takeWhile (· ≠ '-')
  let value (flag : Char) (before : Bool) := on.contains flag || before && !flags.contains flag
  ⟨value 'i' m.caseless, value 'u' m.unicode, value 'x' m.spaced⟩

/-- Whether a literal may stand outside a class. Among the letters of Unicode the other case would
take a table, and a byte beyond ASCII is no whole character. -/
def allowsLiteral (m : Mode) (l : Literal) : Bool :=
  if m.unicode then !m.caseless else !l.isByte || l.char.toNat < 0x80

/-- Whether a literal may stand in a class. A class of ASCII holds no other character. -/
def allowsMember (m : Mode) (l : Literal) : Bool :=
  if m.unicode then !m.caseless else l.char.toNat < 0x80

/-- Whether a class that is named in full may stand in a class. Among the characters of ASCII the
negation of one would hold bytes beyond ASCII. -/
def allowsNamed (m : Mode) (negated : Bool) : Bool :=
  if m.unicode then !m.caseless else !negated

/-- Whether a class that is named by one letter may stand anywhere. In Unicode it would take a
table. -/
def allowsShorthand (m : Mode) (negated : Bool) : Bool :=
  !m.unicode && !negated

/-- Whether a class in brackets may be negated. -/
def allowsNegation (m : Mode) : Bool :=
  m.unicode

/-- Whether the point, which matches any character, may stand. -/
def allowsAny (m : Mode) : Bool :=
  m.unicode

/-- Whether an assertion may stand. One about the bounds of words would take a table in Unicode. -/
def allowsAssertion (m : Mode) (aboutWords : Bool) : Bool :=
  !aboutWords || !m.unicode

end Mode

/-! ## Reading -/

/-- Where a pattern has been read to. -/
structure Place where
  rest : List Char
  mode : Mode := {}
  /-- The names of groups so far. -/
  names : List (List Char) := []

/-- A reader of a part of a pattern. It fails where the pattern is not well formed. -/
abbrev Reader := StateT Place Option

/-- Goes on with another rest. -/
def moveTo (rest : List Char) : Reader Unit :=
  modify fun p ↦ { p with rest }

/-- Goes on in another mode. -/
def setMode (mode : Mode) : Reader Unit :=
  modify fun p ↦ { p with mode }

/-- Takes the next character. -/
def next : Reader Char := do
  match (← get).rest with
  | [] => failure
  | c :: rest =>
    moveTo rest
    return c

/-- The text without the white space and comments at its front. -/
def dropLayout : (inComment : Bool) → List Char → List Char
  | _, [] => []
  | true, c :: rest => dropLayout (c ≠ '\n') rest
  | false, c :: rest =>
    if c = '#' then dropLayout true rest
    else if Text.isBlank c then dropLayout false rest
    else c :: rest

/-- Passes over what merely sets the pattern out. -/
def skipLayout : Reader Unit := do
  let p ← get
  if p.mode.spaced then moveTo (dropLayout false p.rest)

/-! ## Depths -/

/-- How deep parts are nested that stand beside each other. A part alone is not nested in
anything. -/
def together : List Nat → Nat
  | [] => 0
  | [depth] => depth
  | depths => depths.foldl max 0 + 1

/-- The greatest depth. -/
def depthLimit : Nat := 250

/-! ## Escapes -/

/-- What an escape stands for. -/
inductive Escape where
  | literal (l : Literal)
  /-- A class of characters that is named by one letter. -/
  | shorthand (negated : Bool)
  /-- A condition on a place between characters. -/
  | assertion (aboutWords : Bool)

/-- Reads the digits of a hexadecimal number, behind those that make `n`. -/
def hexNumber : (digits : Nat) → (n : Nat) → Reader Nat
  | 0, n => return n
  | digits + 1, n => do
    skipLayout
    let digit ← Text.hexValue? (← next)
    hexNumber digits (16 * n + digit)

/-- Reads a character that is written by its number. -/
def numbered (digits : Nat) : Reader Char := do
  let n ← hexNumber digits 0
  guard n.isValidChar
  return Char.ofNat n

/-- The character that a letter behind a backslash stands for. -/
def control? (c : Char) : Option Char :=
  if c = 'a' then some '\x07'
  else if c = 'f' then some '\x0c'
  else if c = 'n' then some '\n'
  else if c = 'r' then some '\r'
  else if c = 't' then some '\t'
  else if c = 'v' then some '\x0b'
  else none

/-- Reads an escape behind its backslash. What is neither a letter nor a digit may be escaped
although it need not be, if it is ASCII. -/
def escape : Reader Escape := do
  let c ← next
  if c = 'x' then return .literal ⟨← numbered 2, true⟩
  else if c = 'u' then return .literal ⟨← numbered 4, false⟩
  else if c = 'U' then return .literal ⟨← numbered 8, false⟩
  else if ['d', 's', 'w'].contains c then return .shorthand false
  else if ['D', 'S', 'W'].contains c then return .shorthand true
  else if ['A', 'z'].contains c then return .assertion false
  else if ['b', 'B', '<', '>'].contains c then return .assertion true
  else if c.toNat < 0x80 && !c.isAlphanum then return .literal ⟨c, false⟩
  else return .literal ⟨← control? c, false⟩

/-! ## Classes -/

/-- The names of classes. -/
def classNames : List (List Char) :=
  ["alnum", "alpha", "ascii", "blank", "cntrl", "digit", "graph", "lower", "print", "punct",
   "space", "upper", "word", "xdigit"].map String.toList

/-- The named class at the front of what stands behind a bracket: whether it is negated, and what
follows it. -/
def named? : List Char → Option (Bool × List Char)
  | ':' :: rest =>
    let (negated, rest) :=
      match rest with
      | '^' :: rest => (true, rest)
      | _ => (false, rest)
    match rest.dropWhile (· ≠ ':') with
    | ':' :: ']' :: behind =>
      if classNames.contains (rest.takeWhile (· ≠ ':')) then some (negated, behind) else none
    | _ => none
  | _ => none

/-- Whether a dash comes next that joins the ends of a range. It does not if a bracket or another
dash follows it. Where a comment follows it, the first character of the comment decides. -/
def joins (m : Mode) : List Char → Bool
  | '-' :: rest =>
    let behind :=
      if m.spaced then
        match rest.dropWhile Text.isBlank with
        | '#' :: comment => comment.dropWhile Text.isBlank
        | behind => behind
      else rest
    behind.head? ≠ some ']' && behind.head? ≠ some '-'
  | _ => false

/-- Reads one end of a range, or what stands alone in a class. -/
def rangeEnd : Reader Escape := do
  let c ← next
  if c = '\\' then escape else return .literal ⟨c, false⟩

/-- Reads a member of a class that is no class in brackets. -/
def member : Reader Unit := do
  let low ← rangeEnd
  skipLayout
  let p ← get
  if joins p.mode p.rest then
    moveTo (p.rest.drop 1)
    skipLayout
    match low, ← rangeEnd with
    | .literal low, .literal high =>
      guard (p.mode.allowsMember low && p.mode.allowsMember high && low.char ≤ high.char)
    | _, _ => failure
  else
    match low with
    | .literal l => guard (p.mode.allowsMember l)
    | .shorthand negated => guard (p.mode.allowsShorthand negated)
    | .assertion _ => failure

/-- Reads whether a class is negated, behind its bracket. -/
def negation : Reader Unit := do
  skipLayout
  let p ← get
  match p.rest with
  | '^' :: rest =>
    guard p.mode.allowsNegation
    moveTo rest
  | _ => return

/-- The depth of an operand and of the operation to its left, if there is one. -/
def operated (left? : Option Nat) (depth : Nat) : Nat :=
  match left? with
  | none => depth
  | some left => max left depth + 1

/-- Reads a class up to its closing bracket, behind some of its members, and gives its depth. At the
opening a dash is a member, and so is a closing bracket if it comes first. The sign of an operation,
which is written twice, ends an operand. -/
def members :
    (fuel : Nat) → (opening : Bool) → (left? : Option Nat) → (depths : List Nat) → Reader Nat
  | 0, _, _, _ => failure
  | fuel + 1, opening, left?, depths => do
    skipLayout
    let p ← get
    let operand := operated left? (together depths)
    match p.rest with
    | [] => failure
    | c :: rest =>
      if opening && (c = '-' || c = ']' && depths.isEmpty) then
        guard (p.mode.allowsMember ⟨c, false⟩)
        moveTo rest
        members fuel (c = '-') left? (0 :: depths)
      else if c = ']' then
        moveTo rest
        return operand + 1
      else if ['&', '-', '~'].contains c && rest.head? = some c then
        moveTo (rest.drop 1)
        members fuel false (some operand) []
      else if c = '[' then
        match named? rest with
        | some (negated, behind) =>
          guard (p.mode.allowsNamed negated)
          moveTo behind
          members fuel false left? (0 :: depths)
        | none =>
          moveTo rest
          negation
          let depth ← members fuel true none []
          members fuel false left? (depth :: depths)
      else
        member
        members fuel false left? (0 :: depths)

/-! ## Groups -/

/-- What stands behind an opening parenthesis. -/
inductive Opening where
  /-- The start of a group and its mode. -/
  | group (mode : Mode)
  /-- Flags alone, up to the closing parenthesis, and the mode they set. -/
  | flags (mode : Mode)

/-- Whether a text can name a group. -/
def isGroupName : List Char → Bool
  | [] => false
  | c :: cs => Text.beginsWord c && cs.all fun c ↦ Text.continuesWord c || ".[]".contains c

/-- Reads the name of a group, which no other group has. -/
def groupName : Reader Unit := do
  let p ← get
  let name := p.rest.takeWhile (· ≠ '>')
  guard (isGroupName name && !p.names.contains name)
  match p.rest.drop name.length with
  | [] => failure
  | _ :: rest => set { p with rest, names := name :: p.names }

/-- Reads flags and the mode they make. -/
def flagged : Reader Opening := do
  let p ← get
  let flags := p.rest.takeWhile fun c ↦ c ≠ ':' && c ≠ ')'
  guard (areFlags flags)
  let mode := p.mode.set flags
  match p.rest.drop flags.length with
  | [] => failure
  | c :: rest =>
    moveTo rest
    if c = ':' then return .group mode
    guard (flags ≠ [])
    return .flags mode

/-- Reads what makes a group of a parenthesis. -/
def opening : Reader Opening := do
  skipLayout
  let p ← get
  match p.rest with
  | '?' :: 'P' :: '<' :: rest | '?' :: '<' :: rest =>
    moveTo rest
    groupName
    return .group p.mode
  | '?' :: rest =>
    moveTo rest
    flagged
  | _ => return .group p.mode

/-! ## Whole patterns -/

/-- A part of a sequence. -/
structure Part where
  depth : Nat := 0
  /-- Whether it can be repeated. Flags cannot. -/
  repeats : Bool := true

/-- The depth of a sequence of parts. -/
def sequence (parts : List Part) : Nat :=
  together (parts.map Part.depth)

/-- Reads a part of one character, or of one escape. A brace opens a number of repetitions, which is
never complete, because a closing brace ends the field. -/
def single : Reader Unit := do
  let mode := (← get).mode
  let c ← next
  if c = '\\' then
    match ← escape with
    | .literal l => guard (mode.allowsLiteral l)
    | .shorthand negated => guard (mode.allowsShorthand negated)
    | .assertion aboutWords => guard (mode.allowsAssertion aboutWords)
  else if c = '.' then guard mode.allowsAny
  else if c = '\x7b' then failure
  else if c = '^' || c = '$' then guard (mode.allowsAssertion false)
  else guard (mode.allowsLiteral ⟨c, false⟩)

/-- Reads a pattern up to its end, or up to the parenthesis that closes it, behind some of its
branches and some parts of the last one. Gives the depth. Both lists have the last first. -/
def branches : (fuel : Nat) → (depths : List Nat) → (parts : List Part) → Reader Nat
  | 0, _, _ => failure
  | fuel + 1, depths, parts => do
    skipLayout
    let p ← get
    match p.rest with
    | [] | ')' :: _ => return together (sequence parts :: depths)
    | '|' :: rest =>
      moveTo rest
      branches fuel (sequence parts :: depths) []
    | '(' :: rest =>
      moveTo rest
      match ← opening with
      | .flags mode =>
        setMode mode
        branches fuel depths ({ repeats := false } :: parts)
      | .group mode =>
        setMode mode
        let depth ← branches fuel [] []
        let closing ← next
        guard (closing = ')')
        setMode p.mode
        branches fuel depths ({ depth := depth + 1 } :: parts)
    | '[' :: rest =>
      moveTo rest
      negation
      let depth ← members fuel true none []
      branches fuel depths ({ depth } :: parts)
    | c :: rest =>
      if ['?', '*', '+'].contains c then
        match parts with
        | [] => failure
        | part :: parts =>
          guard part.repeats
          moveTo (if rest.head? = some '?' then rest.drop 1 else rest)
          branches fuel depths ({ depth := part.depth + 1 } :: parts)
      else
        single
        branches fuel depths ({} :: parts)

/-- Whether a pattern is well formed. Each part takes a character at least, so the length of the
pattern bounds the number of parts. -/
def isWellFormed (pattern : List Char) : Bool :=
  match (branches (pattern.length + 1) [] []).run { rest := pattern } with
  | some (depth, p) => p.rest.isEmpty && depth ≤ depthLimit
  | none => false

end ItemSql.LogFilter.Pattern
