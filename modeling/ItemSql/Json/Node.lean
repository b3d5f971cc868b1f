import ItemSql.Json.Basic
import ItemSql.Json.Lexeme

/-!
# JSON texts as trees

A text is read from left to right, and the first thing wrong with it decides, be it the text or what
the text says. So a text that is not JSON throughout is no mere failure: what stands before the
fault has to be looked at first. The tree of a text keeps both. It holds every value as far as there
is one, a *cut* where a value cannot be read, and with every list of items or members how the list
ends.

Whoever walks the tree in its order meets the faults where a reader of the text would.
-/

namespace ItemSql.Json

/-- How a list of items or members ends. -/
inductive Ending where
  /-- By its closing bracket. -/
  | closed
  /-- By something else behind its last element. -/
  | stopped (f : Fault)
  /-- By a comma with nothing behind it. -/
  | dangling (f : Fault)
  deriving DecidableEq, Repr

/-- A value as far as the text has one. -/
inductive Node where
  | null
  | bool (b : Bool)
  | number (n : Numeral)
  | string (text : Except Fault String)
  | array (items : List Node) (ending : Ending)
  /-- The name of a member is a node too: a text may have something else than a string there. -/
  | object (members : List (Node × Node)) (ending : Ending)
  | cut (c : Cut)

/-- What is wrong with how a list ends. -/
def Ending.fault? : Ending → Option Fault
  | .closed => none
  | .stopped f => some f
  | .dangling f => some f

namespace Node

/-! ## Reading the tree -/

/-- A node where nothing stands. -/
def absent (f : Fault) : Node :=
  .cut ⟨f, f, .nothing⟩

mutual

/-- The value at the front of the lexemes, and the lexemes behind it. Each step takes a lexeme or
goes from a list to its next element, so twice as many steps as lexemes are enough. -/
def read : (steps : Nat) → List Lexeme → Node × List Lexeme
  | 0, ls => (absent .malformed, ls)
  | _, [] => (absent .truncated, [])
  | steps + 1, l :: ls =>
    match l with
    | .null => (.null, ls)
    | .bool b => (.bool b, ls)
    | .number n => (.number n, ls)
    | .string text => (.string text, ls)
    | .cut c => (.cut c, ls)
    | .openBracket =>
      match ls with
      | [] => (.array [] (.stopped .truncated), [])
      | .closeBracket :: ls => (.array [] .closed, ls)
      | ls =>
        let (items, ending, ls) := readItems steps ls
        (.array items ending, ls)
    | .openBrace =>
      match ls with
      | [] => (.object [] (.stopped .truncated), [])
      | .closeBrace :: ls => (.object [] .closed, ls)
      | ls =>
        let (members, ending, ls) := readMembers steps ls
        (.object members ending, ls)
    | _ => (.cut (.other .noValue .malformed), ls)

/-- One or more items, how they end, and the lexemes behind them. -/
def readItems : (steps : Nat) → List Lexeme → List Node × Ending × List Lexeme
  | 0, ls => ([], .stopped .malformed, ls)
  | steps + 1, ls =>
    let (item, ls) := read steps ls
    match ls with
    | .closeBracket :: ls => ([item], .closed, ls)
    | [.comma] => ([item], .dangling .truncated, [])
    | .comma :: .closeBracket :: ls => ([item], .dangling .malformed, ls)
    | .comma :: ls =>
      let (items, ending, ls) := readItems steps ls
      (item :: items, ending, ls)
    | [] => ([item], .stopped .truncated, [])
    | ls => ([item], .stopped .malformed, ls)

/-- One or more members, how they end, and the lexemes behind them. -/
def readMembers : (steps : Nat) → List Lexeme → List (Node × Node) × Ending × List Lexeme
  | 0, ls => ([], .stopped .malformed, ls)
  | steps + 1, ls =>
    let (name, ls) := read steps ls
    let (value, ls) :=
      match name, ls with
      | .string _, .colon :: ls => read steps ls
      | .string _, [] => (absent .truncated, [])
      | .cut ⟨_, skipped, .openString⟩, ls => (absent skipped, ls)
      | _, ls => (absent .malformed, ls)
    match ls with
    | .closeBrace :: ls => ([(name, value)], .closed, ls)
    | [.comma] => ([(name, value)], .dangling .truncated, [])
    | .comma :: .closeBrace :: ls => ([(name, value)], .dangling .malformed, ls)
    | .comma :: ls =>
      let (members, ending, ls) := readMembers steps ls
      ((name, value) :: members, ending, ls)
    | [] => ([(name, value)], .stopped .truncated, [])
    | ls => ([(name, value)], .stopped .malformed, ls)

end

/-- The value of a text, and whether nothing stands behind it. -/
def ofGlyphs (glyphs : List Text.Glyph) : Node × Bool :=
  let ls := lexemes glyphs
  let (node, rest) := read (2 * ls.length + 2) ls
  (node, rest.isEmpty)

/-! ## Passing over a value -/

mutual

/-- The first fault in a value that is passed over. -/
def fault? : Node → Option Fault
  | .array items ending => (itemsFault? items).or ending.fault?
  | .object members ending => (membersFault? members).or ending.fault?
  | .cut c => some c.skipped
  | _ => none

/-- The first fault in items that are passed over. -/
def itemsFault? : List Node → Option Fault
  | [] => none
  | item :: items => (fault? item).or (itemsFault? items)

/-- The first fault in members that are passed over. A name that is no string shows as a fault of
the value behind it. -/
def membersFault? : List (Node × Node) → Option Fault
  | [] => none
  | (_, value) :: members => (fault? value).or (membersFault? members)

end

/-! ## Reading a value of any form -/

/-- The text of the name of a member. -/
def name : Node → Except Fault String
  | .string text => text
  | .cut ⟨read, _, .openString⟩ => .error read
  | _ => .error .malformed

/-- Reading stops at a fault there may be. -/
def orFault (f? : Option Fault) : Except Fault Unit :=
  match f? with
  | some f => .error f
  | none => .ok ()

/-- The value of a number that is read. -/
def ofNumber (n : Numeral) : Except Fault Json :=
  match n.value? with
  | some (.integer i) => .ok (.integer i)
  | some (.double x) => .ok (.double x)
  | none => .error .malformed

mutual

/-- The value that a node holds. Brackets may be open inside each other up to the given depth. -/
def value (depth : Nat) : Node → Except Fault Json
  | .null => .ok .null
  | .bool b => .ok (.bool b)
  | .number n => ofNumber n
  | .string text => text.map .string
  | .array items ending =>
    match depth with
    | 0 => .error .malformed
    | depth + 1 => do
      let vs ← values depth items
      orFault ending.fault?
      return .array vs
  | .object members ending =>
    match depth with
    | 0 => .error .malformed
    | depth + 1 => do
      let vs ← memberValues depth members
      orFault ending.fault?
      return .object vs
  | .cut c => .error c.read

/-- The values of the items of an array. -/
def values (depth : Nat) : List Node → Except Fault (List Json)
  | [] => .ok []
  | item :: items => do
    let v ← value depth item
    let vs ← values depth items
    return v :: vs

/-- The names and values of the members of an object. -/
def memberValues (depth : Nat) : List (Node × Node) → Except Fault (List (String × Json))
  | [] => .ok []
  | (n, item) :: members => do
    let n ← n.name
    let v ← value depth item
    let vs ← memberValues depth members
    return (n, v) :: vs

end

end Node

/-- How deep brackets may be open inside each other in a value that is read. -/
def depthLimit : Nat := 127

/-- Reads a JSON value from bytes, with the members of every object in order of their names. -/
def ofBytes (bytes : Text.Bytes) : Except Fault Json :=
  match Node.ofGlyphs (Text.Glyph.ofBytes bytes) with
  | (node, clean) => do
    let v ← node.value depthLimit
    if clean then return v.ordered else .error .trailing

end ItemSql.Json
