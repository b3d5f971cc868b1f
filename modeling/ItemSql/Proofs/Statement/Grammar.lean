import ItemSql.Proofs.Decimal.Integral
import ItemSql.Proofs.Token.Symbol
import ItemSql.Statement.Parse

/-!
# The grammar of statements

Which symbols are a statement, and what request it is. Each relation is one nonterminal: it holds of
the symbols the nonterminal derives and of what they denote. Nothing here looks ahead, keeps a place
or fails, so the grammar says what the parser is for and not how it goes about it.

A keyword is compared by the lower case of ASCII letters; punctuation is known by its class. A limit
may stand in two places, so a query with neither conditions nor an order has two derivations for one
limit. Both denote the same request.
-/

namespace ItemSql.Statement.Grammar

open Token (Symbol)

/-! ## Single symbols -/

/-- A keyword, in any letter case. -/
def Keyword (word : String) (s : Symbol) : Prop :=
  s.kind = .keyword ∧ Text.lowerAscii s.text = word

/-- A comma. -/
def Comma (s : Symbol) : Prop :=
  s.kind = .comma

/-- What may stand between two expressions of a clause: `and`, `or`, or any operator. -/
def Conjunction (s : Symbol) : Prop :=
  Keyword "and" s ∨ Keyword "or" s ∨ s.kind = .operator

/-- A string or a number, and its value. -/
inductive Literal : Symbol → AttributeValue → Prop
  | string (text : String) : Literal ⟨.string, text⟩ (.string (ItemSql.Literal.unquote text))
  | number (text : String) : Literal ⟨.number, text⟩ (.number text)

/-! ## Lists -/

/-- One or more elements with separators between them. -/
inductive SepBy {α : Type} (separator : Symbol → Prop) (element : List Symbol → α → Prop) :
    List Symbol → List α → Prop
  | one {w : List Symbol} {a : α} (ha : element w a) : SepBy separator element w [a]
  | more {w v : List Symbol} {s : Symbol} {a : α} {as : List α} (ha : element w a)
      (hs : separator s) (has : SepBy separator element v as) :
      SepBy separator element (w ++ s :: v) (a :: as)

/-- One or more elements in parentheses, with commas between them. -/
inductive Parenthesized {α : Type} (element : List Symbol → α → Prop) :
    List Symbol → List α → Prop
  | mk {w : List Symbol} {as : List α} {left right : String} (has : SepBy Comma element w as) :
      Parenthesized element (⟨.leftParen, left⟩ :: (w ++ [⟨.rightParen, right⟩])) as

/-- The name of a table or an attribute. -/
inductive Name : List Symbol → String → Prop
  | mk (name : String) : Name [⟨.identifier, name⟩] name

/-- A literal as an element of a list. -/
inductive Value : List Symbol → AttributeValue → Prop
  | mk {s : Symbol} {value : AttributeValue} (hs : Literal s value) : Value [s] value

/-! ## Expressions -/

/-- An attribute compared with a literal, or with two. -/
inductive Comparison : List Symbol → Expression → Prop
  | sign {name sign : String} {op : ComparisonOperator} {s : Symbol} {value : AttributeValue}
      (hop : ComparisonOperator.ofSymbol? sign = some op) (hs : Literal s value) :
      Comparison [⟨.identifier, name⟩, ⟨.operator, sign⟩, s] ⟨name, op, [value]⟩
  | between {name left comma right : String} {k low high : Symbol} {a b : AttributeValue}
      (hk : Keyword "between" k) (hlow : Literal low a) (hhigh : Literal high b) :
      Comparison [⟨.identifier, name⟩, k, ⟨.leftParen, left⟩, low, ⟨.comma, comma⟩, high,
        ⟨.rightParen, right⟩] ⟨name, .between, [a, b]⟩

/-- An attribute and the literal it is given. -/
inductive Assignment : List Symbol → Expression → Prop
  | mk {name : String} {s : Symbol} {value : AttributeValue} (hs : Literal s value) :
      Assignment [⟨.identifier, name⟩, ⟨.operator, "="⟩, s] ⟨name, .eq, [value]⟩

/-! ## Queries -/

/-- The columns of a query. None are listed by a wildcard or by nothing at all. -/
inductive Columns : List Symbol → List String → Prop
  | all (star : String) : Columns [⟨.wildcard, star⟩] []
  | unsaid : Columns [] []
  | listed {w : List Symbol} {names : List String} (hw : SepBy Comma Name w names) :
      Columns w names

/-- A limit: an integer without a fraction or an exponent, from zero to the greatest of 32 bits. -/
inductive Limit : List Symbol → Option Int32 → Prop
  | none : Limit [] none
  | some {k : Symbol} {text : String} {z : Int} (hk : Keyword "limit" k)
      (htext : Decimal.Integral text.toList z) (hlow : 0 ≤ z) (hhigh : z ≤ Int32.maxValue.toInt) :
      Limit [k, ⟨.number, text⟩] (some (Int32.ofInt z))

/-- The conditions of a query. -/
inductive Where : List Symbol → NameMap Condition → Prop
  | unsaid : Where [] ∅
  | clause {k : Symbol} {w : List Symbol} {clause : List Expression} (hk : Keyword "where" k)
      (hw : SepBy Conjunction Comparison w clause) :
      Where (k :: w) (Expression.conditions clause)

/-- The direction of an order. -/
inductive Direction : List Symbol → Bool → Prop
  | unsaid : Direction [] true
  | ascending {k : Symbol} (hk : Keyword "asc" k) : Direction [k] true
  | descending {k : Symbol} (hk : Keyword "desc" k) : Direction [k] false

/-- The order of a query: whether it is ascending. -/
inductive Order : List Symbol → Option Bool → Prop
  | unsaid : Order [] none
  | order {k l : Symbol} {name : String} {w : List Symbol} {forward : Bool}
      (hk : Keyword "order" k) (hl : Keyword "by" l) (hw : Direction w forward) :
      Order (k :: l :: ⟨.identifier, name⟩ :: w) (some forward)

/-- A query, behind its first word. -/
inductive Select : List Symbol → Request → Prop
  | mk {w₁ w₂ w₃ w₄ w₅ : List Symbol} {names : List String} {k : Symbol} {table : String}
      {early? late? : Option Int32} {conditions : NameMap Condition} {forward? : Option Bool}
      (hnames : Columns w₁ names) (hk : Keyword "from" k) (hearly : Limit w₂ early?)
      (hconditions : Where w₃ conditions) (horder : Order w₄ forward?) (hlate : Limit w₅ late?)
      (honce : early? = none ∨ late? = none) :
      Select (w₁ ++ k :: ⟨.identifier, table⟩ :: (w₂ ++ (w₃ ++ (w₄ ++ w₅))))
        (.query ⟨table, names, conditions, early?.or late?, forward?⟩)

/-! ## Items -/

/-- An insertion, behind its first word. There are as many values as columns. -/
inductive Insert : List Symbol → Request → Prop
  | mk {k l : Symbol} {table : String} {w v : List Symbol} {names : List String}
      {values : List AttributeValue} (hk : Keyword "into" k) (hnames : Parenthesized Name w names)
      (hl : Keyword "values" l) (hvalues : Parenthesized Value v values)
      (hlength : names.length = values.length) :
      Insert (k :: ⟨.identifier, table⟩ :: (w ++ l :: v))
        (.putItem ⟨table, .ofList (names.zip values)⟩)

/-- An update, behind its first word. -/
inductive Update : List Symbol → Request → Prop
  | mk {table : String} {k l : Symbol} {w v : List Symbol} {updates key : List Expression}
      (hk : Keyword "set" k) (hupdates : SepBy Comma Assignment w updates)
      (hl : Keyword "where" l) (hkey : SepBy Conjunction Assignment v key) :
      Update (⟨.identifier, table⟩ :: k :: (w ++ l :: v))
        (.updateItem ⟨table, Expression.key key, Expression.updates updates⟩)

/-- A deletion, behind its first word. -/
inductive Delete : List Symbol → Request → Prop
  | mk {k l : Symbol} {table : String} {w : List Symbol} {key : List Expression}
      (hk : Keyword "from" k) (hl : Keyword "where" l)
      (hkey : SepBy (Keyword "and") Assignment w key) :
      Delete (k :: ⟨.identifier, table⟩ :: l :: w) (.deleteItem ⟨table, Expression.key key⟩)

/-! ## Tables -/

/-- The removal of a table, behind its first word. -/
inductive Drop : List Symbol → Request → Prop
  | mk {k : Symbol} {table : String} (hk : Keyword "table" k) :
      Drop [k, ⟨.identifier, table⟩] (.deleteTable ⟨table⟩)

/-- An attribute of a table, which may be a key. -/
inductive Declared : List Symbol → Declaration → Prop
  | plain {name word : String} {type : AttributeType} (htype : AttributeType.ofWord? word = type) :
      Declared [⟨.identifier, name⟩, ⟨.typeName, word⟩] ⟨⟨name, type⟩, none⟩
  | key {name word constraint : String} {type : AttributeType} {keyType : KeyType}
      (htype : AttributeType.ofWord? word = type)
      (hkey : KeyType.ofConstraint? constraint = keyType) :
      Declared [⟨.identifier, name⟩, ⟨.typeName, word⟩, ⟨.constraint, constraint⟩]
        ⟨⟨name, type⟩, some ⟨name, keyType⟩⟩

/-- A change of the throughput of a table: `read` or `write` in any letter case, and an integer of
64 bits. -/
inductive Capacity : List Symbol → (ProvisionedThroughput → ProvisionedThroughput) → Prop
  | read {name text : String} {z : Int} (hname : Text.lowerAscii name = "read")
      (htext : Decimal.Integral text.toList z) (hlow : Int64.minValue.toInt ≤ z)
      (hhigh : z ≤ Int64.maxValue.toInt) :
      Capacity [⟨.identifier, name⟩, ⟨.operator, "="⟩, ⟨.number, text⟩]
        fun p ↦ { p with readCapacityUnits := Int64.ofInt z }
  | write {name text : String} {z : Int} (hname : Text.lowerAscii name = "write")
      (htext : Decimal.Integral text.toList z) (hlow : Int64.minValue.toInt ≤ z)
      (hhigh : z ≤ Int64.maxValue.toInt) :
      Capacity [⟨.identifier, name⟩, ⟨.operator, "="⟩, ⟨.number, text⟩]
        fun p ↦ { p with writeCapacityUnits := Int64.ofInt z }

/-- The throughput of a table. Of several numbers for one thing the last holds. -/
inductive Throughput : List Symbol → ProvisionedThroughput → Prop
  | unsaid : Throughput [] {}
  | asked {k : Symbol} {w : List Symbol}
      {changes : List (ProvisionedThroughput → ProvisionedThroughput)} (hk : Keyword "with" k)
      (hw : Parenthesized Capacity w changes) :
      Throughput (k :: w) (changes.foldl (fun p change ↦ change p) {})

/-- The creation of a table, behind its first word. -/
inductive Create : List Symbol → Request → Prop
  | mk {k : Symbol} {table : String} {w v : List Symbol} {declarations : List Declaration}
      {throughput : ProvisionedThroughput} (hk : Keyword "table" k)
      (hw : Parenthesized Declared w declarations) (hv : Throughput v throughput) :
      Create (k :: ⟨.identifier, table⟩ :: (w ++ v))
        (.createTable ⟨table, declarations.map (·.definition), declarations.filterMap (·.key?),
          throughput⟩)

/-! ## Statements -/

/-- The end of a statement: a semicolon, if there is one, and the end of the input. -/
inductive Ending : List Symbol → Prop
  | bare : Ending [Token.endSymbol]
  | semicolon (text : String) : Ending [⟨.semicolon, text⟩, Token.endSymbol]

/-- What stands behind the first word of a statement, with its end. -/
inductive Whole (body : List Symbol → Request → Prop) : List Symbol → Request → Prop
  | mk {w e : List Symbol} {r : Request} (hw : body w r) (he : Ending e) : Whole body (w ++ e) r

/-- A whole statement, and its request. -/
inductive Sentence : List Symbol → Request → Prop
  | select {k : Symbol} {w : List Symbol} {r : Request} (hk : Keyword "select" k)
      (hw : Whole Select w r) : Sentence (k :: w) r
  | insert {k : Symbol} {w : List Symbol} {r : Request} (hk : Keyword "insert" k)
      (hw : Whole Insert w r) : Sentence (k :: w) r
  | update {k : Symbol} {w : List Symbol} {r : Request} (hk : Keyword "update" k)
      (hw : Whole Update w r) : Sentence (k :: w) r
  | create {k : Symbol} {w : List Symbol} {r : Request} (hk : Keyword "create" k)
      (hw : Whole Create w r) : Sentence (k :: w) r
  | delete {k : Symbol} {w : List Symbol} {r : Request} (hk : Keyword "delete" k)
      (hw : Whole Delete w r) : Sentence (k :: w) r
  | drop {k : Symbol} {w : List Symbol} {r : Request} (hk : Keyword "drop" k)
      (hw : Whole Drop w r) : Sentence (k :: w) r

end ItemSql.Statement.Grammar
