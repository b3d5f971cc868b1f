import ItemSql.Main
import ItemSql.Proofs.Decimal.Integral
import ItemSql.Proofs.Json.Scalar
import ItemSql.Proofs.Text.Utf8
import ItemSql.Proofs.Token.Tiling
import ItemSql.Store
import ItemSql.Token.Stream
import ItemSql.Proofs.Token.Vocabulary
import ItemSql.Proofs.Statement.Grammar
import ItemSql.Proofs.Statement.Reads
import ItemSql.Proofs.Statement.Clauses
import ItemSql.Proofs.Binding
import ItemSql.Proofs.NameMap
import ItemSql.Proofs.Statement.Parse
import ItemSql.Proofs.Store.Failure
import ItemSql.Proofs.Json.Tree
import ItemSql.Proofs.Json.Codec
import ItemSql.Proofs.Wire.RoundTrip
import ItemSql.Proofs.Store.Exchange
import ItemSql.Proofs.Store.Keys
import ItemSql.Proofs.Statement.Spelling
import ItemSql.Proofs.Store.ReadBack
import ItemSql.Proofs.Cursor
import ItemSql.Proofs.Statement.Placeholder
import ItemSql.Proofs.Condition
import ItemSql.Proofs.Statement.Selection
import ItemSql.Proofs.Store.Selection
import ItemSql.Proofs.Statement.Disjunction
import ItemSql.Proofs.Store.Reading
import ItemSql.Proofs.NameMap.History
import ItemSql.Proofs.Binding.Arity
import ItemSql.Proofs.Text.Case
import ItemSql.Proofs.Statement.LetterCase
import ItemSql.Proofs.CommandLine
import ItemSql.Proofs.Store.Latest
import ItemSql.Proofs.Token.Numeral
import ItemSql.Proofs.Statement.WellFormed
import ItemSql.Proofs.Decimal.Double
import ItemSql.Proofs.Store.KeyEquality
import ItemSql.Proofs.Store.PointWrite
import ItemSql.Proofs.Text.ByteOrder
import ItemSql.Proofs.Store.Answer
import ItemSql.Proofs.Decimal.Order
import ItemSql.Proofs.Store.StoredValues
import ItemSql.Proofs.Store.Comparator
import ItemSql.Proofs.Decimal.Exact
import ItemSql.Proofs.NumberCell
import ItemSql.Proofs.Projection
import ItemSql.Proofs.NumberPolicy
import ItemSql.Proofs.Binding.Supplied
import ItemSql.Proofs.Statement.Insertion
import ItemSql.Proofs.Token.LiteralText
import ItemSql.Proofs.Token.Respacing
import ItemSql.Proofs.Statement.Pairing
import ItemSql.Proofs.Statement.FirstOffender
import ItemSql.Proofs.Clause
import ItemSql.Proofs.CommandLine.Table
import ItemSql.Proofs.CommandLine.Translation
import ItemSql.Proofs.Token.Stream
import ItemSql.Proofs.Statement.Budget
import ItemSql.Proofs.Json.Exact
import ItemSql.Proofs.ServiceError
import ItemSql.Proofs.Wire.Refusal
