import ItemSql.Proofs.CommandLine
import ItemSql.Proofs.Wire.Reordering

/-!
# What is printed is what is sent

For a statement the command line prints a target and a text, and a connection calls its transport
with a target and a body. The targets are the same. The text is not the body: it is the value that
the body is read as, and to read it puts its members in order. But the text is decoded as the
request that the body is decoded as, except that maps have their names in that order.
-/

namespace ItemSql.CommandLine

/-- What is printed for a statement, and what a connection sends for it. -/
structure Translated (config : Config) (statement : String) (r : Request) (target text : String) :
    Prop where
  printed : translate config statement =
    .ok ("X-Amz-Target: " ++ target ++ "\n" ++ text ++ "\n")
  /-- A connection calls its transport once, with the same target. -/
  sent : ∀ {m : Type → Type} [Monad m] [LawfulMonad m] (transport : Transport m),
    Connection.query ⟨transport, config⟩ statement [] = do
      let response ← transport target (Text.utf8 r.body)
      return r.resultOf config response
  /-- The text is that of the value that the body is read as. -/
  value : ∃ v, Json.ofBytes (Text.utf8 r.body) = .ok v ∧ text = v.pretty
  body : Json.Decode.bytes (Request.decode r.operation) (Text.utf8 r.body) = .ok r
  /-- The text is decoded as the request of the body, but for the order of names in maps. -/
  decoded : ∃ r', Json.Decode.bytes (Request.decode r.operation) (Text.utf8 text) = .ok r' ∧
    r.Reordered r'

/-- Every statement that parses is printed as the request that is sent for it. -/
theorem exists_translated (config : Config) {statement : String} {r : Request}
    (h : Statement.parse statement = .ok r) :
    ∃ text, Translated config statement r (r.operation.target config.service) text := by
  refine ⟨r.toJson.ordered.pretty, ⟨?_, fun transport ↦ Connection.query_of_parse _ h,
    ⟨_, Store.ofBytes_body r, rfl⟩, Store.bytes_body r, r.exists_bytes_pretty⟩⟩
  rw [translate, h]
  rfl

/-- The names are not in their order, and one stands twice. -/
theorem exists_translated_unsorted :
    ∃ text, Translated { service := "S" } "insert into t (b, a, b) values (1, 'x', 2)"
      (.putItem ⟨"t", .ofList [("b", .number "2"), ("a", .string "x")]⟩) "S.PutItem" text :=
  exists_translated { service := "S" } (by decide +kernel)

end ItemSql.CommandLine
