import ItemSql.Proofs.Json.OrderBlind
import ItemSql.Proofs.NameMap.Pairs
import ItemSql.Proofs.Wire.Acceptance

/-!
# Requests whose members were put in order

To put the members of a request in order moves the fields of its records, which nobody sees, and the
names in its maps, where the order was the order of the statement. So the request that is read from
what was put in order is the request that was written, but for the order of names in its maps
(`Request.Reordered`): no name is lost and none gets another value, and the elements of lists stay
where they are.
-/

namespace ItemSql

open Json (Decoder Node OrderBlind Settles)
open Json.Decode (Fields)
open Json.Decode.Fields (named named_injective)

/-! ## Maps -/

namespace NameMap

variable {α : Type}

/-- Of pairs, a map keeps each name with the value that it was given last. -/
theorem settles_ofList (pairs : List (String × α)) : Settles pairs (ofList pairs).entries where
  nodup_names := (ofList pairs).nodup_names
  mem_iff name value := by rw [mem_entries_iff, get?_ofList]

/-- The maps have the same names with the same values, but perhaps in another order. -/
def Reordered (m m' : NameMap α) : Prop :=
  m.entries.Perm m'.entries

theorem Reordered.refl (m : NameMap α) : m.Reordered m :=
  List.Perm.refl _

theorem orderBlind {decodeValue : Decoder α} (h : OrderBlind decodeValue Eq) :
    OrderBlind (decode decodeValue) Reordered := by
  intro depth v m hv hm
  obtain ⟨nodes, pairs, hnode, hrelated, rfl⟩ := decode_eq_ok_iff_related.mp hm
  cases hv with
  | null | bool | integer | string | array => cases hnode
  | @object _ members hreadable =>
    rw [Json.tree_object] at hnode
    obtain rfl := named_injective.list_map (Node.object.inj hnode).1
    obtain ⟨settled, htree, hsettled⟩ := Json.exists_tree_ordered_object members
    -- The values of the members are decoded alike, in order and as they were.
    have hordered : Entries.Related (fun v a ↦ decodeValue v = .ok a)
        (members.map (Prod.map id fun v ↦ v.ordered.tree)) pairs := by
      rw [Entries.Related, List.forall₂_map_left_iff] at hrelated ⊢
      exact forall₂_imp_of_mem
        (fun m hm p hp ↦ ⟨hp.1, h.eq_ok (hreadable m hm) hp.2⟩) hrelated
    have hunique (v : Node) (a a' : α) (ha : decodeValue v = .ok a) (ha' : decodeValue v = .ok a') :
        a = a' :=
      Except.ok.inj (ha.symm.trans ha')
    obtain ⟨pairs', hpairs', hsettles⟩ := hsettled.related hunique hordered
    refine ⟨ofList pairs', decode_eq_ok_iff_related.mpr ⟨settled, pairs', htree, hpairs', rfl⟩, ?_⟩
    rw [Reordered, entries_ofList hsettles.nodup_names]
    exact (settles_ofList pairs).perm hsettles

end NameMap

/-! ## Values of records -/

/-- A value has one member at most, and what stands in it is a string or is passed over. -/
theorem AttributeValue.orderBlind : OrderBlind AttributeValue.decode Eq := by
  intro depth v a hv ha
  refine ⟨a, ?_, rfl⟩
  rw [AttributeValue.decode_eq_ok_iff hv.fault?_eq_none] at ha
  rw [AttributeValue.decode_eq_ok_iff hv.ordered.fault?_eq_none]
  cases hv with
  | null | bool | integer | string | array => cases ha
  | @object _ members hreadable =>
    match members with
    | [] =>
      cases ha with
      | empty => exact .empty
    | [(name, content)] =>
      change AttributeValue.Form (.object [named (name, content.tree)] .closed) a at ha
      change AttributeValue.Form (.object [named (name, content.ordered.tree)] .closed) a
      generalize hcontent : content.tree = node at ha
      cases ha with
      | string text =>
        cases content <;> cases hcontent
        exact .string text
      | number text =>
        cases content <;> cases hcontent
        exact .number text
      | null => exact .null _
    | _ :: _ :: _ => exact absurd ha.length_le_one (by simp [Json.memberTrees])

theorem Item.orderBlind : OrderBlind Item.decode NameMap.Reordered :=
  NameMap.orderBlind AttributeValue.orderBlind

theorem ComparisonOperator.orderBlind : OrderBlind ComparisonOperator.decode Eq :=
  .variant _ _

theorem AttributeAction.orderBlind : OrderBlind AttributeAction.decode Eq :=
  .variant _ _

theorem KeyType.orderBlind : OrderBlind KeyType.decode Eq :=
  .variant _ _

theorem AttributeType.orderBlind : OrderBlind AttributeType.decode Eq :=
  .variant _ _

theorem Condition.orderBlind : OrderBlind Condition.decode Eq := by
  refine Fields.Blind.record (.field (fun _ ↦ rfl) ComparisonOperator.orderBlind <|
    .field (fun _ ↦ rfl) AttributeValue.orderBlind.list .none) ?_
  rintro ⟨_, _, _⟩ ⟨_, _, _⟩ ⟨rfl, rfl, -⟩
  rfl

theorem AttributeUpdate.orderBlind : OrderBlind AttributeUpdate.decode Eq := by
  refine Fields.Blind.record (.field (fun _ ↦ rfl) AttributeValue.orderBlind.optional <|
    .field (fun _ ↦ rfl) AttributeAction.orderBlind.optional .none) ?_
  rintro ⟨_, _, _⟩ ⟨_, _, _⟩ ⟨rfl, rfl, -⟩
  rfl

theorem KeySchemaElement.orderBlind : OrderBlind KeySchemaElement.decode Eq := by
  refine Fields.Blind.record (.field (fun _ ↦ rfl) .string <|
    .field (fun _ ↦ rfl) KeyType.orderBlind .none) ?_
  rintro ⟨_, _, _⟩ ⟨_, _, _⟩ ⟨rfl, rfl, -⟩
  rfl

theorem AttributeDefinition.orderBlind : OrderBlind AttributeDefinition.decode Eq := by
  refine Fields.Blind.record (.field (fun _ ↦ rfl) .string <|
    .field (fun _ ↦ rfl) AttributeType.orderBlind .none) ?_
  rintro ⟨_, _, _⟩ ⟨_, _, _⟩ ⟨rfl, rfl, -⟩
  rfl

theorem ProvisionedThroughput.orderBlind : OrderBlind ProvisionedThroughput.decode Eq := by
  refine Fields.Blind.record (.field (fun _ ↦ rfl) (.fixedWidth _ _) <|
    .field (fun _ ↦ rfl) (.fixedWidth _ _) .none) ?_
  rintro ⟨_, _, _⟩ ⟨_, _, _⟩ ⟨rfl, rfl, -⟩
  rfl

/-! ## Payloads -/

/-- The requests are the same, but for the order of names in their maps. -/
inductive Request.Reordered : Request → Request → Prop
  | createTable (p : CreateTable) : Reordered (.createTable p) (.createTable p)
  | deleteTable (p : DeleteTable) : Reordered (.deleteTable p) (.deleteTable p)
  | putItem {table : String} {item item' : Item} (hitem : item.Reordered item') :
      Reordered (.putItem ⟨table, item⟩) (.putItem ⟨table, item'⟩)
  | updateItem {table : String} {key key' : Item} {updates updates' : NameMap AttributeUpdate}
      (hkey : key.Reordered key') (hupdates : updates.Reordered updates') :
      Reordered (.updateItem ⟨table, key, updates⟩) (.updateItem ⟨table, key', updates'⟩)
  | deleteItem {table : String} {key key' : Item} (hkey : key.Reordered key') :
      Reordered (.deleteItem ⟨table, key⟩) (.deleteItem ⟨table, key'⟩)
  | query {table : String} {names : List String} {conditions conditions' : NameMap Condition}
      {limit? : Option Int32} {forward? : Option Bool}
      (hconditions : conditions.Reordered conditions') :
      Reordered (.query ⟨table, names, conditions, limit?, forward?⟩)
        (.query ⟨table, names, conditions', limit?, forward?⟩)

theorem CreateTable.orderBlind : OrderBlind CreateTable.decode fun p p' ↦
    Request.Reordered (.createTable p) (.createTable p') := by
  refine Fields.Blind.record (.field (fun _ ↦ rfl) .string <|
    .field (fun _ ↦ rfl) AttributeDefinition.orderBlind.list <|
    .field (fun _ ↦ rfl) KeySchemaElement.orderBlind.list <|
    .field (fun _ ↦ rfl) ProvisionedThroughput.orderBlind .none) ?_
  rintro ⟨_, _, _, _, _⟩ ⟨_, _, _, _, _⟩ ⟨rfl, rfl, rfl, rfl, -⟩
  exact .createTable _

theorem DeleteTable.orderBlind : OrderBlind DeleteTable.decode fun p p' ↦
    Request.Reordered (.deleteTable p) (.deleteTable p') := by
  refine Fields.Blind.record (.field (fun _ ↦ rfl) .string .none) ?_
  rintro ⟨_, _⟩ ⟨_, _⟩ ⟨rfl, -⟩
  exact .deleteTable _

theorem PutItem.orderBlind : OrderBlind PutItem.decode fun p p' ↦
    Request.Reordered (.putItem p) (.putItem p') := by
  refine Fields.Blind.record (.field (fun _ ↦ rfl) .string <|
    .field NameMap.Reordered.refl Item.orderBlind .none) ?_
  rintro ⟨_, _, _⟩ ⟨_, _, _⟩ ⟨rfl, hitem, -⟩
  exact .putItem hitem

theorem UpdateItem.orderBlind : OrderBlind UpdateItem.decode fun p p' ↦
    Request.Reordered (.updateItem p) (.updateItem p') := by
  refine Fields.Blind.record (.field (fun _ ↦ rfl) .string <|
    .field NameMap.Reordered.refl Item.orderBlind <|
    .field NameMap.Reordered.refl (NameMap.orderBlind AttributeUpdate.orderBlind) .none) ?_
  rintro ⟨_, _, _, _⟩ ⟨_, _, _, _⟩ ⟨rfl, hkey, hupdates, -⟩
  exact .updateItem hkey hupdates

theorem DeleteItem.orderBlind : OrderBlind DeleteItem.decode fun p p' ↦
    Request.Reordered (.deleteItem p) (.deleteItem p') := by
  refine Fields.Blind.record (.field (fun _ ↦ rfl) .string <|
    .field NameMap.Reordered.refl Item.orderBlind .none) ?_
  rintro ⟨_, _, _⟩ ⟨_, _, _⟩ ⟨rfl, hkey, -⟩
  exact .deleteItem hkey

theorem Query.orderBlind : OrderBlind Query.decode fun p p' ↦
    Request.Reordered (.query p) (.query p') := by
  refine Fields.Blind.record (.field (fun _ ↦ rfl) .string <|
    .field (fun _ ↦ rfl) OrderBlind.string.list <|
    .field NameMap.Reordered.refl (NameMap.orderBlind Condition.orderBlind) <|
    .field (fun _ ↦ rfl) (OrderBlind.fixedWidth _ _).optional <|
    .field (fun _ ↦ rfl) OrderBlind.boolean.optional .none) ?_
  rintro ⟨_, _, _, _, _, _⟩ ⟨_, _, _, _, _, _⟩ ⟨rfl, rfl, hconditions, rfl, rfl, -⟩
  exact .query hconditions

theorem Request.orderBlind (op : Operation) :
    OrderBlind (Request.decode op) Request.Reordered := by
  cases op with
  | createTable => exact CreateTable.orderBlind.map fun _ _ h ↦ h
  | deleteTable => exact DeleteTable.orderBlind.map fun _ _ h ↦ h
  | putItem => exact PutItem.orderBlind.map fun _ _ h ↦ h
  | updateItem => exact UpdateItem.orderBlind.map fun _ _ h ↦ h
  | deleteItem => exact DeleteItem.orderBlind.map fun _ _ h ↦ h
  | query => exact Query.orderBlind.map fun _ _ h ↦ h

/-- The text of a request whose members were put in order is decoded as the request. -/
theorem Request.exists_bytes_pretty (r : Request) :
    ∃ r', Json.Decode.bytes (Request.decode r.operation)
        (Text.utf8 r.toJson.ordered.pretty) = .ok r' ∧ r.Reordered r' := by
  obtain ⟨hreadable, hdecoded⟩ := r.denotes
  obtain ⟨r', hr', hreordered⟩ := Request.orderBlind r.operation hreadable hdecoded
  exact ⟨r', by rw [hreadable.ordered.document_pretty.bytes_eq, hr'], hreordered⟩

end ItemSql
