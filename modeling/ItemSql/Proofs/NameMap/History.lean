import ItemSql.Proofs.Wire.RoundTrip

/-!
# Maps from names through their history

A map holds each name twice, among its entries and in its index, and a look-up goes by the index
alone. An operation that changed one of the two and forgot the other would not fail: it would answer
with the value of another name, or with none.

So a map is followed here from where it comes from — nothing, pairs, or the members of a JSON
object — through any number of insertions and writes, side by side with a plain list of named values
that knows of no index (`Reached`). Each step keeps entries and index in step (`Raw.WF`), and keeps
the entries equal to the list (`Reached.followed`); whatever a map can be asked is then a question
to the list (`Mirrors`).
-/

namespace ItemSql

open Json (Decoder Decoded Denotes ofFault)
open Json.Decode.Fields (named)

/-- The list that comes of putting the pairs into a list, one by one. -/
def Entries.putAll {α : Type} (entries pairs : List (String × α)) : List (String × α) :=
  pairs.foldl (fun entries (name, value) ↦ Entries.put name value entries) entries

namespace NameMap

variable {α : Type}

/-! ## Members of an object -/

/-- The names and the values of members, in their order and with all repetitions. -/
def memberPairs (decodeValue : Decoder α) :
    List (Json.Node × Json.Node) → Decoded (List (String × α))
  | [] => .ok []
  | (n, node) :: members => do
    let name ← ofFault n.name
    let value ← decodeValue node
    let pairs ← memberPairs decodeValue members
    return (name, value) :: pairs

/-- The text is an object and these are its members. -/
def ObjectOf (decodeValue : Decoder α) (text : Text.Bytes) (pairs : List (String × α)) : Prop :=
  ∃ members, Json.Node.ofGlyphs (Text.Glyph.ofBytes text) = (.object members .closed, true) ∧
    memberPairs decodeValue members = .ok pairs

variable {decodeValue : Decoder α} {m : NameMap α} {pairs : List (String × α)}

theorem insertMembers_eq (members : List (Json.Node × Json.Node)) (m : NameMap α) :
    insertMembers decodeValue members m = (memberPairs decodeValue members).map fun pairs ↦
      pairs.foldl (fun m (name, value) ↦ m.insert name value) m := by
  induction members generalizing m with
  | nil => rfl
  | cons member members ih =>
    obtain ⟨n, node⟩ := member
    rw [insertMembers, memberPairs]
    cases ofFault n.name with
    | error e => rfl
    | ok name =>
      cases decodeValue node with
      | error e => rfl
      | ok value =>
        change insertMembers decodeValue members (m.insert name value) = _
        rw [ih]
        cases memberPairs decodeValue members <;> rfl

theorem memberPairs_named_eq_ok_iff {members : List (String × Json.Node)} :
    memberPairs decodeValue (members.map named) = .ok pairs ↔
      Entries.Related (fun v a ↦ decodeValue v = .ok a) members pairs := by
  induction members generalizing pairs with
  | nil =>
    constructor
    · rintro ⟨⟩
      exact .nil
    · rintro ⟨⟩
      rfl
  | cons member members ih =>
    obtain ⟨name, node⟩ := member
    constructor
    · intro h
      obtain ⟨_, ⟨⟩, h⟩ := bind_eq_ok_iff.mp h
      obtain ⟨value, hvalue, h⟩ := bind_eq_ok_iff.mp h
      obtain ⟨pairs', hpairs, ⟨⟩⟩ := bind_eq_ok_iff.mp h
      exact .cons ⟨rfl, hvalue⟩ (ih.mp hpairs)
    · rintro (_ | ⟨⟨rfl, hvalue⟩, hpairs⟩)
      exact bind_eq_ok_iff.mpr ⟨_, rfl, bind_eq_ok_iff.mpr ⟨_, hvalue,
        bind_eq_ok_iff.mpr ⟨_, ih.mpr hpairs, rfl⟩⟩⟩

theorem eq_map_named_of_memberPairs_eq_ok {members : List (Json.Node × Json.Node)}
    (h : memberPairs decodeValue members = .ok pairs) :
    ∃ ms : List (String × Json.Node), members = ms.map named := by
  induction members generalizing pairs with
  | nil => exact ⟨[], rfl⟩
  | cons member members ih =>
    obtain ⟨n, node⟩ := member
    obtain ⟨name, hname, h⟩ := bind_eq_ok_iff.mp h
    obtain ⟨value, -, h⟩ := bind_eq_ok_iff.mp h
    obtain ⟨pairs', hpairs, -⟩ := bind_eq_ok_iff.mp h
    obtain ⟨ms, rfl⟩ := ih hpairs
    obtain rfl : n = .string (.ok name) := Json.Node.eq_string_of_name hname
    exact ⟨(name, node) :: ms, rfl⟩

theorem decode_eq_ok_iff {node : Json.Node} :
    decode decodeValue node = .ok m ↔ ∃ members pairs, node = .object members .closed ∧
      memberPairs decodeValue members = .ok pairs ∧ m = ofList pairs := by
  unfold decode
  split
  · rename_i members ending
    rw [insertMembers_eq, bind_eq_ok_iff]
    constructor
    · rintro ⟨m', hm', h⟩
      obtain ⟨⟨⟩, hending, h⟩ := bind_eq_ok_iff.mp h
      obtain rfl := Except.ok.inj h
      obtain rfl := Json.Ending.check_eq_ok_iff.mp hending
      cases hpairs : memberPairs decodeValue members with
      | error e =>
        rw [hpairs] at hm'
        cases hm'
      | ok pairs =>
        rw [hpairs] at hm'
        exact ⟨members, pairs, rfl, hpairs, (Except.ok.inj hm').symm⟩
    · rintro ⟨_, pairs, hnode, hpairs, rfl⟩
      obtain ⟨rfl, rfl⟩ := Json.Node.object.inj hnode
      exact ⟨ofList pairs, by rw [hpairs]; rfl, rfl⟩
  · rename_i node hnode
    refine iff_of_false Json.Decode.mismatch_ne_ok ?_
    rintro ⟨members, pairs, rfl, -⟩
    exact hnode members _ rfl

theorem decode_eq_ok_iff_related {node : Json.Node} :
    decode decodeValue node = .ok m ↔ ∃ members pairs, node = .object (members.map named) .closed ∧
      Entries.Related (fun v a ↦ decodeValue v = .ok a) members pairs ∧ m = ofList pairs := by
  rw [decode_eq_ok_iff]
  constructor
  · rintro ⟨nodes, pairs, rfl, hpairs, hm⟩
    obtain ⟨members, rfl⟩ := eq_map_named_of_memberPairs_eq_ok hpairs
    exact ⟨members, pairs, rfl, memberPairs_named_eq_ok_iff.mp hpairs, hm⟩
  · rintro ⟨members, pairs, hnode, hrelated, hm⟩
    exact ⟨_, pairs, hnode, memberPairs_named_eq_ok_iff.mpr hrelated, hm⟩

/-- To decode an object is to insert its members one by one. -/
theorem bytes_decode_eq_ok_iff {text : Text.Bytes} :
    Json.Decode.bytes (decode decodeValue) text = .ok m ↔
      ∃ pairs, ObjectOf decodeValue text pairs ∧ m = ofList pairs := by
  rw [Json.Decode.bytes, Json.Decode.glyphs]
  unfold ObjectOf
  obtain ⟨node, clean⟩ := Json.Node.ofGlyphs (Text.Glyph.ofBytes text)
  dsimp only
  rw [bind_eq_ok_iff]
  constructor
  · rintro ⟨m', hm', h⟩
    obtain ⟨members, pairs, rfl, hpairs, rfl⟩ := decode_eq_ok_iff.mp hm'
    cases clean with
    | false => cases h
    | true => exact ⟨pairs, ⟨members, rfl, hpairs⟩, (Except.ok.inj h).symm⟩
  · rintro ⟨pairs, ⟨members, htext, hpairs⟩, rfl⟩
    obtain ⟨rfl, rfl⟩ := Prod.mk.inj htext
    exact ⟨_, decode_eq_ok_iff.mpr ⟨members, pairs, rfl, hpairs, rfl⟩, rfl⟩

/-- An object that is written has the members it is written with, however often they repeat. -/
theorem objectOf_compact {ofValue : α → Json} {depth : Nat}
    (h : ∀ e ∈ pairs, Denotes decodeValue depth (ofValue e.2) e.2) :
    ObjectOf decodeValue
      (Text.utf8 (Json.object (pairs.map fun (name, value) ↦ (name, ofValue value))).compact)
      pairs := by
  have hreadable : Json.Readable (depth + 1)
      (.object (pairs.map fun (name, value) ↦ (name, ofValue value))) := by
    refine .object fun member hmember ↦ ?_
    obtain ⟨e, he, rfl⟩ := List.mem_map.mp hmember
    exact (h e he).readable
  refine ⟨_, hreadable.ofGlyphs_compact, ?_⟩
  clear hreadable
  induction pairs with
  | nil => rfl
  | cons pair pairs ih =>
    obtain ⟨name, value⟩ := pair
    obtain ⟨hvalue, hpairs⟩ := List.forall_mem_cons.mp h
    change (decodeValue (ofValue value).tree >>= fun value ↦
      memberPairs decodeValue _ >>= fun pairs ↦ pure ((name, value) :: pairs)) = _
    rw [hvalue.decode_tree]
    change (memberPairs decodeValue _ >>= fun pairs ↦ pure ((name, value) :: pairs)) = _
    rw [ih hpairs]
    rfl

/-! ## Histories -/

/-- The entries and the index come of an empty map, of pairs, or of the members of an object, and of
any insertions and writes behind that; done to a plain list, the same gives this list. -/
inductive Reached : Raw α → List (String × α) → Prop
  | empty : Reached .empty []
  | ofList (pairs : List (String × α)) : Reached (ofList pairs).toRaw (Entries.putAll [] pairs)
  | decoded {decodeValue : Decoder α} {text : Text.Bytes} {m : NameMap α}
      {pairs : List (String × α)} (h : Json.Decode.bytes (decode decodeValue) text = .ok m)
      (htext : ObjectOf decodeValue text pairs) : Reached m.toRaw (Entries.putAll [] pairs)
  | insert {r : Raw α} {entries : List (String × α)} (h : Reached r entries) (name : String)
      (value : α) : Reached (r.insert name value).2 (Entries.put name value entries)
  | write {r : Raw α} {entries : List (String × α)} (h : Reached r entries) (name : String)
      (f : α → α) : Reached (r.alter name f) (Entries.alter name f entries)

theorem entries_foldl_insert (pairs : List (String × α)) (m : NameMap α) :
    (pairs.foldl (fun m (name, value) ↦ m.insert name value) m).entries =
      Entries.putAll m.entries pairs := by
  induction pairs generalizing m with
  | nil => rfl
  | cons pair pairs ih =>
    obtain ⟨name, value⟩ := pair
    rw [List.foldl_cons, ih, entries_insert, Entries.putAll, Entries.putAll, List.foldl_cons]

theorem entries_ofList_eq_putAll (pairs : List (String × α)) :
    (ofList pairs).entries = Entries.putAll [] pairs :=
  entries_foldl_insert pairs empty

variable {r : Raw α} {entries : List (String × α)}

/-- What a text has for members is a matter of the text. -/
theorem ObjectOf.unique {text : Text.Bytes} {pairs' : List (String × α)}
    (h : ObjectOf decodeValue text pairs) (h' : ObjectOf decodeValue text pairs') :
    pairs = pairs' := by
  obtain ⟨members, hmembers, hpairs⟩ := h
  obtain ⟨members', hmembers', hpairs'⟩ := h'
  obtain ⟨hnode, -⟩ := Prod.mk.inj (hmembers.symm.trans hmembers')
  obtain ⟨rfl, -⟩ := Json.Node.object.inj hnode
  exact Except.ok.inj (hpairs.symm.trans hpairs')

/-- Every operation keeps the index in step with the entries, and the entries equal to the list. -/
theorem Reached.followed (h : Reached r entries) : r.WF ∧ r.entries = entries := by
  induction h with
  | empty => exact ⟨.empty, rfl⟩
  | ofList pairs => exact ⟨(NameMap.ofList pairs).wf, entries_ofList_eq_putAll pairs⟩
  | @decoded decodeValue text m pairs h htext =>
    obtain ⟨pairs', htext', rfl⟩ := bytes_decode_eq_ok_iff.mp h
    obtain rfl := htext.unique htext'
    exact ⟨(NameMap.ofList pairs).wf, entries_ofList_eq_putAll pairs⟩
  | insert _ name value ih => exact ⟨ih.1.insert name value, by rw [ih.1.entries_insert, ih.2]⟩
  | write _ name f ih => exact ⟨ih.1.alter name f, by rw [ih.1.entries_alter, ih.2]⟩

/-! ## What a map can be asked -/

/-- The entries and the index say the same, and answer as the list does. -/
structure Mirrors (r : Raw α) (entries : List (String × α)) : Prop where
  /-- The index has each name with its place and nothing else. -/
  index_iff : ∀ (name : String) (i : Nat),
    r.index[name]? = some i ↔ ∃ value, r.entries[i]? = some (name, value)
  index_lt : ∀ (name : String) (i : Nat), r.index[name]? = some i → i < r.entries.length
  nodup_names : r.names.Nodup
  get? : ∀ name, r.get? name = entries.lookup name
  contains : ∀ name, r.contains name = true ↔ name ∈ Entries.names entries
  names : r.names = Entries.names entries
  toList : r.toList = entries
  size : r.size = entries.length
  isEmpty : r.isEmpty = true ↔ entries = []
  /-- An insertion answers the value that the name had. -/
  insert : ∀ name value, (r.insert name value).1 = entries.lookup name
  /-- The members of an object stand in the order of the list. -/
  toJson : ∀ ofValue : α → Json,
    r.toJson ofValue = .object (entries.map fun (name, value) ↦ (name, ofValue value))

theorem Raw.WF.index_iff (h : r.WF) {name : String} {i : Nat} :
    r.index[name]? = some i ↔ ∃ value, r.entries[i]? = some (name, value) := by
  have hplace (j : Nat) :
      r.names[j]? = some name ↔ ∃ value, r.entries[j]? = some (name, value) := by
    rw [Raw.names, Entries.names, List.getElem?_map, Option.map_eq_some_iff]
    constructor
    · rintro ⟨⟨_, value⟩, hentry, rfl⟩
      exact ⟨value, hentry⟩
    · rintro ⟨value, hentry⟩
      exact ⟨_, hentry, rfl⟩
  rw [h.index_eq, ← hplace]
  constructor
  · intro hi
    obtain ⟨hlt, hname, -⟩ := List.idxOf?_eq_some_iff.mp hi
    rw [List.getElem?_eq_getElem hlt, hname]
  · intro hi
    -- The name is found somewhere, and it stands nowhere else.
    obtain ⟨j, hj⟩ := Option.isSome_iff_exists.mp
      (List.isSome_idxOf?.mpr (List.mem_of_getElem? hi))
    obtain ⟨hlt, hname, -⟩ := List.idxOf?_eq_some_iff.mp hj
    have hsame : r.names[j]? = r.names[i]? := by
      rw [hi, List.getElem?_eq_getElem hlt, hname]
    rw [hj, (List.getElem?_inj hlt h.nodup_names).mp hsame]

theorem Raw.WF.mirrors (h : r.WF) : Mirrors r r.entries where
  index_iff _ _ := h.index_iff
  index_lt name i hi := by
    obtain ⟨value, hentry⟩ := h.index_iff.mp hi
    exact (List.getElem?_eq_some_iff.mp hentry).1
  nodup_names := h.nodup_names
  get? := h.get?_eq_lookup
  contains name := by
    rw [h.contains_eq, h.isSome_get?, List.isSome_idxOf?, Raw.names]
  names := rfl
  toList := rfl
  size := rfl
  isEmpty := List.isEmpty_iff
  insert name value := by rw [Raw.WF.insert_fst, h.get?_eq_lookup]
  toJson _ := rfl

/-- The index adds nothing to what the entries say. -/
theorem Raw.WF.eq_iff {r' : Raw α} (h : r.WF) (h' : r'.WF) : r = r' ↔ r.entries = r'.entries := by
  constructor
  · exact congrArg Raw.entries
  · intro hentries
    have hmap : NameMap.mk r h = NameMap.mk r' h' := NameMap.ext hentries
    exact congrArg NameMap.toRaw hmap

/-- Wherever a map comes from and whatever was done to it, entries and index are in step and it is
the map of its list; maps are equal if their entries are; and to decode an object is to insert its
members one by one. -/
theorem insertion_ordered [DecidableEq α] :
    (∀ {r : Raw α} {entries : List (String × α)}, Reached r entries → Mirrors r entries) ∧
      (∀ {r r' : Raw α} {entries entries' : List (String × α)}, Reached r entries →
        Reached r' entries' → ((r == r') = true ↔ r.entries = r'.entries)) ∧
      ∀ {decodeValue : Decoder α} {text : Text.Bytes} {m : NameMap α},
        Json.Decode.bytes (decode decodeValue) text = .ok m ↔
          ∃ pairs, ObjectOf decodeValue text pairs ∧ m = ofList pairs := by
  refine ⟨fun h ↦ ?_, fun h h' ↦ ?_, bytes_decode_eq_ok_iff⟩
  · obtain ⟨hwf, rfl⟩ := h.followed
    exact hwf.mirrors
  · rw [beq_iff_eq]
    exact h.followed.1.eq_iff h'.followed.1

/-- Attributes of which one is named twice. -/
def twiceNamed : List (String × AttributeValue) :=
  [("a", .number "1"), ("b", .null), ("a", .string "x")]

theorem insertion_ordered_twiceNamed :
    ∃ text, ∃ m : Item, Json.Decode.bytes Item.decode text = .ok m ∧
      ObjectOf AttributeValue.decode text twiceNamed ∧
      Mirrors ((m.toRaw.insert "c" .null).2.alter "b" fun _ ↦ .string "y")
        [("a", .string "x"), ("b", .string "y"), ("c", .null)] ∧
      (m.toRaw == (ofList [("a", .string "x"), ("b", .null)]).toRaw) = true := by
  have htext : ObjectOf AttributeValue.decode _ twiceNamed :=
    objectOf_compact fun e _ ↦ AttributeValue.denotes e.2
  have hdecoded := insertion_ordered.2.2.mpr ⟨_, htext, rfl⟩
  have hreached := Reached.decoded hdecoded htext
  exact ⟨_, _, hdecoded, htext,
    insertion_ordered.1 ((hreached.insert "c" .null).write "b" fun _ ↦ .string "y"),
    (insertion_ordered.2.1 hreached (.ofList _)).mpr (by decide)⟩

end NameMap

end ItemSql
