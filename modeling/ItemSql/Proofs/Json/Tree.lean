import ItemSql.Proofs.Json.Reading

/-!
# Values read back from their texts

The compact text of a value and its text over lines are documents of the grammar, and both say the
same tree. So a text that was written is read back: `ofGlyphs_compact` as a tree, which is what a
decoder walks, and `ofBytes_compact` as a value, with the members of its objects in order of their
names.

Not every value has a text that reads back. A double may have no digits at all, an integer beyond
64 bits is read as a double, and brackets may be open only so deep. `Readable` leaves these out; it
is the invariant of all inductions here, since the recursion of writer and reader is on it.
-/

namespace ItemSql.Json

/-- The value has no doubles and no integers beyond 64 bits, and its brackets are open inside each
other up to the given depth at most. -/
inductive Readable : Nat → Json → Prop
  | null (depth : Nat) : Readable depth .null
  | bool (depth : Nat) (b : Bool) : Readable depth (.bool b)
  | integer (depth : Nat) {n : Int} (h : IsWord n) : Readable depth (.integer n)
  | string (depth : Nat) (text : String) : Readable depth (.string text)
  | array {depth : Nat} {items : List Json} (h : ∀ v ∈ items, Readable depth v) :
      Readable (depth + 1) (.array items)
  | object {depth : Nat} {members : List (String × Json)} (h : ∀ m ∈ members, Readable depth m.2) :
      Readable (depth + 1) (.object members)

theorem Readable.mono {depth depth' : Nat} {v : Json} (h : Readable depth v)
    (hle : depth ≤ depth') : Readable depth' v := by
  induction h generalizing depth' with
  | null => exact .null _
  | bool _ b => exact .bool _ b
  | integer _ h => exact .integer _ h
  | string _ text => exact .string _ text
  | array _ ih =>
    obtain ⟨d, rfl⟩ := Nat.exists_eq_add_of_le' hle
    exact .array fun v hv ↦ ih v hv (Nat.le_add_left _ _)
  | object _ ih =>
    obtain ⟨d, rfl⟩ := Nat.exists_eq_add_of_le' hle
    exact .object fun m hm ↦ ih m hm (Nat.le_add_left _ _)

/-! ## The tree of a value -/

mutual

/-- The tree of a value. A double has none. -/
def tree : Json → Node
  | .null => .null
  | .bool b => .bool b
  | .integer n => .number (.ofInt n)
  | .double _ => .absent .noValue
  | .string text => .string (.ok text)
  | .array items => .array (itemTrees items) .closed
  | .object members => .object (memberTrees members) .closed

/-- The trees of items. -/
def itemTrees : List Json → List Node
  | [] => []
  | v :: vs => tree v :: itemTrees vs

/-- The trees of members. -/
def memberTrees : List (String × Json) → List (Node × Node)
  | [] => []
  | (name, v) :: ms => (.string (.ok name), tree v) :: memberTrees ms

end

theorem itemTrees_eq_map (items : List Json) : itemTrees items = items.map tree := by
  induction items with
  | nil => rfl
  | cons v vs ih => rw [itemTrees, ih, List.map_cons]

theorem memberTrees_eq_map (members : List (String × Json)) :
    memberTrees members = members.map fun m ↦ (.string (.ok m.1), m.2.tree) := by
  induction members with
  | nil => rfl
  | cons m ms ih => rw [memberTrees, ih, List.map_cons]

/-! ## Written lists -/

variable {depth : Nat} {w : List Char}

/-- What stands behind a list belongs to its last piece. -/
theorem intercalate_concat_append {α : Type} (a : α) (ps : List (List α)) (p w : List α) :
    [a].intercalate (ps ++ [p]) ++ w = [a].intercalate (ps ++ [p ++ w]) := by
  induction ps with
  | nil => rw [List.nil_append, List.intercalate_singleton, List.nil_append,
      List.intercalate_singleton]
  | cons q qs ih =>
    have hne (p : List α) : qs ++ [p] ≠ [] := List.concat_ne_nil p qs
    rw [List.cons_append, List.cons_append, List.intercalate_cons_of_ne_nil (hne p),
      List.intercalate_cons_of_ne_nil (hne (p ++ w)), List.append_assoc, ih]

theorem Spells.blankBehind {t : List Char} {node : Node} (h : Spells t node) (hw : Blank w) :
    Spells (t ++ w) node :=
  .blank (List.forall_mem_nil _) hw h

/-- Texts of the items, with commas between them and white space behind them, in brackets. -/
theorem spells_array {items : List Json} {text : Json → List Char} (hne : items ≠ [])
    (h : ∀ v ∈ items, Spells (text v) v.tree) (hw : Blank w) :
    Spells ('[' :: ([','].intercalate (items.map text) ++ (w ++ [']'])))
      (.array (itemTrees items) .closed) := by
  obtain rfl | ⟨init, last, rfl⟩ := List.eq_nil_or_concat' items
  · exact absurd rfl hne
  obtain ⟨hinit, hlast⟩ := List.forall_mem_append.mp h
  have harray := @Spells.array
    (init.map (fun v ↦ (text v, v.tree)) ++ [(text last ++ w, last.tree)])
    (List.concat_ne_nil _ _) (List.forall_mem_append.mpr ⟨List.forall_mem_map.mpr hinit,
      List.forall_mem_singleton.mpr ((hlast last List.mem_cons_self).blankBehind hw)⟩)
  rw [List.map_append, List.map_append, List.map_map, List.map_map, List.map_singleton,
    List.map_singleton, ← intercalate_concat_append, List.append_assoc] at harray
  rw [itemTrees_eq_map, List.map_append, List.map_append]
  exact harray

theorem spells_quoted (text : String) : Spells (quoted text) (.string (.ok text)) := by
  have h := Spells.string (stringText_flatMap_escape text.toList)
  rwa [String.ofList_toList] at h

/-- Texts of the members, with commas between them and white space behind them, in braces. -/
theorem spells_object {members : List (String × Json)} {before : List Char}
    (text : Json → List Char) (hne : members ≠ []) (hbefore : Blank before)
    (h : ∀ m ∈ members, Spells (text m.2) m.2.tree) (hw : Blank w) :
    Spells ('\x7b' :: ([','].intercalate
        (members.map fun m ↦ before ++ quoted m.1 ++ ':' :: text m.2) ++ (w ++ ['\x7d'])))
      (.object (memberTrees members) .closed) := by
  obtain rfl | ⟨init, last, rfl⟩ := List.eq_nil_or_concat' members
  · exact absurd rfl hne
  obtain ⟨hinit, hlast⟩ := List.forall_mem_append.mp h
  have hname (name : String) : Spells (before ++ quoted name) (.string (.ok name)) := by
    have hblank := Spells.blank hbefore (List.forall_mem_nil _) (spells_quoted name)
    rwa [List.append_nil] at hblank
  have hobject := @Spells.object
    (init.map (fun m ↦ ⟨before ++ quoted m.1, m.1, text m.2, m.2.tree⟩) ++
      [⟨before ++ quoted last.1, last.1, text last.2 ++ w, last.2.tree⟩])
    (List.concat_ne_nil _ _)
    (List.forall_mem_append.mpr ⟨List.forall_mem_map.mpr fun m _ ↦ hname m.1,
      List.forall_mem_singleton.mpr (hname last.1)⟩)
    (List.forall_mem_append.mpr ⟨List.forall_mem_map.mpr hinit,
      List.forall_mem_singleton.mpr ((hlast last List.mem_cons_self).blankBehind hw)⟩)
  have htext : MemberText.text ⟨before ++ quoted last.1, last.1, text last.2 ++ w, last.2.tree⟩ =
      before ++ quoted last.1 ++ ':' :: text last.2 ++ w :=
    (List.append_assoc _ (':' :: text last.2) w).symm
  rw [List.map_append, List.map_append, List.map_map, List.map_map, List.map_singleton,
    List.map_singleton, htext, ← intercalate_concat_append, List.append_assoc] at hobject
  rw [memberTrees_eq_map, List.map_append, List.map_append]
  exact hobject

/-! ## The two texts -/

/-- A text that is written piece by piece, with commas between the pieces. -/
theorem eq_intercalate {α : Type} {write : List α → List Char} (piece : α → List Char)
    (hnil : write [] = []) (hone : ∀ x, write [x] = piece x)
    (hmore : ∀ x y xs, write (x :: y :: xs) = piece x ++ ',' :: write (y :: xs)) (xs : List α) :
    write xs = [','].intercalate (xs.map piece) := by
  induction xs with
  | nil => exact hnil
  | cons x xs ih =>
    cases xs with
    | nil => rw [hone, List.map_singleton, List.intercalate_singleton]
    | cons y ys =>
      rw [hmore, ih, List.map_cons, List.map_cons, List.map_cons, intercalate_cons_cons]

theorem compactItems_eq (items : List Json) :
    compactItems items = [','].intercalate (items.map compactChars) :=
  eq_intercalate _ rfl (fun _ ↦ rfl) (fun _ _ _ ↦ rfl) items

theorem compactMembers_eq (members : List (String × Json)) :
    compactMembers members =
      [','].intercalate (members.map fun m ↦ [] ++ quoted m.1 ++ ':' :: compactChars m.2) :=
  eq_intercalate _ rfl (fun _ ↦ rfl) (fun _ _ _ ↦ rfl) members

theorem prettyItems_eq (level : Nat) (items : List Json) :
    prettyItems level items =
      [','].intercalate (items.map fun v ↦ newLine level ++ prettyChars level v) :=
  eq_intercalate _ rfl (fun _ ↦ rfl) (fun _ _ _ ↦ rfl) items

theorem prettyMembers_eq (level : Nat) (members : List (String × Json)) :
    prettyMembers level members = [','].intercalate
      (members.map fun m ↦ newLine level ++ quoted m.1 ++ ':' :: ' ' :: prettyChars level m.2) :=
  eq_intercalate _ rfl (fun _ ↦ rfl) (fun _ _ _ ↦ rfl) members

theorem blank_newLine (level : Nat) : Blank (newLine level) := by
  refine List.forall_mem_cons.mpr ⟨by decide, fun c hc ↦ ?_⟩
  rw [List.eq_of_mem_replicate hc]
  decide

theorem Readable.spells_compact {v : Json} (h : Readable depth v) :
    Spells v.compactChars v.tree := by
  induction h with
  | null => exact .null
  | bool _ b => exact .bool b
  | integer _ h => exact .number (numberText_intChars _)
  | string _ text => exact spells_quoted text
  | @array _ items _ ih =>
    rw [compactChars, compactItems_eq]
    cases items with
    | nil => exact .emptyArray (List.forall_mem_nil _)
    | cons v vs => exact spells_array (List.cons_ne_nil v vs) ih (List.forall_mem_nil _)
  | @object _ members _ ih =>
    rw [compactChars, compactMembers_eq]
    cases members with
    | nil => exact .emptyObject (List.forall_mem_nil _)
    | cons m ms =>
      exact spells_object compactChars (List.cons_ne_nil m ms) (List.forall_mem_nil _) ih
        (List.forall_mem_nil _)

theorem Readable.spells_pretty {v : Json} (h : Readable depth v) (level : Nat) :
    Spells (v.prettyChars level) v.tree := by
  have hspace : Blank [' '] := List.forall_mem_singleton.mpr List.mem_cons_self
  induction h generalizing level with
  | null => exact .null
  | bool _ b => exact .bool b
  | integer _ h => exact .number (numberText_intChars _)
  | string _ text => exact spells_quoted text
  | @array _ items _ ih =>
    cases items with
    | nil => exact .emptyArray (List.forall_mem_nil _)
    | cons v vs =>
      have hitems : ∀ v' ∈ v :: vs,
          Spells (newLine (level + 1) ++ prettyChars (level + 1) v') v'.tree := fun v' hv' ↦ by
        have hspelled := Spells.blank (blank_newLine (level + 1)) (List.forall_mem_nil _)
          (ih v' hv' (level + 1))
        rwa [List.append_nil] at hspelled
      have harray := spells_array (List.cons_ne_nil v vs) hitems (blank_newLine level)
      rw [← prettyItems_eq, ← List.append_assoc] at harray
      exact harray
  | @object _ members _ ih =>
    cases members with
    | nil => exact .emptyObject (List.forall_mem_nil _)
    | cons m ms =>
      have hmembers : ∀ m' ∈ m :: ms,
          Spells (' ' :: prettyChars (level + 1) m'.2) m'.2.tree := fun m' hm' ↦ by
        have hspelled := Spells.blank hspace (List.forall_mem_nil _) (ih m' hm' (level + 1))
        rwa [List.append_nil] at hspelled
      have hobject := spells_object (fun v ↦ ' ' :: prettyChars (level + 1) v)
        (List.cons_ne_nil m ms) (blank_newLine (level + 1)) hmembers (blank_newLine level)
      rw [← prettyMembers_eq, ← List.append_assoc] at hobject
      exact hobject

/-! ## The value of a tree -/

theorem values_itemTrees {items : List Json} (h : ∀ v ∈ items, v.tree.value depth = .ok v) :
    Node.values depth (itemTrees items) = .ok items := by
  induction items with
  | nil => rfl
  | cons v vs ih =>
    obtain ⟨hv, hvs⟩ := List.forall_mem_cons.mp h
    rw [itemTrees, Node.values, hv, ih hvs]
    rfl

theorem memberValues_memberTrees {members : List (String × Json)}
    (h : ∀ m ∈ members, m.2.tree.value depth = .ok m.2) :
    Node.memberValues depth (memberTrees members) = .ok members := by
  induction members with
  | nil => rfl
  | cons m ms ih =>
    obtain ⟨name, v⟩ := m
    obtain ⟨hv, hms⟩ := List.forall_mem_cons.mp h
    rw [memberTrees, Node.memberValues, hv, ih hms]
    rfl

theorem Readable.value_tree {v : Json} (h : Readable depth v) : v.tree.value depth = .ok v := by
  induction h with
  | null | bool | string => rfl
  | integer _ h =>
    rw [tree, Node.value, Node.ofNumber, value?_ofInt h]
  | array _ ih =>
    rw [tree, Node.value, values_itemTrees ih]
    rfl
  | object _ ih =>
    rw [tree, Node.value, memberValues_memberTrees ih]
    rfl

theorem Readable.document_compact {v : Json} (h : Readable depth v) :
    Document v.compact v.tree := by
  rw [Document, compact, String.toList_ofList]
  exact h.spells_compact

theorem Readable.document_pretty {v : Json} (h : Readable depth v) : Document v.pretty v.tree := by
  rw [Document, pretty, String.toList_ofList]
  exact h.spells_pretty 0

/-- The bytes of a written value are read as its tree, with nothing left behind it. -/
theorem Readable.ofGlyphs_compact {v : Json} (h : Readable depth v) :
    Node.ofGlyphs (Text.Glyph.ofBytes (Text.utf8 v.compact)) = (v.tree, true) :=
  h.document_compact.ofGlyphs

/-- The bytes of a written value are read as the value, its members in order of their names. -/
theorem Readable.ofBytes_compact {v : Json} (h : Readable depth v) (hdepth : depth ≤ depthLimit) :
    Json.ofBytes (Text.utf8 v.compact) = .ok v.ordered := by
  rw [Json.ofBytes, h.ofGlyphs_compact]
  dsimp only
  rw [(h.mono hdepth).value_tree]
  rfl

end ItemSql.Json
