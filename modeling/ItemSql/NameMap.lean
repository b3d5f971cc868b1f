import ItemSql.NameMap.Entries
import Std.Data.ExtTreeMap.Lemmas

/-!
# Maps from names

Items carry no schema, so the order in which their attributes were first named is the only order of
columns there is. A map from names keeps it: a name that is inserted again gets its new value where
it stands, and a new name goes to the end. No name occurs twice.

Beside the entries there is an index of where each name stands, so that a name is found without a
search. The two say the same thing and have to be kept in step. `NameMap.Raw` is the pair of them
with the operations as they run, `NameMap.Raw.WF` says that they are in step, and a `NameMap` is a
pair that is. Since nothing looks at the order of the index, two indexes are equal if they answer
alike.
-/

namespace ItemSql

/-! ## Entries and their index -/

namespace NameMap

/-- Values by name, in the order in which the names were first given, and the place of each name.
Nothing in this type keeps the two in step. -/
structure Raw (α : Type) where
  entries : List (String × α)
  index : Std.ExtTreeMap String Nat
  deriving DecidableEq

namespace Raw

variable {α : Type}

/-- No names. -/
def empty : Raw α :=
  ⟨[], ∅⟩

/-- The names and their values, in order. -/
def toList (r : Raw α) : List (String × α) :=
  r.entries

/-- The names, in order. -/
def names (r : Raw α) : List String :=
  Entries.names r.entries

/-- The number of names. -/
def size (r : Raw α) : Nat :=
  r.entries.length

/-- Whether there is no name. -/
def isEmpty (r : Raw α) : Bool :=
  r.entries.isEmpty

/-- The value of a name. The index tells its place. -/
def get? (r : Raw α) (name : String) : Option α :=
  (r.index[name]?).bind fun i ↦ (r.entries[i]?).map Prod.snd

/-- Whether a name has a value. The index knows. -/
def contains (r : Raw α) (name : String) : Bool :=
  r.index.contains name

/-- Changes the value of a name at its place, if it has one. -/
def alter (r : Raw α) (name : String) (f : α → α) : Raw α :=
  match r.index[name]? with
  | some i => { r with entries := Entries.alterAt i f r.entries }
  | none => r

/-- Gives a name a value, and answers the value it had. A name that has a value keeps its place; a
new name goes to the end of the entries and into the index. -/
def insert (r : Raw α) (name : String) (value : α) : Option α × Raw α :=
  match r.get? name with
  | some old => (some old, r.alter name fun _ ↦ value)
  | none => (none, ⟨r.entries ++ [(name, value)], r.index.insert name r.entries.length⟩)

/-- The entries and the index are in step: no name occurs twice, and the index has each name with
its place. -/
structure WF (r : Raw α) : Prop where
  nodup_names : r.names.Nodup
  index_eq : ∀ name, r.index[name]? = r.names.idxOf? name

namespace WF

variable {r : Raw α} {name : String}

theorem empty : (Raw.empty : Raw α).WF :=
  ⟨List.nodup_nil, fun _ ↦ Std.ExtTreeMap.getElem?_empty⟩

theorem get?_eq_lookup (h : r.WF) (name : String) : r.get? name = r.entries.lookup name := by
  rw [get?, h.index_eq, Entries.lookup_eq_getElem?, names]

theorem isSome_get? (h : r.WF) (name : String) :
    (r.get? name).isSome = (r.names.idxOf? name).isSome := by
  rw [h.get?_eq_lookup, Entries.isSome_lookup, names]

theorem contains_eq (h : r.WF) (name : String) : r.contains name = (r.get? name).isSome := by
  rw [contains, Std.ExtTreeMap.contains_eq_isSome_getElem?, h.index_eq, h.isSome_get?]

theorem entries_alter (h : r.WF) (name : String) (f : α → α) :
    (r.alter name f).entries = Entries.alter name f r.entries := by
  rw [alter, h.index_eq]
  cases hplace : r.names.idxOf? name with
  | none => exact (Entries.alter_of_idxOf?_eq_none hplace).symm
  | some i => exact (Entries.alter_of_idxOf?_eq_some h.nodup_names hplace).symm

theorem index_alter (r : Raw α) (name : String) (f : α → α) :
    (r.alter name f).index = r.index := by
  rw [alter]
  split <;> rfl

/-- Writing a value moves no name. -/
theorem alter (h : r.WF) (name : String) (f : α → α) : (r.alter name f).WF := by
  have hnames : (r.alter name f).names = r.names := by
    rw [names, h.entries_alter, Entries.names_alter, ← names]
  refine ⟨hnames ▸ h.nodup_names, fun other ↦ ?_⟩
  rw [index_alter, hnames, h.index_eq]

theorem insert_fst (r : Raw α) (name : String) (value : α) :
    (r.insert name value).1 = r.get? name := by
  rw [insert]
  split <;> simp only [*]

theorem entries_insert (h : r.WF) (name : String) (value : α) :
    (r.insert name value).2.entries = Entries.put name value r.entries := by
  have hplace := h.isSome_get? name
  rw [insert]
  split
  · rename_i old hget
    rw [hget, Option.isSome_some, eq_comm, Option.isSome_iff_exists] at hplace
    obtain ⟨i, hi⟩ := hplace
    rw [Entries.put_of_idxOf?_eq_some hi, Raw.alter, h.index_eq, hi]
  · rename_i hget
    rw [hget, Option.isSome_none, eq_comm, Option.isSome_eq_false_iff, Option.isNone_iff_eq_none]
      at hplace
    exact (Entries.put_of_idxOf?_eq_none hplace).symm

/-- A new name goes to the end, where the index has it from then on. -/
theorem insert (h : r.WF) (name : String) (value : α) : (r.insert name value).2.WF := by
  refine ⟨?_, fun other ↦ ?_⟩
  · rw [names, h.entries_insert]
    exact Entries.nodup_names_put name value h.nodup_names
  · rw [Raw.insert]
    split
    · exact (h.alter name _).index_eq other
    · rename_i hget
      have hnames : (Raw.mk (r.entries ++ [(name, value)])
          (r.index.insert name r.entries.length)).names = r.names ++ [name] :=
        List.map_append
      have hlength : r.names.length = r.entries.length := List.length_map _
      rw [hnames, Entries.idxOf?_append_singleton, Std.ExtTreeMap.getElem?_insert, h.index_eq,
        hlength]
      by_cases hother : name = other
      · -- The index had no place for the name, so the search comes to the end.
        subst hother
        have hnew := h.isSome_get? name
        rw [hget, Option.isSome_none, eq_comm, Option.isSome_eq_false_iff,
          Option.isNone_iff_eq_none] at hnew
        rw [if_pos Std.ReflCmp.compare_self, if_pos rfl, hnew, Option.none_or]
      · rw [if_neg (mt Std.LawfulEqCmp.eq_of_compare hother), if_neg hother, Option.or_none]

end WF

end Raw

end NameMap

/-! ## The map -/

/-- Values by name, in the order in which the names were first given. -/
structure NameMap (α : Type) extends NameMap.Raw α where
  wf : toRaw.WF
  deriving DecidableEq

namespace NameMap

variable {α β : Type}

/-- The map of no names. -/
def empty : NameMap α :=
  ⟨.empty, .empty⟩

instance : EmptyCollection (NameMap α) := ⟨empty⟩
instance : Inhabited (NameMap α) := ⟨empty⟩

/-- The names and their values, in order. -/
def toList (m : NameMap α) : List (String × α) :=
  m.toRaw.toList

/-- The names, in order. -/
def names (m : NameMap α) : List String :=
  m.toRaw.names

/-- The number of names. -/
def size (m : NameMap α) : Nat :=
  m.toRaw.size

/-- Whether there is no name. -/
def isEmpty (m : NameMap α) : Bool :=
  m.toRaw.isEmpty

/-- The value of a name. -/
def get? (m : NameMap α) (name : String) : Option α :=
  m.toRaw.get? name

/-- Whether a name has a value. -/
def contains (m : NameMap α) (name : String) : Bool :=
  m.toRaw.contains name

/-- Gives a name a value: where the name stands, or at the end if it is new. -/
def insert (m : NameMap α) (name : String) (value : α) : NameMap α :=
  ⟨(m.toRaw.insert name value).2, m.wf.insert name value⟩

/-- Changes the value of a name, if it has one. -/
def alter (m : NameMap α) (name : String) (f : α → α) : NameMap α :=
  ⟨m.toRaw.alter name f, m.wf.alter name f⟩

/-- The map that comes of inserting the pairs one by one. -/
def ofList (pairs : List (String × α)) : NameMap α :=
  pairs.foldl (fun m (name, value) ↦ m.insert name value) empty

/-- Takes a name out. -/
def erase (m : NameMap α) (name : String) : NameMap α :=
  .ofList (m.entries.filter fun (n, _) ↦ n ≠ name)

/-- The entries whose name is asked for, in the order of the map. -/
def restrict (m : NameMap α) (wanted : String → Bool) : NameMap α :=
  .ofList (m.entries.filter fun (name, _) ↦ wanted name)

theorem nodup_names (m : NameMap α) : (Entries.names m.entries).Nodup :=
  m.wf.nodup_names

/-- The entries determine the index. -/
theorem ext {m n : NameMap α} (h : m.entries = n.entries) : m = n := by
  obtain ⟨⟨entries, index⟩, hm⟩ := m
  obtain ⟨⟨_, index'⟩, hn⟩ := n
  obtain rfl := h
  obtain rfl : index = index' :=
    Std.ExtTreeMap.ext_getElem? fun name ↦ (hm.index_eq name).trans (hn.index_eq name).symm
  rfl

theorem get?_eq_lookup (m : NameMap α) (name : String) : m.get? name = m.entries.lookup name :=
  m.wf.get?_eq_lookup name

theorem contains_eq (m : NameMap α) (name : String) : m.contains name = (m.get? name).isSome :=
  m.wf.contains_eq name

@[simp] theorem entries_empty : (empty : NameMap α).entries = [] := rfl

@[simp] theorem entries_insert (m : NameMap α) (name : String) (value : α) :
    (m.insert name value).entries = Entries.put name value m.entries :=
  m.wf.entries_insert name value

@[simp] theorem entries_alter (m : NameMap α) (name : String) (f : α → α) :
    (m.alter name f).entries = Entries.alter name f m.entries :=
  m.wf.entries_alter name f

end NameMap

end ItemSql
