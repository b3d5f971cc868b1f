/-!
# Lists of named values

What it means to give a name a value is said here once, for lists: a name that is there gets its new
value where it stands first, and a new name goes to the end.

The place of a name is where a search for it ends. Whoever knows the place can leave the search out;
the second half of this module says that the outcome is the same.
-/

namespace ItemSql.Entries

variable {α : Type}

/-- The names, in order. -/
def names (entries : List (String × α)) : List String :=
  entries.map Prod.fst

/-- Gives `name` the value where it stands, or at the end if it is new. -/
def put (name : String) (value : α) : List (String × α) → List (String × α)
  | [] => [(name, value)]
  | (n, v) :: rest =>
    if n = name then (n, value) :: rest else (n, v) :: put name value rest

/-- Changes the value of `name`, if there is one. -/
def alter (name : String) (f : α → α) (entries : List (String × α)) : List (String × α) :=
  entries.map fun (n, v) ↦ if n = name then (n, f v) else (n, v)

/-- Changes the value at a place, if there is one. -/
def alterAt (i : Nat) (f : α → α) (entries : List (String × α)) : List (String × α) :=
  entries.modify i fun (n, v) ↦ (n, f v)

theorem names_put (name : String) (value : α) (entries : List (String × α)) :
    names (put name value entries) =
      if name ∈ names entries then names entries else names entries ++ [name] := by
  induction entries with
  | nil => rfl
  | cons e rest ih =>
    obtain ⟨n, v⟩ := e
    by_cases h : n = name
    · simp [put, names, h]
    · have h' : name ≠ n := fun e ↦ h e.symm
      simp only [names] at ih
      by_cases hm : name ∈ rest.map Prod.fst <;> simp_all [put, names]

theorem names_alter (name : String) (f : α → α) (entries : List (String × α)) :
    names (alter name f entries) = names entries := by
  simp only [names, alter, List.map_map]
  refine List.map_congr_left fun e _ ↦ ?_
  simp only [Function.comp]
  split <;> rfl

theorem nodup_names_put (name : String) (value : α) {entries : List (String × α)}
    (h : (names entries).Nodup) : (names (put name value entries)).Nodup := by
  rw [names_put]
  split
  · exact h
  · rename_i hm
    refine List.nodup_append.2 ⟨h, by simp, fun a ha b hb hab ↦ hm ?_⟩
    rw [List.mem_singleton.1 hb] at hab
    exact hab ▸ ha

/-! ## Places -/

variable {name n : String} {value v : α} {f : α → α} {rest entries : List (String × α)} {i : Nat}

theorem alter_cons :
    alter name f ((n, v) :: rest) = (n, if n = name then f v else v) :: alter name f rest := by
  rw [alter, List.map_cons, ← alter]
  dsimp only
  split <;> rfl

theorem idxOf?_names_cons :
    (names ((n, v) :: rest)).idxOf? name =
      if n = name then some 0 else ((names rest).idxOf? name).map (· + 1) := by
  rw [names, List.map_cons, List.idxOf?_cons, ← names]
  by_cases h : n = name
  · rw [if_pos h, if_pos (beq_iff_eq.mpr h)]
  · rw [if_neg h, if_neg (mt beq_iff_eq.mp h)]

theorem lookup_cons :
    ((n, v) :: rest).lookup name = if n = name then some v else rest.lookup name := by
  by_cases h : n = name
  · rw [if_pos h, h, List.lookup_cons_self]
  · rw [if_neg h, List.lookup_cons, beq_false_of_ne (Ne.symm h)]

/-- A look-up answers the value at the place of the name. -/
theorem lookup_eq_getElem? (entries : List (String × α)) :
    entries.lookup name =
      ((names entries).idxOf? name).bind fun i ↦ (entries[i]?).map Prod.snd := by
  induction entries with
  | nil => rfl
  | cons e rest ih =>
    obtain ⟨n, v⟩ := e
    rw [idxOf?_names_cons, lookup_cons]
    split
    · rfl
    · rw [Option.bind_map]
      exact ih

theorem isSome_lookup (entries : List (String × α)) :
    (entries.lookup name).isSome = ((names entries).idxOf? name).isSome := by
  induction entries with
  | nil => rfl
  | cons e rest ih =>
    obtain ⟨n, v⟩ := e
    rw [idxOf?_names_cons, lookup_cons]
    split
    · rfl
    · rw [Option.isSome_map, ih]

theorem put_of_idxOf?_eq_some (h : (names entries).idxOf? name = some i) :
    put name value entries = alterAt i (fun _ ↦ value) entries := by
  induction entries generalizing i with
  | nil => cases h
  | cons e rest ih =>
    obtain ⟨n, v⟩ := e
    rw [idxOf?_names_cons] at h
    rw [put]
    split at h
    · rename_i hn
      obtain rfl := Option.some.inj h
      rw [if_pos hn, alterAt, List.modify_zero_cons]
    · rename_i hn
      obtain ⟨j, hj, rfl⟩ := Option.map_eq_some_iff.mp h
      rw [if_neg hn, alterAt, List.modify_succ_cons, ih hj, alterAt]

theorem put_of_idxOf?_eq_none (h : (names entries).idxOf? name = none) :
    put name value entries = entries ++ [(name, value)] := by
  induction entries with
  | nil => rfl
  | cons e rest ih =>
    obtain ⟨n, v⟩ := e
    rw [idxOf?_names_cons] at h
    split at h
    · cases h
    · rename_i hn
      rw [put, if_neg hn, ih (Option.map_eq_none_iff.mp h), List.cons_append]

theorem alter_of_idxOf?_eq_none (h : (names entries).idxOf? name = none) :
    alter name f entries = entries := by
  induction entries with
  | nil => rfl
  | cons e rest ih =>
    obtain ⟨n, v⟩ := e
    rw [idxOf?_names_cons] at h
    split at h
    · cases h
    · rename_i hn
      rw [alter_cons, if_neg hn, ih (Option.map_eq_none_iff.mp h)]

/-- Where no name occurs twice, the place of a name has all there is to change. -/
theorem alter_of_idxOf?_eq_some (hnames : (names entries).Nodup)
    (h : (names entries).idxOf? name = some i) : alter name f entries = alterAt i f entries := by
  induction entries generalizing i with
  | nil => cases h
  | cons e rest ih =>
    obtain ⟨n, v⟩ := e
    obtain ⟨hnew, hrest⟩ := List.nodup_cons.mp hnames
    rw [idxOf?_names_cons] at h
    rw [alter_cons]
    split at h
    · rename_i hn
      obtain rfl := Option.some.inj h
      have hnone : (names rest).idxOf? name = none := List.idxOf?_eq_none_iff.mpr (hn ▸ hnew)
      rw [if_pos hn, alter_of_idxOf?_eq_none hnone, alterAt, List.modify_zero_cons]
    · rename_i hn
      obtain ⟨j, hj, rfl⟩ := Option.map_eq_some_iff.mp h
      rw [if_neg hn, alterAt, List.modify_succ_cons, ih hrest hj, alterAt]

theorem idxOf?_append_singleton (names : List String) (name other : String) :
    (names ++ [name]).idxOf? other =
      (names.idxOf? other).or (if name = other then some names.length else none) := by
  change (names ++ [name]).findIdx? (· == other) = (names.findIdx? (· == other)).or _
  rw [List.findIdx?_append, List.findIdx?_cons, List.findIdx?_nil]
  by_cases h : name = other
  · rw [if_pos h, if_pos (beq_iff_eq.mpr h), Option.map_some, Nat.zero_add]
  · rw [if_neg h, if_neg (mt beq_iff_eq.mp h), Option.map_none, Option.map_none]

end ItemSql.Entries
