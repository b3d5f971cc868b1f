import ItemSql.Proofs.Statement.Placeholder

/-!
# How many parameters a statement takes

The binder follows the quotes of a statement and never looks at its tokens, and the scanner never
asks whether a parameter is due. Still they agree on what a placeholder is: whether parameters can
be bound, and with which error they cannot, depends on the statement only by the number of its
tokens that are placeholders.

`supply` is that dependence: it has seen the number and not the text. One induction over the tokens
of the text (`bindFrom_supply`) says that the binder answers as `supply` does, and what comes of too
many parameters or too few is then said of `supply`, by induction on the number that is due.
-/

namespace ItemSql.Binding

open Token

variable {used due : Nat} {cs : List Char} {ps : List Param}

/-- The number of placeholders among the tokens of a text. -/
def placeholders (query : String) : Nat :=
  (symbols (scan query)).count placeholder

/-- Numbers among the parameters are finite. -/
def AllFinite (ps : List Param) : Prop :=
  ∀ x, Param.float x ∈ ps → x.isFinite = true

/-- What comes of parameters when `due` placeholders are left and `used` are filled. -/
def supply (used : Nat) : Nat → List Param → Except BindError Unit
  | 0, [] => .ok ()
  | 0, ps => .error (.extraParameters used (used + ps.length))
  | _ + 1, [] => .error (.missingParameter used)
  | due + 1, p :: ps =>
    if p.hasText then supply (used + 1) due ps else .error (.nonFiniteFloat used)

/-! ## Parameters against a number -/

@[simp] theorem allFinite_nil : AllFinite [] := by
  rintro x ⟨⟩

@[simp] theorem allFinite_cons {p : Param} : AllFinite (p :: ps) ↔ p.hasText = true ∧ AllFinite ps := by
  constructor
  · intro h
    refine ⟨?_, fun x hx ↦ h x (List.mem_cons_of_mem _ hx)⟩
    cases p with
    | float x => exact h x List.mem_cons_self
    | _ => rfl
  · rintro ⟨hp, hps⟩ x hx
    rcases List.mem_cons.mp hx with rfl | hx
    · exact hp
    · exact hps x hx

theorem supply_cons {p : Param} (hp : p.hasText = true) :
    supply used (due + 1) (p :: ps) = supply (used + 1) due ps :=
  if_pos hp

theorem supply_eq_ok_iff : supply used due ps = .ok () ↔ ps.length = due ∧ AllFinite ps := by
  induction due generalizing used ps with
  | zero => cases ps <;> simp [supply]
  | succ due ih =>
    cases ps with
    | nil => simp [supply]
    | cons p ps =>
      rw [allFinite_cons, List.length_cons, Nat.succ_inj]
      by_cases hp : p.hasText = true
      · rw [supply_cons hp, ih]
        simp only [hp, true_and]
      · rw [supply, if_neg hp]
        simp [hp]

/-- Parameters that have a text go to placeholders until the one or the other runs out. -/
theorem supply_append (used due : Nat) (after : List Param) {before : List Param}
    (hbefore : AllFinite before) :
    supply used (before.length + due) (before ++ after) =
      supply (used + before.length) due after := by
  induction before generalizing used with
  | nil => rw [List.nil_append, List.length_nil, Nat.zero_add, Nat.add_zero]
  | cons p before ih =>
    rw [allFinite_cons] at hbefore
    rw [List.length_cons, List.cons_append, Nat.add_right_comm, supply_cons hbefore.1,
      ih _ hbefore.2, Nat.add_assoc, Nat.add_comm 1]

theorem supply_extra (hlength : due < ps.length) (hps : AllFinite (ps.take due)) :
    supply used due ps = .error (.extraParameters (used + due) (used + ps.length)) := by
  have htake : (ps.take due).length = due := List.length_take_of_le (Nat.le_of_lt hlength)
  have h := supply_append used 0 (ps.drop due) hps
  rw [List.take_append_drop, htake, Nat.add_zero] at h
  have hleft : due + (ps.drop due).length = ps.length := by
    rw [List.length_drop]
    omega
  rw [h, ← hleft]
  cases hdrop : ps.drop due with
  | nil =>
    rw [hdrop, List.length_nil] at hleft
    omega
  | cons p after =>
    rw [← Nat.add_assoc]
    rfl

theorem supply_missing (hlength : ps.length < due) (hps : AllFinite ps) :
    supply used due ps = .error (.missingParameter (used + ps.length)) := by
  obtain ⟨left, rfl⟩ := Nat.exists_eq_add_of_lt hlength
  have h := supply_append used (left + 1) [] hps
  rwa [List.append_nil] at h

theorem supply_nonFinite {before after : List Param} {p : Param} (hlength : before.length < due)
    (hbefore : AllFinite before) (hp : ¬ p.hasText = true) :
    supply used due (before ++ p :: after) = .error (.nonFiniteFloat (used + before.length)) := by
  obtain ⟨left, rfl⟩ := Nat.exists_eq_add_of_lt hlength
  rw [Nat.add_assoc, supply_append _ _ _ hbefore]
  exact if_neg hp

/-! ## Parameters against a text -/

/-- The result of binding without the bound text. -/
def outcome {α : Type} (result : Except BindError α) : Except BindError Unit :=
  result.map fun _ ↦ ()

section Outcome

variable {α β : Type} {result : Except BindError α}

@[simp] theorem outcome_map (f : α → β) : outcome (result.map f) = outcome result := by
  cases result <;> rfl

theorem outcome_eq_ok_iff : outcome result = .ok () ↔ ∃ a, result = .ok a := by
  cases result <;> simp [outcome, Except.map]

theorem outcome_eq_error_iff {e : BindError} : outcome result = .error e ↔ result = .error e := by
  cases result <;> simp [outcome, Except.map]

end Outcome

/-- The binder sees a placeholder where the scanner does. -/
theorem outcome_bindFrom (offset : Nat) :
    outcome (bindFrom .outside used cs ps) =
      supply used ((symbols (scanFrom 0 offset cs)).count placeholder) ps := by
  induction cs using cutInduction generalizing used offset ps with
  | nil => cases ps <;> rfl
  | blank c cs hc ih =>
    rw [← List.singleton_append, bindFrom_append (copied_blank hc), outcome_map, List.singleton_append,
      scanFrom_blank offset cs hc, ih]
  | token c cs hc ih =>
    rw [scanFrom_token offset cs hc, symbols_cons]
    by_cases hmark : c = '?'
    · subst hmark
      have hsymbol : symbol ⟨(measure '?' cs).1, cutText '?' cs, offset⟩ = placeholder := rfl
      rw [hsymbol, List.count_cons_self]
      cases ps with
      | nil => rfl
      | cons p ps =>
        rw [bindFrom_placeholder, supply]
        by_cases hp : p.hasText = true
        · rw [if_pos hp, if_pos hp, outcome_map]
          exact ih _
        · rw [if_neg hp, if_neg hp]
          rfl
    · -- A token of another kind may hold question marks, but inside of a literal only.
      have hsymbol : symbol ⟨(measure c cs).1, cutText c cs, offset⟩ ≠ placeholder :=
        symbol_ne_placeholder hmark
      rw [bindFrom_token hmark, outcome_map, List.count_cons_of_ne hsymbol]
      exact ih _

theorem outcome_bind (query : String) (ps : List Param) :
    outcome (bind query ps) = supply 0 (placeholders query) ps := by
  rw [bind, outcome_map, outcome_bindFrom 0]
  rfl

/-- Only parameters that have a text are bound. -/
theorem hasText_of_bind {query bound : String} (h : bind query ps = .ok bound) :
    ∀ p ∈ ps, p.hasText = true := by
  have hok : outcome (bind query ps) = .ok () := outcome_eq_ok_iff.mpr ⟨bound, h⟩
  rw [outcome_bind, supply_eq_ok_iff] at hok
  intro p hp
  cases p with
  | float x => exact hok.2 x hp
  | _ => rfl

theorem placeholders_eq_zero {query : String} :
    placeholders query = 0 ↔ placeholder ∉ symbols (scan query) :=
  List.count_eq_zero

/-- The first number that is not finite is an error where a placeholder is left for it. -/
theorem bind_nonFinite {query : String} {before after : List Param} {x : Float}
    (hlength : before.length < placeholders query) (hbefore : AllFinite before)
    (hx : ¬ (Param.float x).hasText = true) :
    bind query (before ++ .float x :: after) = .error (.nonFiniteFloat before.length) := by
  rw [← outcome_eq_error_iff, outcome_bind, supply_nonFinite hlength hbefore hx, Nat.zero_add]

/-- What the number of placeholders of a text says of binding parameters to them. -/
structure Counted (query : String) : Prop where
  /-- All placeholders are filled and no parameter is left over. -/
  ok_iff (ps : List Param) :
    (∃ bound, bind query ps = .ok bound) ↔ ps.length = placeholders query ∧ AllFinite ps
  extra (ps : List Param) : placeholders query < ps.length → AllFinite (ps.take (placeholders query)) →
    bind query ps = .error (.extraParameters (placeholders query) ps.length)
  missing (ps : List Param) : ps.length < placeholders query → AllFinite ps →
    bind query ps = .error (.missingParameter ps.length)
  nothing : bind query [] = .ok query ↔ placeholders query = 0
  parsed (r : Request) : Statement.parse query = .ok r → bind query [] = .ok query

/-- The binder and the scanner agree on what a placeholder is. -/
theorem counted (query : String) : Counted query where
  ok_iff ps := by
    rw [← outcome_eq_ok_iff, outcome_bind, supply_eq_ok_iff]
  extra ps hlength hps := by
    rw [← outcome_eq_error_iff, outcome_bind, supply_extra hlength hps, Nat.zero_add, Nat.zero_add]
  missing ps hlength hps := by
    rw [← outcome_eq_error_iff, outcome_bind, supply_missing hlength hps, Nat.zero_add]
  nothing := by
    constructor
    · intro h
      have hok : outcome (bind query []) = .ok () := outcome_eq_ok_iff.mpr ⟨query, h⟩
      rw [outcome_bind, supply_eq_ok_iff] at hok
      exact hok.1.symm
    · intro h
      exact bind_eq_self (placeholders_eq_zero.mp h)
  parsed r hr := Statement.bind_of_sentence (Statement.sentence_of_parse hr)

/-- The parameters `3` and `"?"` for the two placeholders of a text with a third question mark. -/
theorem counted_quotedMark :
    placeholders "a?'?'?" = 2 ∧
      (∃ bound, bind "a?'?'?" [.int 3, .string "?"] = .ok bound) ∧
      bind "a?'?'?" [.int 3, .string "?", .bool true] = .error (.extraParameters 2 3) ∧
      bind "a?'?'?" [.int 3] = .error (.missingParameter 1) ∧
      bind "drop table t" [] = .ok "drop table t" := by
  have hcount : placeholders "a?'?'?" = 2 := by rfl
  have hfinite : AllFinite [.int 3, .string "?"] := by simp [Param.hasText]
  refine ⟨hcount, ((counted _).ok_iff _).mpr ⟨hcount.symm, hfinite⟩, ?_, ?_, ?_⟩
  · have hextra := (counted "a?'?'?").extra [.int 3, .string "?", .bool true]
    rw [hcount] at hextra
    exact hextra (by decide) hfinite
  · refine (counted _).missing _ ?_ (by simp [Param.hasText])
    rw [hcount]
    decide
  · exact (counted _).parsed (.deleteTable ⟨"t"⟩) (by rfl)

end ItemSql.Binding
