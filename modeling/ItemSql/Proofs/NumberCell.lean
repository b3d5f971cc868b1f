import ItemSql.Projection
import ItemSql.Proofs.Decimal.Exact
import ItemSql.Proofs.Token.Numeral

/-!
# Numbers as cells

A cell holds an integer of 64 bits. The number of a statement is stored by its text, and the cell is
read from this text by a reader of integers, which knows neither fractions nor exponents. So it is
the spelling that decides and not the number. An integer that is spelled with a fraction or an
exponent is taken for none: it reads as zero, or the row fails (`realize_scanned`).
-/

namespace ItemSql

namespace Decimal

variable {cs : List Char}

theorem IsDigits.isBlank_eq_false (h : IsDigits cs) : ∀ c ∈ cs, Text.isBlank c = false :=
  fun c hc ↦ Text.isBlank_eq_false_of_isDigit (h.2 c hc)

theorem Fraction.isBlank_eq_false (h : Fraction cs) : ∀ c ∈ cs, Text.isBlank c = false := by
  cases h with
  | none => nofun
  | some hds => exact List.forall_mem_cons.mpr ⟨by decide, hds.isBlank_eq_false⟩

theorem Exponent.isBlank_eq_false (h : Exponent cs) : ∀ c ∈ cs, Text.isBlank c = false := by
  cases h with
  | none => nofun
  | some hmark hsign hds =>
    refine List.forall_mem_cons.mpr ⟨?_, List.forall_mem_append.mpr ⟨?_, hds.isBlank_eq_false⟩⟩
    · rcases hmark with rfl | rfl <;> decide
    · simp only [List.mem_cons, List.not_mem_nil, or_false] at hsign
      rcases hsign with rfl | rfl | rfl
      · nofun
      · exact List.forall_mem_singleton.mpr (by decide)
      · exact List.forall_mem_singleton.mpr (by decide)

theorem Unsigned.isBlank_eq_false (h : Unsigned cs) : ∀ c ∈ cs, Text.isBlank c = false := by
  obtain ⟨hwhole, hfraction, hexponent⟩ := h
  exact List.forall_mem_append.mpr ⟨hwhole.isBlank_eq_false,
    List.forall_mem_append.mpr ⟨hfraction.isBlank_eq_false, hexponent.isBlank_eq_false⟩⟩

theorem Numeral.isBlank_eq_false (h : Numeral cs) : ∀ c ∈ cs, Text.isBlank c = false := by
  cases h with
  | plain h => exact h.isBlank_eq_false
  | negative h => exact List.forall_mem_cons.mpr ⟨by decide, h.isBlank_eq_false⟩

theorem Numeral.ne_plus (h : Numeral cs) (ds : List Char) : cs ≠ '+' :: ds := by
  rintro rfl
  cases h with
  | plain h =>
    obtain ⟨d, ds', hcs, hd⟩ := h.exists_cons
    obtain ⟨rfl, -⟩ := List.cons.inj hcs
    exact absurd hd (by decide)

theorem Numeral.trim_eq {text : String} (h : Numeral text.toList) : Text.trim text = text := by
  rw [Text.trim, Text.trimChars_eq_self h.isBlank_eq_false, String.ofList_toList]

theorem Numeral.ne_empty {text : String} (h : Numeral text.toList) : text ≠ "" := by
  rintro rfl
  cases h with
  | plain h =>
    obtain ⟨d, ds, hcs, -⟩ := h.exists_cons
    cases hcs

end Decimal

open Decimal

variable {text column : String} {policy : NumberPolicy}

theorem realize_number (text column : String) (policy : NumberPolicy) :
    realize (some (.number text)) column policy = realizeNumber text column policy := by
  rw [realize.eq_def]

/-- There is nothing to trim. -/
theorem realizeNumber_of_numeral (h : Numeral text.toList) {n : Int64}
    (hread : int64? text = some n) : realizeNumber text column policy = .ok (.int n) := by
  rw [realizeNumber.eq_def, h.trim_eq]
  dsimp only
  rw [if_neg h.ne_empty, hread]

theorem realizeNumber_of_numeral_eq_none (h : Numeral text.toList) (hread : int64? text = none) :
    realizeNumber text column .lenient = .ok (.int 0) ∧
      realizeNumber text column .strict = .error (.invalidNumber column text) := by
  rw [realizeNumber.eq_def, realizeNumber.eq_def, h.trim_eq]
  dsimp only
  rw [if_neg h.ne_empty, if_neg h.ne_empty, hread]
  exact ⟨rfl, rfl⟩

/-- An integer of 64 bits is read as itself, under either policy. -/
theorem realizeNumber_ofInt (n : Int64) (column : String) (policy : NumberPolicy) :
    realizeNumber (Decimal.ofInt n.toInt) column policy = .ok (.int n) :=
  realizeNumber_of_numeral (numeral_ofInt n.toInt) (int64?_ofInt_toInt n)

/-- A numeral that denotes an integer of 64 bits is read by its spelling. -/
theorem Decimal.Denotes.int64? {n : Int64} (h : Numeral text.toList)
    (hdenotes : Denotes text.toList (n.toInt : ℤ)) :
    Decimal.int64? text = if Unscaled text.toList then some n else none := by
  split
  · rename_i hunscaled
    rw [int64?_eq_some_iff h.ne_plus]
    exact ⟨n.toInt, hdenotes.integral_iff.mpr hunscaled, n.minValue_le_toInt, n.toInt_le,
      n.ofInt_toInt.symm⟩
  · rename_i hscaled
    -- No integer is read, whichever is denoted: its text would have neither part.
    rw [Option.eq_none_iff_forall_ne_some]
    intro m hm
    obtain ⟨z, hz, -⟩ := (int64?_eq_some_iff h.ne_plus).mp hm
    exact hscaled hz.unscaled

namespace Token

/-- Every number of a text denotes a number. If this is an integer of 64 bits, it is read back as
itself where it is written with neither a fraction nor an exponent. Otherwise it is read back as
zero, or the row fails. -/
theorem realize_scanned {source : String} {t : Token} (ht : t ∈ scan source)
    (hkind : t.kind = .number) (column : String) :
    (∃ v, Denotes t.text.toList v) ∧
      ∀ n : Int64, Denotes t.text.toList (n.toInt : ℤ) →
        (Unscaled t.text.toList →
          ∀ policy, realize (some (.number t.text)) column policy = .ok (.int n)) ∧
        (¬ Unscaled t.text.toList →
          realize (some (.number t.text)) column .lenient = .ok (.int 0) ∧
          realize (some (.number t.text)) column .strict =
            .error (.invalidNumber column t.text)) := by
  have hnumeral : Numeral t.text.toList := by
    refine ((scanned_scan source).isCut t.symbol (List.mem_map_of_mem ht) ?_).numeral hkind
    rw [Token.symbol, hkind]
    nofun
  refine ⟨hnumeral.exists_denotes, fun n hn ↦ ⟨fun hunscaled policy ↦ ?_, fun hscaled ↦ ?_⟩⟩
  · rw [realize_number]
    refine realizeNumber_of_numeral hnumeral ?_
    rw [hn.int64? hnumeral, if_pos hunscaled]
  · rw [realize_number, realize_number]
    refine realizeNumber_of_numeral_eq_none hnumeral ?_
    rw [hn.int64? hnumeral, if_neg hscaled]

/-- A number with leading zeros. -/
def paddedText : String :=
  "insert into t (n) values (-0042)"

theorem realize_scanned_padded :
    ∃ t ∈ scan paddedText, t.kind = .number ∧ Unscaled t.text.toList ∧
      Denotes t.text.toList ((-42 : Int64).toInt : ℤ) ∧
      ∀ policy, realize (some (.number t.text)) "n" policy = .ok (.int (-42)) := by
  have hmem : ⟨.number, "-0042", 26⟩ ∈ scan paddedText := by decide +kernel
  have hintegral : Integral "-0042".toList (-42 : Int64).toInt :=
    .negative (by decide) (List.all_eq_true.mp rfl)
  obtain ⟨-, hread⟩ := realize_scanned hmem rfl "n"
  exact ⟨_, hmem, rfl, hintegral.unscaled, hintegral.denotes,
    (hread (-42) hintegral.denotes).1 hintegral.unscaled⟩

/-- A number with an exponent. -/
def thousandText : String :=
  "insert into t (n) values (1e3)"

/-- An integer that is read back as zero, or rejected for being none. -/
theorem realize_scanned_not_self :
    ∃ t ∈ scan thousandText, t.kind = .number ∧ Denotes t.text.toList ((1000 : Int64).toInt : ℤ) ∧
      realize (some (.number t.text)) "n" .lenient = .ok (.int 0) ∧
      realize (some (.number t.text)) "n" .strict = .error (.invalidNumber "n" "1e3") := by
  have hdenotes : Denotes "1e3".toList ((1000 : Int64).toInt : ℤ) := by
    have hwhole : IsDigits ['1'] := ⟨by decide, List.all_eq_true.mp rfl⟩
    have hexponent : ExponentOf ['e', '3'] 3 :=
      .unsigned (.inl rfl) ⟨by decide, List.all_eq_true.mp rfl⟩
    have hvalue : ((Nat.ofDigitChars 10 ['1'] 0 : ℚ) + 0) * 10 ^ (3 : ℤ) =
        ((1000 : Int64).toInt : ℤ) := by
      have hthousand : (1000 : Int64).toInt = 1000 := by decide
      have hone : Nat.ofDigitChars 10 ['1'] 0 = 1 := by decide
      rw [hthousand, hone]
      norm_num
    exact hvalue ▸ .plain (.mk hwhole .none hexponent)
  refine ⟨⟨.number, "1e3", 26⟩, by decide +kernel, rfl, hdenotes, ?_, ?_⟩
  · decide +kernel
  · decide +kernel

end Token

end ItemSql
