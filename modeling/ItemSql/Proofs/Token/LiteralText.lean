import ItemSql.Literal
import ItemSql.Proofs.Token.Agree
import ItemSql.Proofs.Token.Numeral

/-!
# Where literals end

A token begins with a digit, or with a minus sign and a digit, exactly if it is a number, and then
it is the longest numeral that the text has there. A token that begins with a quote is a string if
that quote comes again without a backslash before it, and it ends with the first one that does;
otherwise it is unknown and takes the rest of the text (`cutExactly_of_mem_scan`).

That a number is longest is a property of the whole numeral, while the scanner decides part by part
and never takes one back. It need not: what may stand behind a part does not begin with what goes on
it, so a longer numeral has the same first parts.

The scanner and the reader of a literal both look for escapes, the one to find the end and the other
to take them away, and they do not look for the same ones. A literal is therefore described once, by
its *pieces*, and each of the two is shown to go from piece to piece.
-/

namespace ItemSql

/-! ## Pieces of a literal -/

namespace Literal

/-- A part of what stands between the quotes: a character, or a backslash with the character that it
escapes. -/
inductive Piece where
  | plain (c : Char)
  | escaped (c : Char)

/-- The characters of a piece. -/
def Piece.written : Piece → List Char
  | .plain c => [c]
  | .escaped c => ['\\', c]

/-- What a piece stands for: a quote or a backslash that is escaped is taken for itself, and
everything else as it is written. -/
def Piece.read : Piece → List Char
  | .plain c => [c]
  | .escaped c => if c ∈ ['"', '\'', '\\'] then [c] else ['\\', c]

/-- The piece can stand between these quotes: neither a quote nor a backslash is a character by
itself. -/
def Piece.Within (quote : Char) : Piece → Prop
  | .plain c => c ≠ quote ∧ c ≠ '\\'
  | .escaped _ => True

/-- The text begins with a quote, pieces, and the quote that closes them. -/
inductive Quoted (quote : Char) (ps : List Piece) : List Char → Prop
  | mk (hps : ∀ p ∈ ps, p.Within quote) (rest : List Char) :
      Quoted quote ps (quote :: (ps.flatMap Piece.written ++ quote :: rest))

variable {ps : List Piece} {quote : Char}

theorem unescape_cons {c : Char} (hc : c ≠ '\\') (cs : List Char) :
    unescape (c :: cs) = c :: unescape cs := by
  rw [unescape] <;> rintro _ rfl <;> exact absurd rfl hc

theorem unescape_escaped (c : Char) (cs : List Char) :
    unescape ('\\' :: c :: cs) = (Piece.escaped c).read ++ unescape cs := by
  by_cases hc : c ∈ ['"', '\'', '\\']
  · rw [Piece.read, if_pos hc]
    simp only [List.mem_cons, List.not_mem_nil, or_false] at hc
    rcases hc with rfl | rfl | rfl <;> rfl
  · rw [Piece.read, if_neg hc]
    simp only [List.mem_cons, List.not_mem_nil, or_false, not_or] at hc
    obtain ⟨hdouble, hsingle, hbackslash⟩ := hc
    rw [unescape, unescape_cons hbackslash]
    · rfl
    · exact fun _ _ hcons ↦ hdouble (List.cons.inj hcons).1
    · exact fun _ _ hcons ↦ hsingle (List.cons.inj hcons).1
    · exact fun _ _ hcons ↦ hbackslash (List.cons.inj hcons).1

/-- The reader takes one piece after the other. -/
theorem unescape_written (hps : ∀ p ∈ ps, p.Within quote) :
    unescape (ps.flatMap Piece.written) = ps.flatMap Piece.read := by
  induction ps with
  | nil => rfl
  | cons p ps ih =>
    have hrest := ih fun q hq ↦ hps q (List.mem_cons_of_mem _ hq)
    rw [List.flatMap_cons, List.flatMap_cons]
    cases p with
    | plain c =>
      have hwithin : c ≠ quote ∧ c ≠ '\\' := hps _ List.mem_cons_self
      rw [Piece.written, List.singleton_append, unescape_cons hwithin.2, hrest]
      rfl
    | escaped c =>
      rw [← hrest]
      exact unescape_escaped c _

end Literal

namespace Token

open Decimal Literal

variable {cs ds rest : List Char} {quote : Char} {ps : List Piece}

/-! ## The end of a string -/

/-- The scanner takes one piece after the other, up to the quote that closes them. -/
theorem closing_written (hquote : IsQuote quote) (hps : ∀ p ∈ ps, p.Within quote) :
    closing quote (ps.flatMap Piece.written ++ quote :: rest) =
      some ((ps.flatMap Piece.written).length + 1) := by
  induction ps with
  | nil =>
    change closing quote (quote :: rest) = _
    rw [closing_cons hquote.ne_backslash, if_pos rfl]
    rfl
  | cons p ps ih =>
    have hrest := ih fun q hq ↦ hps q (List.mem_cons_of_mem _ hq)
    rw [List.flatMap_cons, List.append_assoc, List.length_append]
    cases p with
    | plain c =>
      have hwithin : c ≠ quote ∧ c ≠ '\\' := hps _ List.mem_cons_self
      rw [Piece.written, List.singleton_append, closing_cons hwithin.2, if_neg hwithin.1, hrest,
        Option.map_some, List.length_singleton]
      congr 1
      omega
    | escaped c =>
      change closing quote ('\\' :: c :: (ps.flatMap Piece.written ++ quote :: rest)) = _
      rw [closing, hrest, Option.map_some]
      change some _ = some (2 + _ + 1)
      congr 1
      omega

/-- Where the scanner finds an end, pieces stand before it. -/
theorem exists_pieces_of_closing :
    ∀ {n : Nat}, closing quote cs = some n → ∃ (ps : List Piece) (rest : List Char),
      (∀ p ∈ ps, p.Within quote) ∧ cs = ps.flatMap Piece.written ++ quote :: rest := by
  fun_induction closing quote cs with
  | case1 => intro n h; cases h
  | case2 => intro n h; cases h
  | case3 c cs ih =>
    intro n h
    obtain ⟨m, hm, -⟩ := Option.map_eq_some_iff.mp h
    obtain ⟨ps, rest, hps, rfl⟩ := ih hm
    exact ⟨.escaped c :: ps, rest, List.forall_mem_cons.mpr ⟨trivial, hps⟩, rfl⟩
  | case4 cs => exact fun _ ↦ ⟨[], cs, List.forall_mem_nil _, rfl⟩
  | case5 c cs hlast hmore hc ih =>
    intro n h
    obtain ⟨m, hm, -⟩ := Option.map_eq_some_iff.mp h
    obtain ⟨ps, rest, hps, rfl⟩ := ih hm
    have hwithin : c ≠ quote ∧ c ≠ '\\' := ⟨hc, ne_backslash hlast hmore⟩
    exact ⟨.plain c :: ps, rest, List.forall_mem_cons.mpr ⟨hwithin, hps⟩, rfl⟩

theorem Measured.isQuote {c : Char} {n : Nat} (h : Measured c cs .string n) :
    IsQuote c ∧ closing c cs = some n := by
  cases h with
  | closed hquote hclosing => exact ⟨hquote, hclosing⟩
  | word _ hword => cases hword ▸ worded _

/-- A literal that is closed is cut off behind the quote that closes it. -/
theorem measure_quoted (hquote : IsQuote quote) (hps : ∀ p ∈ ps, p.Within quote)
    (rest : List Char) : measure quote (ps.flatMap Piece.written ++ quote :: rest) =
      (.string, (ps.flatMap Piece.written).length + 1) :=
  measure_of_closing hquote (closing_written hquote hps)

theorem cutText_quoted (hquote : IsQuote quote) (hps : ∀ p ∈ ps, p.Within quote)
    (rest : List Char) : (cutText quote (ps.flatMap Piece.written ++ quote :: rest)).toList =
      quote :: (ps.flatMap Piece.written ++ [quote]) := by
  rw [toList_cutText, measure_quoted hquote hps, List.take_length_add_append]
  rfl

/-- A literal is read piece by piece. -/
theorem unquote_quoted (hps : ∀ p ∈ ps, p.Within quote) {text : String}
    (htext : text.toList = quote :: (ps.flatMap Piece.written ++ [quote])) :
    (unquote text).toList = ps.flatMap Piece.read := by
  rw [unquote, String.toList_ofList, htext, List.tail_cons, List.dropLast_concat,
    unescape_written hps]

/-! ## Numbers -/

/-- The text begins with a digit, or with a minus sign and a digit. -/
inductive BeginsNumber : List Char → Prop
  | plain {d : Char} (hd : d.isDigit = true) (rest : List Char) : BeginsNumber (d :: rest)
  | negative {d : Char} (hd : d.isDigit = true) (rest : List Char) : BeginsNumber ('-' :: d :: rest)

theorem measure_number_iff {c : Char} : (measure c cs).1 = .number ↔ BeginsNumber (c :: cs) := by
  constructor
  · intro hkind
    have hmeasured := measured c cs
    rw [hkind] at hmeasured
    generalize (measure c cs).2 = n at hmeasured
    cases hmeasured with
    | negative hc hdigits =>
      obtain ⟨d, ds, rfl, hd⟩ := digitRun_ne_zero_iff.mp hdigits
      subst hc
      exact .negative hd ds
    | number hc => exact .plain hc cs
    | word _ hword => cases hword ▸ worded _
  · intro hbegins
    cases hbegins with
    | plain hd => rw [measure_of_isDigit hd]
    | @negative d hd rest =>
      have hdigits : digitRun (d :: rest) ≠ 0 := digitRun_ne_zero_iff.mpr ⟨d, rest, rfl, hd⟩
      change (if digitRun (d :: rest) = 0 then (Kind.unknown, 0) else _).1 = _
      rw [if_neg hdigits]

/-- No numeral goes further than a number that is measured. -/
theorem Measured.length_le {c : Char} {n : Nat} (h : Measured c cs .number n) (hds : Numeral ds)
    (hfront : ds <+: c :: cs) : ds.length ≤ n + 1 := by
  obtain ⟨rest, htext⟩ := hfront
  -- The numeral has a minus sign if and only if the text has one.
  cases hds with
  | plain hds =>
    have hle := length_le_numberRun hds rest
    rw [htext] at hle
    obtain ⟨d, ds, rfl, hd⟩ := hds.exists_cons
    obtain ⟨rfl, -⟩ := List.cons.inj htext
    cases h with
    | negative hc => exact absurd hc (ne_sign_of_isDigit hd).2
    | number => omega
    | word _ hword => cases hword ▸ worded _
  | negative hds =>
    have hle := length_le_numberRun hds rest
    obtain ⟨rfl, rfl⟩ := List.cons.inj htext
    cases h with
    | negative => exact Nat.succ_le_succ hle
    | number hd => cases hd
    | word _ hword => cases hword ▸ worded _

/-! ## Exact tokens -/

/-- The token is what the characters begin with, for a number or for what begins with a quote. -/
structure CutExactly (cs : List Char) (t : Token) : Prop where
  number_iff : t.kind = .number ↔ BeginsNumber cs
  /-- The text of a number is the longest numeral at the front. -/
  longest : t.kind = .number → Numeral t.text.toList ∧ t.text.toList <+: cs ∧
    ∀ ds, Numeral ds → ds <+: cs → ds <+: t.text.toList
  string_iff : t.kind = .string ↔ ∃ quote ps, IsQuote quote ∧ Quoted quote ps cs
  /-- A literal that is closed goes up to the quote that closes it, and is read piece by piece. -/
  quoted : ∀ quote ps, IsQuote quote → Quoted quote ps cs →
    t.text.toList = quote :: (ps.flatMap Piece.written ++ [quote]) ∧
      (unquote t.text).toList = ps.flatMap Piece.read
  /-- One that is not goes up to the end. -/
  unclosed : ∀ quote rest, IsQuote quote → cs = quote :: rest → (∀ ps, ¬ Quoted quote ps cs) →
    t.kind = .unknown ∧ t.text.toList = cs

theorem cutExactly_end (offset : Nat) : CutExactly [] ⟨.endOfInput, "", offset⟩ where
  number_iff := ⟨nofun, nofun⟩
  longest := nofun
  string_iff := ⟨nofun, by rintro ⟨_, _, -, ⟨⟩⟩⟩
  quoted := by rintro _ _ - ⟨⟩
  unclosed := nofun

theorem cutExactly_cut (c : Char) (cs : List Char) (offset : Nat) :
    CutExactly (c :: cs) ⟨(measure c cs).1, cutText c cs, offset⟩ where
  number_iff := measure_number_iff
  longest hkind := by
    have hmeasured := measured c cs
    have hcut : Symbol.IsCut ⟨(measure c cs).1, cutText c cs⟩ :=
      ⟨c, cs, _, hmeasured, toList_cutText c cs⟩
    have hfront : (cutText c cs).toList <+: c :: cs := ⟨_, cutText_append_cutRest c cs⟩
    rw [show (measure c cs).1 = .number from hkind] at hmeasured
    refine ⟨hcut.numeral hkind, hfront, fun ds hds hdsFront ↦ ?_⟩
    refine List.prefix_of_prefix_length_le hdsFront hfront ?_
    rw [toList_cutText, List.length_cons, List.length_take_of_le (measure_le c cs)]
    exact hmeasured.length_le hds hdsFront
  string_iff := by
    constructor
    · intro hkind
      have hmeasured := measured c cs
      rw [show (measure c cs).1 = .string from hkind] at hmeasured
      obtain ⟨hquote, hclosing⟩ := hmeasured.isQuote
      obtain ⟨ps, rest, hps, rfl⟩ := exists_pieces_of_closing hclosing
      exact ⟨c, ps, hquote, .mk hps rest⟩
    · rintro ⟨quote, ps, hquote, hquoted⟩
      cases hquoted with
      | mk hps rest => exact congrArg Prod.fst (measure_quoted hquote hps rest)
  quoted quote ps hquote hquoted := by
    cases hquoted with
    | mk hps rest =>
      have htext := cutText_quoted hquote hps rest
      exact ⟨htext, unquote_quoted hps htext⟩
  unclosed quote rest hquote hcs hopen := by
    obtain ⟨rfl, rfl⟩ := List.cons.inj hcs
    have hclosing : closing c cs = none := by
      rw [Option.eq_none_iff_forall_not_mem]
      intro n hn
      obtain ⟨ps, rest, hps, rfl⟩ := exists_pieces_of_closing hn
      exact hopen ps (.mk hps rest)
    have hmeasure := measure_of_unclosed hquote hclosing
    exact ⟨congrArg Prod.fst hmeasure, by rw [toList_cutText, hmeasure, List.take_length]⟩

/-- Every token is cut exactly off what stands behind its offset. -/
theorem cutExactly_of_mem_scanFrom (cs : List Char) : ∀ offset, ∀ t ∈ scanFrom 0 offset cs,
    ∃ before rest, cs = before ++ rest ∧
      t.offset = offset + (String.ofList before).utf8ByteSize ∧ CutExactly rest t := by
  induction cs using cutInduction with
  | nil =>
    intro offset t ht
    obtain rfl := List.mem_singleton.mp ht
    exact ⟨[], [], rfl, rfl, cutExactly_end offset⟩
  | blank c cs hc ih =>
    intro offset t ht
    rw [scanFrom_blank offset cs hc] at ht
    obtain ⟨before, rest, rfl, hoffset, hcut⟩ := ih _ t ht
    refine ⟨c :: before, rest, rfl, ?_, hcut⟩
    rw [hoffset, utf8ByteSize_ofList_cons, Nat.add_assoc]
  | token c cs hc ih =>
    intro offset t ht
    rw [scanFrom_token offset cs hc] at ht
    rcases List.mem_cons.mp ht with rfl | ht
    · exact ⟨[], c :: cs, rfl, rfl, cutExactly_cut c cs offset⟩
    · obtain ⟨before, rest, hcs, hoffset, hcut⟩ := ih _ t ht
      refine ⟨(cutText c cs).toList ++ before, rest, ?_, ?_, hcut⟩
      · rw [List.append_assoc, ← hcs, cutText_append_cutRest]
      · rw [hoffset, String.ofList_append, String.ofList_toList, String.utf8ByteSize_append,
          Nat.add_assoc]

/-- Literals are cut exactly. Every token begins at its offset. There it is a number if and only if
a digit stands there, with a minus sign before it or without, and then it is the longest numeral
there; where a quote stands it is a string up to the first quote of the same kind that no backslash
escapes, and unknown up to the end of the text if there is none. A string is read as what stands
between its quotes, with escaped quotes and backslashes taken for themselves. -/
theorem cutExactly_of_mem_scan {source : String} {t : Token} (ht : t ∈ scan source) :
    ∃ before rest : String, source = before ++ rest ∧ before.utf8ByteSize = t.offset ∧
      CutExactly rest.toList t := by
  obtain ⟨before, rest, htext, hoffset, hcut⟩ := cutExactly_of_mem_scanFrom _ 0 t ht
  refine ⟨String.ofList before, String.ofList rest, ?_, ?_, ?_⟩
  · rw [← String.ofList_append, ← htext, String.ofList_toList]
  · rw [hoffset, Nat.zero_add]
  · rw [String.toList_ofList]
    exact hcut

/-- A number before the mark of an exponent that has no digits, and a string with two backslashes
of which one escapes a quote. -/
def literalText : String :=
  "-1.5e+'a\\'\\n'"

theorem cutExactly_of_mem_scan_literalText :
    symbols (scan literalText) = [⟨.number, "-1.5"⟩, ⟨.identifier, "e"⟩, ⟨.unknown, "+"⟩,
      ⟨.string, "'a\\'\\n'"⟩, endSymbol] ∧
      (∃ before rest : String, literalText = before ++ rest ∧ before.utf8ByteSize = 0 ∧
        CutExactly rest.toList ⟨.number, "-1.5", 0⟩) ∧
      ∃ before rest : String, literalText = before ++ rest ∧ before.utf8ByteSize = 6 ∧
        CutExactly rest.toList ⟨.string, "'a\\'\\n'", 6⟩ :=
  ⟨by decide +kernel, cutExactly_of_mem_scan (t := ⟨.number, "-1.5", 0⟩) (by decide +kernel),
    cutExactly_of_mem_scan (t := ⟨.string, "'a\\'\\n'", 6⟩) (by decide +kernel)⟩

end Token

end ItemSql
