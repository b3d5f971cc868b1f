import ItemSql.Proofs.Statement.Clauses

/-!
# Queries read their nonterminal

A query is the one form whose parser is not a left-to-right copy of its grammar. A limit may stand
behind the table or at the end, and where there is nothing between the two places the parser takes
it to be the first. So the parser finds one of two derivations, and a derivation of the other kind
has to be brought into its form before the parser can be said to follow it.
-/

namespace ItemSql.Statement

open Token ItemSql.Parser Grammar

/-! ## What a clause begins with -/

/-- One of the keywords, or what ends a statement. -/
def Opens (words : List String) (s : Symbol) : Prop :=
  (∃ word ∈ words, Keyword word s) ∨ s.kind = .semicolon ∨ s.kind = .endOfInput

variable {words : List String} {s : Symbol} {v w : List Symbol}

theorem Opens.not_keyword (hs : Opens words s) {word : String} (hword : word ∉ words) :
    ¬ Keyword word s := by
  intro hk
  rcases hs with ⟨word', hword', hk'⟩ | hs | hs
  · exact hword (hk.eq hk' ▸ hword')
  · exact hk.kind_ne (by decide) hs
  · exact hk.kind_ne (by decide) hs

theorem Opens.not_conjunction (hs : Opens words s) (hand : "and" ∉ words) (hor : "or" ∉ words) :
    ¬ Conjunction s := by
  rintro (hk | hk | hoperator)
  · exact hs.not_keyword hand hk
  · exact hs.not_keyword hor hk
  · rcases hs with ⟨word, -, hk⟩ | hs | hs
    · exact hk.kind_ne (by decide) hoperator
    · cases hs.symm.trans hoperator
    · cases hs.symm.trans hoperator

theorem opens_of_keyword {word : String} (hk : Keyword word s) (hword : word ∈ words) :
    Opens words s :=
  .inl ⟨word, hword, hk⟩

theorem Grammar.Ending.follows (words : List String) (h : Ending w) : Follows (Opens words) w := by
  cases h with
  | bare => exact follows_cons (.inr (.inr rfl))
  | semicolon => exact follows_cons (.inr (.inl rfl))

theorem Grammar.Ending.not_keyword (word : String) (h : Ending w) :
    Follows (fun s ↦ ¬ Keyword word s) w :=
  (h.follows []).imp fun _ hs ↦ hs.not_keyword List.not_mem_nil

theorem Grammar.Limit.follows {n? : Option Int32} (h : Limit w n?) (hword : "limit" ∈ words)
    (hv : Follows (Opens words) v) : Follows (Opens words) (w ++ v) := by
  cases h with
  | none => exact hv
  | some hk => exact follows_cons (opens_of_keyword hk hword)

theorem Grammar.Order.follows {forward? : Option Bool} (h : Order w forward?)
    (hword : "order" ∈ words) (hv : Follows (Opens words) v) :
    Follows (Opens words) (w ++ v) := by
  cases h with
  | unsaid => exact hv
  | order hk => exact follows_cons (opens_of_keyword hk hword)

theorem Grammar.Where.follows {conditions : NameMap Condition} (h : Where w conditions)
    (hword : "where" ∈ words) (hv : Follows (Opens words) v) :
    Follows (Opens words) (w ++ v) := by
  cases h with
  | unsaid => exact hv
  | clause hk => exact follows_cons (opens_of_keyword hk hword)

/-! ## Columns -/

theorem Grammar.SepBy.follows {α : Type} {separator F : Symbol → Prop}
    {element : List Symbol → α → Prop} {as : List α} (h : SepBy separator element w as)
    (helement : ∀ v a, element v a → Follows F v) : Follows F w := by
  cases h with
  | one ha => exact helement _ _ ha
  | more ha => exact (helement _ _ ha).append

theorem reads_columns : Reads columns Columns (Keyword "from") := by
  have hchain : Reads (chain identifier comma) (SepBy Comma Name) (Keyword "from") :=
    ((tests_kind .comma (by decide)).reads_chain reads_identifier fun _ _ ↦ trivial).mono
      fun _ hs ↦ ⟨trivial, hs.kind_ne (by decide)⟩
  have hname {v : List Symbol} {names : List String} (h : SepBy Comma Name v names) :
      Follows (fun s ↦ s.kind = .identifier) v :=
    h.follows fun _ _ h ↦ by
      cases h
      exact follows_cons rfl
  have hlisted := (tests_keyword "from").reads_ifPeek (reads_pure []) hchain
    (fun v names rest hv hrest ↦ by rw [hv.1]; exact hrest)
    fun v names rest hv _ ↦ ((hname hv).imp fun _ hs hk ↦ hk.kind_ne (by decide) hs).append
  -- A wildcard, a name and `from` are in three classes, so the first symbol tells them apart.
  refine Reads.congr ((tests_kind .wildcard (by decide)).reads_eatIf (reads_pure [])
    hlisted ?_) fun w names ↦ ?_
  · rintro v names rest (⟨rfl, -⟩ | hv) hrest
    · exact hrest.imp fun _ hk ↦ hk.kind_ne (by decide)
    · refine ((hname hv).imp fun s hs hwildcard ↦ ?_).append
      cases hs.symm.trans hwildcard
  · constructor
    · rintro (⟨⟨_, star⟩, _, rfl, rfl, rfl, rfl⟩ | ⟨rfl, rfl⟩ | hw)
      · exact .all star
      · exact .unsaid
      · exact .listed hw
    · rintro (star | - | hw)
      · exact .inl ⟨_, _, rfl, rfl, rfl, rfl⟩
      · exact .inr (.inl ⟨rfl, rfl⟩)
      · exact .inr (.inr hw)

/-! ## Limits -/

/-- The number of a limit is one that the grammar allows, once it is known to be scanned. -/
private theorem limitNumber_iff {text : String} {n? : Option Int32}
    (hcut : Symbol.IsCut ⟨.number, text⟩) :
    (∃ n, Decimal.int32? text = some n ∧ 0 ≤ n ∧ n? = some n) ↔
      ∃ z, Decimal.Integral text.toList z ∧ 0 ≤ z ∧ z ≤ Int32.maxValue.toInt ∧
        n? = some (Int32.ofInt z) := by
  have hint32 {n : Int32} := Decimal.int32?_eq_some_iff (hcut.number_head rfl) (n := n)
  constructor
  · rintro ⟨n, hn, hzero, rfl⟩
    obtain ⟨z, hz, hlow, hhigh, rfl⟩ := hint32.mp hn
    exact ⟨z, hz, (Decimal.zero_le_ofInt_iff hlow hhigh).mp hzero, hhigh, rfl⟩
  · rintro ⟨z, hz, hzero, hhigh, rfl⟩
    have hlow : Int32.minValue.toInt ≤ z := Int.le_trans (by decide) hzero
    exact ⟨_, hint32.mpr ⟨z, hz, hlow, hhigh, rfl⟩,
      (Decimal.zero_le_ofInt_iff hlow hhigh).mpr hzero, rfl⟩

private theorem reads_limitNumber : Reads (do
      let value ← expect .number
      match Decimal.int32? value with
      | some n => if 0 ≤ n then return some n else fail (.invalidLimit value)
      | none => fail (.invalidLimit value))
    (fun w n? ↦ ∃ text z, w = [⟨.number, text⟩] ∧ Decimal.Integral text.toList z ∧ 0 ≤ z ∧
      z ≤ Int32.maxValue.toInt ∧ n? = some (Int32.ofInt z)) Any := by
  have hvalue (value : String) : Reads (match Decimal.int32? value with
      | some n => if 0 ≤ n then return some n else fail (.invalidLimit value)
      | none => fail (.invalidLimit value) : Parser (Option Int32))
      (fun w n? ↦ w = [] ∧ ∃ n, Decimal.int32? value = some n ∧ 0 ≤ n ∧ n? = some n) Any := by
    cases Decimal.int32? value with
    | none => exact (reads_fail _).congr (by simp)
    | some n =>
      by_cases hn : 0 ≤ n
      · simp only [if_pos hn]
        exact (reads_pure _).congr (by simp [hn])
      · simp only [if_neg hn]
        exact (reads_fail _).congr (by simp [hn])
  refine ((takes_expect (by decide)).bind hvalue).congr_of_isCut fun w n? hcut ↦ ?_
  constructor
  · rintro ⟨_, text, _, rfl, rfl, rfl, hn⟩
    obtain ⟨z, hz⟩ := (limitNumber_iff (hcut _ List.mem_cons_self)).mp hn
    exact ⟨text, z, rfl, hz⟩
  · rintro ⟨text, z, rfl, hz⟩
    exact ⟨_, text, [], rfl, rfl, rfl, (limitNumber_iff (hcut _ List.mem_cons_self)).mpr ⟨z, hz⟩⟩

/-- What may stand behind the word, if no limit was given before. -/
private def OnlyNumber (given? : Option Int32) (w : List Symbol) (n? : Option Int32) : Prop :=
  given? = none ∧ ∃ text z, w = [⟨.number, text⟩] ∧ Decimal.Integral text.toList z ∧ 0 ≤ z ∧
    z ≤ Int32.maxValue.toInt ∧ n? = some (Int32.ofInt z)

/-- With a limit given before, there may not be another. -/
theorem reads_limit (given? : Option Int32) : Reads (limit given?)
    (fun w n? ↦ ∃ here?, Limit w here? ∧ (given? = none ∨ here? = none) ∧ n? = given?.or here?)
    (fun s ↦ ¬ Keyword "limit" s) := by
  have hbehind (t : Token) : Reads (if given?.isSome then unexpected t .oneLimit
      else do
        let value ← expect .number
        match Decimal.int32? value with
        | some n => if 0 ≤ n then return some n else fail (.invalidLimit value)
        | none => fail (.invalidLimit value))
      (OnlyNumber given?) (fun s ↦ ¬ Keyword "limit" s) := by
    cases given? with
    | some given => exact (reads_fail _).congr (by simp [OnlyNumber])
    | none => exact (reads_limitNumber.mono fun _ _ ↦ trivial).congr (by simp [OnlyNumber])
  refine ((tests_keyword "limit").reads_ifNext (Y := fun _ ↦ OnlyNumber given?) hbehind
    (reads_pure given?) fun v _ rest hv hrest ↦ by rw [hv.1]; exact hrest).congr fun w n? ↦ ?_
  constructor
  · rintro (⟨k, _, rfl, hk, rfl, text, z, rfl, hz, hlow, hhigh, rfl⟩ | ⟨rfl, rfl⟩)
    · exact ⟨_, .some hk hz hlow hhigh, .inl rfl, rfl⟩
    · exact ⟨none, .none, .inr rfl, (Option.or_none).symm⟩
  · rintro ⟨_, hw, honce, rfl⟩
    cases hw with
    | none => exact .inr ⟨rfl, Option.or_none⟩
    | some hk hz hlow hhigh =>
      obtain rfl : given? = none := honce.resolve_right (Option.some_ne_none _)
      exact .inl ⟨_, _, rfl, hk, rfl, _, _, rfl, hz, hlow, hhigh, rfl⟩

/-! ## Conditions and orders -/

theorem reads_conditions :
    Reads conditions Where fun s ↦ ¬ Keyword "where" s ∧ ¬ Conjunction s := by
  have hchain : Reads (chain expression conjunction) (SepBy Conjunction Comparison)
      fun s ↦ Any s ∧ ¬ Conjunction s :=
    tests_conjunction.reads_chain reads_expression fun _ _ ↦ trivial
  have hclause := (hchain.map Expression.conditions).mono
    (G := fun s ↦ ¬ Keyword "where" s ∧ ¬ Conjunction s) fun _ hs ↦ ⟨trivial, hs.2⟩
  refine Reads.congr ((tests_keyword "where").reads_optional hclause ∅ fun _ hs ↦ hs.1)
    fun w answer ↦ ?_
  constructor
  · rintro (⟨k, _, rfl, hk, clause, hw, rfl⟩ | ⟨rfl, rfl⟩)
    · exact .clause hk hw
    · exact .unsaid
  · intro h
    cases h with
    | unsaid => exact .inr ⟨rfl, rfl⟩
    | clause hk hw => exact .inl ⟨_, _, rfl, hk, _, hw, rfl⟩

private theorem reads_direction : Reads (do
      if ← eatKeyword "desc" then return some false
      else
        let _ ← eatKeyword "asc"
        return some true)
    (fun w forward? ↦ ∃ forward, Direction w forward ∧ forward? = some forward)
    (fun s ↦ ¬ Keyword "desc" s ∧ ¬ Keyword "asc" s) := by
  have hascending := (tests_keyword "asc").reads_eatIf (g := fun _ ↦ pure (some true))
    (G := fun s ↦ ¬ Keyword "desc" s ∧ ¬ Keyword "asc" s) (reads_pure _) (reads_pure _)
    fun v _ rest hv hrest ↦ by rw [hv.1]; exact hrest.imp fun _ hs ↦ hs.2
  refine Reads.congr ((tests_keyword "desc").reads_eatIf (reads_pure _) hascending ?_)
    fun w forward? ↦ ?_
  · rintro v _ rest (⟨k, _, rfl, hk, -⟩ | ⟨rfl, -⟩) hrest
    · exact follows_cons fun hk' ↦ absurd (hk.eq hk') (by decide)
    · exact hrest.imp fun _ hs ↦ hs.1
  · constructor
    · rintro (⟨k, _, rfl, hk, rfl, rfl⟩ | ⟨k, _, rfl, hk, rfl, rfl⟩ | ⟨rfl, rfl⟩)
      · exact ⟨false, .descending hk, rfl⟩
      · exact ⟨true, .ascending hk, rfl⟩
      · exact ⟨true, .unsaid, rfl⟩
    · rintro ⟨_, hw, rfl⟩
      cases hw with
      | unsaid => exact .inr (.inr ⟨rfl, rfl⟩)
      | ascending hk => exact .inr (.inl ⟨_, _, rfl, hk, rfl, rfl⟩)
      | descending hk => exact .inl ⟨_, _, rfl, hk, rfl, rfl⟩

theorem reads_order :
    Reads order Order fun s ↦ ¬ Keyword "order" s ∧ ¬ Keyword "desc" s ∧ ¬ Keyword "asc" s := by
  have hbehind := (takes_expectKeyword "by").bind fun _ ↦ takes_identifier.bind fun _ ↦
    reads_direction.mono
      (G := fun s ↦ ¬ Keyword "order" s ∧ ¬ Keyword "desc" s ∧ ¬ Keyword "asc" s) fun _ hs ↦ hs.2
  refine Reads.congr ((tests_keyword "order").reads_optional hbehind none fun _ hs ↦ hs.1)
    fun w answer ↦ ?_
  constructor
  · rintro (⟨k, _, rfl, hk, l, _, _, rfl, hl, _, name, _, rfl, rfl, forward, hw, rfl⟩ | ⟨rfl, rfl⟩)
    · exact .order hk hl hw
    · exact .unsaid
  · intro h
    cases h with
    | unsaid => exact .inr ⟨rfl, rfl⟩
    | order hk hl hw =>
      exact .inl ⟨_, _, rfl, hk, _, (), _, rfl, hl, _, _, _, rfl, rfl, _, hw, rfl⟩

/-! ## The whole query -/

/-- What stands behind the first place for a limit, with the end of the statement. -/
private inductive Tail (table : String) (names : List String) (early? : Option Int32) :
    List Symbol → Request → Prop
  | mk {w₁ w₂ w₃ e : List Symbol} {conditions : NameMap Condition} {forward? : Option Bool}
      {late? : Option Int32} (hconditions : Where w₁ conditions) (horder : Order w₂ forward?)
      (hlate : Limit w₃ late?) (honce : early? = none ∨ late? = none) (he : Ending e) :
      Tail table names early? (w₁ ++ (w₂ ++ (w₃ ++ e)))
        (.query ⟨table, names, conditions, early?.or late?, forward?⟩)

private theorem ends_tail (table : String) (names : List String) (early? : Option Int32) :
    Ends (do
      let conditions ← conditions
      let forward? ← order
      let limit? ← limit early?
      finish
      return .query ⟨table, names, conditions, limit?, forward?⟩) (Tail table names early?) := by
  have hlimit (conditions : NameMap Condition) (forward? : Option Bool) :=
    (reads_limit early?).ends_bind (fun limit? ↦ ends_finish_pure (Request.query
      ⟨table, names, conditions, limit?, forward?⟩)) fun _ _ _ h ↦ h.1.not_keyword "limit"
  have horder (conditions : NameMap Condition) := reads_order.ends_bind (hlimit conditions) (by
    rintro forward? _ _ ⟨u, _, v, rfl, ⟨late?, hlate, -⟩, he, -⟩
    have hfollows : Follows (Opens ["limit"]) (u ++ v) := hlate.follows (by decide) (he.follows _)
    exact hfollows.imp fun _ hs ↦ ⟨hs.not_keyword (by decide), hs.not_keyword (by decide),
      hs.not_keyword (by decide)⟩)
  refine (reads_conditions.ends_bind horder ?_).congr fun w r ↦ ?_
  · rintro answer _ _ ⟨u, forward?, _, rfl, hu, u', _, v, rfl, ⟨late?, hlate, -⟩, he, -⟩
    have hfollows : Follows (Opens ["order", "limit"]) (u ++ (u' ++ v)) :=
      hu.follows (by decide) (hlate.follows (by decide) (he.follows _))
    exact hfollows.imp fun _ hs ↦ ⟨hs.not_keyword (by decide),
      hs.not_conjunction (by decide) (by decide)⟩
  · constructor
    · rintro ⟨w₁, answer, _, rfl, hconditions, w₂, forward?, _, rfl, horder, w₃, _, e, rfl,
        ⟨late?, hlate, honce, rfl⟩, he, rfl⟩
      exact .mk hconditions horder hlate honce he
    · rintro ⟨hconditions, horder, hlate, honce, he⟩
      exact ⟨_, _, _, rfl, hconditions, _, _, _, rfl, horder, _, _, _, rfl,
        ⟨_, hlate, honce, rfl⟩, he, rfl⟩

/-- Where a limit could stand in either place, it is moved to the first. The rest then begins with
something else. -/
private theorem tail_early {table : String} {names : List String} {early? : Option Int32}
    {w v : List Symbol} {r : Request} (hearly : Limit w early?)
    (htail : Tail table names early? v r) :
    ∃ w' early?' v', w ++ v = w' ++ v' ∧ Limit w' early?' ∧ Tail table names early?' v' r ∧
      Follows (fun s ↦ ¬ Keyword "limit" s) v' := by
  obtain @⟨w₁, w₂, w₃, e, answer, forward?, late?, hconditions, horder, hlate, honce, he⟩ := htail
  cases hlate with
  | none =>
    refine ⟨w, early?, _, rfl, hearly, .mk hconditions horder .none honce he, ?_⟩
    have hfollows : Follows (Opens ["where", "order"]) (w₁ ++ (w₂ ++ e)) :=
      hconditions.follows (by decide) (horder.follows (by decide) (he.follows _))
    exact hfollows.imp fun _ hs ↦ hs.not_keyword (by decide)
  | some hk htext hlow hhigh =>
    -- The only limit is the late one. It moves if nothing stands before it.
    obtain rfl : early? = none := honce.resolve_right (Option.some_ne_none _)
    cases hearly
    have hlate := Limit.some hk htext hlow hhigh
    cases hconditions with
    | clause hwhere hclause =>
      refine ⟨[], none, _, rfl, .none, .mk (.clause hwhere hclause) horder hlate (.inl rfl) he, ?_⟩
      exact follows_cons fun h ↦ absurd (hwhere.eq h) (by decide)
    | unsaid =>
      cases horder with
      | order hword hby hdirection =>
        refine ⟨[], none, _, rfl, .none,
          .mk .unsaid (.order hword hby hdirection) hlate (.inl rfl) he, ?_⟩
        exact follows_cons fun h ↦ absurd (hword.eq h) (by decide)
      | unsaid => exact ⟨_, _, e, rfl, hlate, .mk .unsaid .unsaid .none (.inr rfl) he,
        he.not_keyword "limit"⟩

/-- The parser, too, takes a limit in the first place where it can. -/
private theorem follows_of_limit {table : String} {names : List String} {ts rest : List Token}
    {early? : Option Int32} {r : Request} (hts : Scanned ts) (h : limit none ts = .done early? rest)
    (htail : Tail table names early? (symbols rest) r) :
    Follows (fun s ↦ ¬ Keyword "limit" s) (symbols rest) := by
  obtain ⟨taken, rfl, hrest, _, hlimit, -, rfl⟩ := (reads_limit none).sound hts h
  obtain ⟨w, early?', v, hw, hearly, -, hfollows⟩ := tail_early hlimit htail
  rw [← symbols_append] at hw
  obtain ⟨first, mid, hsplit, rfl, rfl⟩ := List.map_eq_append_iff.mp hw
  rw [hsplit] at hts h
  have hmid : Scanned mid := by
    refine hts.right ?_
    rintro rfl
    obtain ⟨s, v, hv, -⟩ := hfollows
    cases hv
  -- What is derived with the limit moved, the parser takes; it cannot have taken less.
  have hdone := (reads_limit none).complete hts hmid ⟨early?', hearly, .inl rfl, rfl⟩ hfollows
  rw [h] at hdone
  obtain ⟨-, rfl⟩ := Outcome.done.inj hdone
  exact hfollows

theorem ends_select : Ends select (Whole Select) := by
  have hlimit (table : String) (names : List String) :=
    (reads_limit none).ends_bind_of_follows (ends_tail table names) follows_of_limit
  refine (reads_columns.ends_bind (fun names ↦ (takes_expectKeyword "from").ends_bind fun _ ↦
    takes_identifier.ends_bind fun table ↦ hlimit table names) ?_).congr fun w r ↦ ?_
  · rintro _ _ _ ⟨k, _, _, rfl, hk, -⟩
    exact follows_cons hk
  · constructor
    · rintro ⟨w₁, names, _, rfl, hnames, k, _, _, rfl, hk, _, table, _, rfl, rfl, w₂, _, _, rfl,
        ⟨early?, hearly, -, rfl⟩, htail, -⟩
      obtain ⟨hconditions, horder, hlate, honce, he⟩ := htail
      have hselect : Select _ (.query ⟨table, names, _, _, _⟩) :=
        .mk hnames hk hearly hconditions horder hlate honce
      have hwhole := Whole.mk hselect he
      simpa only [List.append_assoc, List.cons_append] using hwhole
    · -- Of the two derivations of a limit, the one that the parser finds is taken.
      rintro ⟨⟨hnames, hk, hearly, hconditions, horder, hlate, honce⟩, he⟩
      obtain ⟨w, early?, v, hw, hearly, htail, hfollows⟩ :=
        tail_early hearly (Tail.mk hconditions horder hlate honce he)
      have hne : v ≠ [] := by
        obtain ⟨s, v, rfl, -⟩ := hfollows
        exact List.cons_ne_nil _ _
      refine ⟨_, _, _, ?_, hnames, _, (), _, rfl, hk, _, _, _, rfl, rfl, w, early?, v, rfl,
        ⟨early?, hearly, .inl rfl, rfl⟩, htail, hne, hfollows⟩
      simp only [List.append_assoc, List.cons_append, hw]

end ItemSql.Statement
