import ItemSql.Proofs.Statement.Grammar

/-!
# What a parser reads

`Reads p R F` says that `p` takes symbols and answers a value exactly as the relation `R` has it. It
has two halves. What `p` takes from a scanned list, `R` derives; and what `R` derives, `p` takes, if
the symbol behind it is in the follow set `F`. The follow set is where a parser that looks one
symbol ahead differs from a grammar that looks nowhere: it keeps an optional part or another round
of a list from being mistaken for what comes behind.

`Ends p R` is the same for a parser that goes to the end of the input, where nothing follows.

Each combinator has one lemma. A parser of a nonterminal is then read off its definition, and
`Reads.congr` brings the relation into the form of the grammar.
-/

namespace ItemSql.Parser

open Token Statement

variable {α β : Type}

/-- The first of the symbols is one of these. -/
def Follows (F : Symbol → Prop) (w : List Symbol) : Prop :=
  ∃ s v, w = s :: v ∧ F s

/-- Any symbol at all. -/
def Any (_ : Symbol) : Prop :=
  True

/-- The parser reads what the relation derives, where a symbol of the follow set stands behind. -/
structure Reads (p : Parser α) (R : List Symbol → α → Prop) (F : Symbol → Prop) : Prop where
  sound {ts : List Token} {a : α} {rest : List Token} (hts : Scanned ts)
    (h : p ts = .done a rest) : ∃ taken, ts = taken ++ rest ∧ Scanned rest ∧ R (symbols taken) a
  complete {taken rest : List Token} {a : α} (hts : Scanned (taken ++ rest)) (hrest : Scanned rest)
    (h : R (symbols taken) a) (hF : Follows F (symbols rest)) : p (taken ++ rest) = .done a rest

/-- The parser reads what the relation derives, and that is all there is. -/
def Ends (p : Parser α) (R : List Symbol → α → Prop) : Prop :=
  ∀ ⦃ts : List Token⦄ ⦃a : α⦄, Scanned ts → ((∃ rest, p ts = .done a rest) ↔ R (symbols ts) a)

/-- The parser takes one symbol, which is not the end of the input. -/
structure Takes (p : Parser α) (P : Symbol → α → Prop) : Prop where
  cut {t : Token} {ts rest : List Token} {a : α} (ht : t.symbol.IsCut) :
    p (t :: ts) = .done a rest ↔ P t.symbol a ∧ rest = ts
  last {offset : Nat} {a : α} {rest : List Token} :
    p [⟨.endOfInput, "", offset⟩] ≠ .done a rest
  not_end {a : α} : ¬ P endSymbol a

/-- The test of a token goes by its symbol, and the end of the input fails it. -/
structure Tests (C : Token → Prop) (T : Symbol → Prop) : Prop where
  iff (t : Token) : C t ↔ T t.symbol
  not_end : ¬ T endSymbol

/-! ## What follows -/

variable {F G : Symbol → Prop}

theorem Follows.imp {w : List Symbol} (h : ∀ s, F s → G s) (hF : Follows F w) : Follows G w := by
  obtain ⟨s, v, rfl, hs⟩ := hF
  exact ⟨s, v, rfl, h s hs⟩

theorem follows_cons {s : Symbol} {v : List Symbol} (hs : F s) : Follows F (s :: v) :=
  ⟨s, v, rfl, hs⟩

theorem Follows.append {w v : List Symbol} (hF : Follows F w) : Follows F (w ++ v) := by
  obtain ⟨s, u, rfl, hs⟩ := hF
  exact ⟨s, u ++ v, rfl, hs⟩

/-- The first of the symbols is that of the first of the tokens. -/
theorem Follows.exists_cons {ts us : List Token} (hF : Follows F (symbols ts ++ symbols us)) :
    ∃ t tail, ts ++ us = t :: tail ∧ F t.symbol := by
  obtain ⟨s, v, hhead, hs⟩ := hF
  rw [← symbols_append] at hhead
  obtain ⟨t, tail, hsplit, rfl, -⟩ := List.map_eq_cons_iff.mp hhead
  exact ⟨t, tail, hsplit, hs⟩

/-! ## Adjusting the relation -/

variable {p : Parser α} {f : α → Parser β} {R R' : List Symbol → α → Prop}
  {Q : α → List Symbol → β → Prop} {P : Symbol → α → Prop}

/-- Relations need only agree on symbols that are cut off a text. -/
theorem Reads.congr_of_isCut (h : Reads p R F)
    (hR : ∀ w a, (∀ s ∈ w, s.IsCut) → (R w a ↔ R' w a)) : Reads p R' F where
  sound hts hdone := by
    obtain ⟨taken, rfl, hrest, ha⟩ := h.sound hts hdone
    exact ⟨taken, rfl, hrest, (hR _ _ (hts.isCut_of_mem_left hrest.ne_nil)).mp ha⟩
  complete hts hrest ha hF :=
    h.complete hts hrest ((hR _ _ (hts.isCut_of_mem_left hrest.ne_nil)).mpr ha) hF

theorem Reads.congr (h : Reads p R F) (hR : ∀ w a, R w a ↔ R' w a) : Reads p R' F :=
  h.congr_of_isCut fun w a _ ↦ hR w a

theorem Reads.mono (h : Reads p R F) (hF : ∀ s, G s → F s) : Reads p R G where
  sound := h.sound
  complete hts hrest ha hG := h.complete hts hrest ha (hG.imp hF)

theorem Ends.congr (h : Ends p R) (hR : ∀ w a, R w a ↔ R' w a) : Ends p R' :=
  fun _ _ hts ↦ (h hts).trans (hR _ _)

/-! ## One thing and then another -/

instance : LawfulMonad Parser :=
  LawfulMonad.mk' Parser
    (fun p ↦ by
      funext ts
      change (match p ts with | .done a rest => _ | .failed cause rest => _) = p ts
      cases p ts <;> rfl)
    (fun _ _ ↦ rfl)
    (fun p f g ↦ by
      funext ts
      simp only [bind_apply]
      cases p ts <;> rfl)

theorem reads_pure (a : α) : Reads (pure a) (fun w b ↦ w = [] ∧ b = a) F where
  sound {ts b rest} hts h := by
    rw [pure_apply] at h
    obtain ⟨rfl, rfl⟩ := Outcome.done.inj h
    exact ⟨[], rfl, hts, rfl, rfl⟩
  complete {taken rest b} _ _ h _ := by
    obtain ⟨htaken, rfl⟩ := h
    obtain rfl := List.map_eq_nil_iff.mp htaken
    rfl

theorem bind_eq_done {ts rest : List Token} {b : β} :
    (p >>= f) ts = .done b rest ↔ ∃ a mid, p ts = .done a mid ∧ f a mid = .done b rest := by
  rw [bind_apply]
  cases p ts with
  | done a mid =>
    constructor
    · intro h
      exact ⟨a, mid, rfl, h⟩
    · rintro ⟨a, mid, ha, h⟩
      obtain ⟨rfl, rfl⟩ := Outcome.done.inj ha
      exact h
  | failed cause mid => simp

/-- What the first parser leaves must begin with a symbol of its follow set. -/
theorem Reads.bind (hp : Reads p R F) (hf : ∀ a, Reads (f a) (Q a) G)
    (hF : ∀ a v b rest, Q a v b → Follows G rest → Follows F (v ++ rest)) :
    Reads (p >>= f) (fun w b ↦ ∃ u a v, w = u ++ v ∧ R u a ∧ Q a v b) G where
  sound {ts b rest} hts h := by
    obtain ⟨a, mid, ha, hb⟩ := bind_eq_done.mp h
    obtain ⟨taken, rfl, hmid, hR⟩ := hp.sound hts ha
    obtain ⟨taken', rfl, hrest, hQ⟩ := (hf a).sound hmid hb
    exact ⟨taken ++ taken', (List.append_assoc _ _ _).symm, hrest, _, a, _, symbols_append _ _, hR,
      hQ⟩
  complete {taken rest b} hts hrest h hG := by
    obtain ⟨u, a, v, hw, hR, hQ⟩ := h
    -- The symbols split, so the tokens do: what the second parser reads stands behind the first.
    obtain ⟨first, second, rfl, rfl, rfl⟩ := List.map_eq_append_iff.mp hw
    rw [List.append_assoc] at hts ⊢
    have hmid : Scanned (second ++ rest) := by
      refine hts.right fun hnil ↦ ?_
      exact hrest.ne_nil (List.append_eq_nil_iff.mp hnil).2
    have hfollow : Follows F (symbols (second ++ rest)) := by
      rw [symbols_append]
      exact hF a _ b _ hQ hG
    exact bind_eq_done.mpr ⟨a, _, hp.complete hts hmid hR hfollow,
      (hf a).complete hmid hrest hQ hG⟩

/-- Nothing more is read where a value is made of what was read. -/
theorem Reads.map (hp : Reads p R F) (g : α → β) :
    Reads (p >>= fun a ↦ pure (g a)) (fun w b ↦ ∃ a, R w a ∧ b = g a) F := by
  refine (hp.bind (fun a ↦ reads_pure (g a)) fun a v b rest hv hF ↦ ?_).congr fun w b ↦ ?_
  · rw [hv.1]
    exact hF
  · constructor
    · rintro ⟨u, a, v, rfl, hR, rfl, rfl⟩
      rw [List.append_nil]
      exact ⟨a, hR, rfl⟩
    · rintro ⟨a, hR, rfl⟩
      exact ⟨w, a, [], (List.append_nil w).symm, hR, rfl, rfl⟩

/-- The second parser goes to the end. What the first one leaves need only be in its follow set
where the second one succeeds. -/
theorem Reads.ends_bind_of_follows (hp : Reads p R F) (hf : ∀ a, Ends (f a) (Q a))
    (hF : ∀ {ts rest a b}, Scanned ts → p ts = .done a rest → Q a (symbols rest) b →
      Follows F (symbols rest)) :
    Ends (p >>= f) fun w b ↦ ∃ u a v, w = u ++ v ∧ R u a ∧ Q a v b ∧ v ≠ [] ∧ Follows F v := by
  intro ts b hts
  constructor
  · rintro ⟨rest, h⟩
    obtain ⟨a, mid, ha, hb⟩ := bind_eq_done.mp h
    obtain ⟨taken, rfl, hmid, hR⟩ := hp.sound hts ha
    have hQ := (hf a hmid).mp ⟨rest, hb⟩
    have hne : symbols mid ≠ [] := fun hnil ↦ hmid.ne_nil (List.map_eq_nil_iff.mp hnil)
    exact ⟨_, a, _, symbols_append _ _, hR, hQ, hne, hF hts ha hQ⟩
  · rintro ⟨u, a, v, hw, hR, hQ, hne, hfollow⟩
    obtain ⟨taken, mid, rfl, rfl, rfl⟩ := List.map_eq_append_iff.mp hw
    have hmid : Scanned mid := hts.right fun hnil ↦ hne (List.map_eq_nil_iff.mpr hnil)
    obtain ⟨rest, hb⟩ := (hf a hmid).mpr hQ
    exact ⟨rest, bind_eq_done.mpr ⟨a, mid, hp.complete hts hmid hR hfollow, hb⟩⟩

theorem Reads.ends_bind (hp : Reads p R F) (hf : ∀ a, Ends (f a) (Q a))
    (hF : ∀ a v b, Q a v b → Follows F v) :
    Ends (p >>= f) fun w b ↦ ∃ u a v, w = u ++ v ∧ R u a ∧ Q a v b := by
  refine (hp.ends_bind_of_follows hf fun _ _ hQ ↦ hF _ _ _ hQ).congr fun w b ↦ ?_
  constructor
  · rintro ⟨u, a, v, hw, hR, hQ, -, -⟩
    exact ⟨u, a, v, hw, hR, hQ⟩
  · rintro ⟨u, a, v, hw, hR, hQ⟩
    obtain ⟨s, v, rfl, hs⟩ := hF a v b hQ
    exact ⟨u, a, _, hw, hR, hQ, List.cons_ne_nil _ _, follows_cons hs⟩

/-! ## Single symbols -/

theorem Takes.reads (h : Takes p P) : Reads p (fun w a ↦ ∃ s, w = [s] ∧ P s a) Any where
  sound {ts a rest} hts hdone := by
    cases hts with
    | last => exact absurd hdone h.last
    | cons ht hts =>
      obtain ⟨hP, rfl⟩ := (h.cut ht).mp hdone
      exact ⟨[_], rfl, hts, _, rfl, hP⟩
  complete {taken rest a} hts hrest hw _ := by
    obtain ⟨s, hs, hP⟩ := hw
    obtain ⟨t, rfl, rfl⟩ := List.map_eq_singleton_iff.mp hs
    rw [List.singleton_append] at hts ⊢
    cases hts with
    | last => exact absurd rfl hrest.ne_nil
    | cons ht _ => exact (h.cut ht).mpr ⟨hP, rfl⟩

theorem Takes.congr {P' : Symbol → α → Prop} (h : Takes p P)
    (hP : ∀ s a, s.IsCut → (P s a ↔ P' s a)) (hend : ∀ a, ¬ P' endSymbol a) : Takes p P' where
  cut ht := (h.cut ht).trans (and_congr_left' (hP _ _ ht))
  last := h.last
  not_end := hend _

theorem Takes.bind (hp : Takes p P) (hf : ∀ a, Reads (f a) (Q a) G) :
    Reads (p >>= f) (fun w b ↦ ∃ s a v, w = s :: v ∧ P s a ∧ Q a v b) G := by
  refine (hp.reads.bind hf fun a v b rest _ hG ↦ ?_).congr fun w b ↦ ?_
  · obtain ⟨s, rest, rfl, -⟩ := hG
    cases v <;> exact follows_cons trivial
  · constructor
    · rintro ⟨u, a, v, rfl, ⟨s, rfl, hP⟩, hQ⟩
      exact ⟨s, a, v, rfl, hP, hQ⟩
    · rintro ⟨s, a, v, rfl, hP, hQ⟩
      exact ⟨[s], a, v, rfl, ⟨s, rfl, hP⟩, hQ⟩

theorem Takes.ends_bind (hp : Takes p P) (hf : ∀ a, Ends (f a) (Q a)) :
    Ends (p >>= f) fun w b ↦ ∃ s a v, w = s :: v ∧ P s a ∧ Q a v b := by
  intro ts b hts
  cases hts with
  | last offset =>
    constructor
    · rintro ⟨rest, h⟩
      obtain ⟨a, mid, ha, -⟩ := bind_eq_done.mp h
      exact absurd ha hp.last
    · rintro ⟨s, a, v, hw, hP, -⟩
      obtain ⟨rfl, -⟩ := List.cons.inj hw
      exact absurd hP hp.not_end
  | @cons t ts ht hts =>
    constructor
    · rintro ⟨rest, h⟩
      obtain ⟨a, mid, ha, hb⟩ := bind_eq_done.mp h
      obtain ⟨hP, rfl⟩ := (hp.cut ht).mp ha
      exact ⟨_, a, _, rfl, hP, (hf a hts).mp ⟨rest, hb⟩⟩
    · rintro ⟨s, a, v, hw, hP, hQ⟩
      obtain ⟨rfl, rfl⟩ := List.cons.inj hw
      obtain ⟨rest, hb⟩ := (hf a hts).mpr hQ
      exact ⟨rest, bind_eq_done.mpr ⟨a, ts, (hp.cut ht).mpr ⟨hP, rfl⟩, hb⟩⟩

/-- A parser that takes the next token and looks at it. -/
theorem takes_next {g : Token → Parser α}
    (hg : ∀ t ts a rest, t.symbol.IsCut → (g t ts = .done a rest ↔ P t.symbol a ∧ rest = ts))
    (hlast : ∀ offset a rest, g ⟨.endOfInput, "", offset⟩ [] ≠ .done a rest)
    (hend : ∀ a, ¬ P endSymbol a) : Takes (next >>= g) P where
  cut {t ts rest a} ht := hg t ts a rest ht
  last {offset a rest} := hlast offset a rest
  not_end {a} := hend a

theorem takes_expect {kind : Kind} (hkind : kind ≠ .endOfInput) :
    Takes (expect kind) fun s text ↦ s = ⟨kind, text⟩ := by
  refine takes_next (fun t ts a rest _ ↦ ?_) (fun offset a rest ↦ ?_) fun a h ↦ ?_
  · by_cases h : t.kind = kind
    · subst h
      rw [if_pos rfl, pure_apply]
      simp [Token.symbol, eq_comm]
    · rw [if_neg h]
      simp [unexpected, fail, Token.symbol, h]
  · rw [if_neg (Ne.symm hkind)]
    simp [unexpected, fail]
  · exact hkind (congrArg Symbol.kind h).symm

theorem isKeyword_iff (t : Token) (word : String) :
    isKeyword t word = true ↔ Grammar.Keyword word t.symbol := by
  rw [isKeyword, Bool.and_eq_true, decide_eq_true_iff, decide_eq_true_iff]
  rfl

theorem takes_expectKeyword (word : String) :
    Takes (expectKeyword word) fun s _ ↦ Grammar.Keyword word s := by
  refine takes_next (fun t ts a rest _ ↦ ?_) (fun offset a rest ↦ ?_) fun a h ↦ ?_
  · by_cases h : isKeyword t word = true
    · rw [if_pos h, pure_apply]
      simp [(isKeyword_iff t word).mp h, eq_comm]
    · rw [if_neg h]
      have hnot : ¬ Grammar.Keyword word t.symbol := fun hk ↦ h ((isKeyword_iff t word).mpr hk)
      simp [unexpected, fail, hnot]
  · simp [isKeyword, unexpected, fail]
  · cases h.1

theorem reads_fail (cause : SyntaxError.Cause) :
    Reads (fail cause : Parser α) (fun _ _ ↦ False) F where
  sound _ h := by cases h
  complete _ _ h _ := h.elim

/-! ## Optional parts -/

variable {C : Token → Prop} [DecidablePred C] {T : Symbol → Prop}

/-- A part that is there if the next symbol passes a test. If it is not, what is read instead must
not begin with such a symbol. -/
theorem Tests.reads_ifNext (hC : Tests C T) {yes : Token → Parser α} {no : Parser α}
    {Y : Symbol → List Symbol → α → Prop} {N : List Symbol → α → Prop}
    (hyes : ∀ t, Reads (yes t) (Y t.symbol) G) (hno : Reads no N G)
    (hstop : ∀ v a rest, N v a → Follows G rest → Follows (fun s ↦ ¬ T s) (v ++ rest)) :
    Reads (peek >>= fun t ↦ if C t then next >>= fun _ ↦ yes t else no)
      (fun w a ↦ (∃ s v, w = s :: v ∧ T s ∧ Y s v a) ∨ N w a) G where
  sound {ts a rest} hts h := by
    cases hts with
    | last offset =>
      -- The end of the input fails every test, so the other part is read.
      have hnot : ¬ C ⟨.endOfInput, "", offset⟩ := fun h ↦ hC.not_end ((hC.iff _).mp h)
      change (if C ⟨.endOfInput, "", offset⟩ then _ else no) _ = _ at h
      rw [if_neg hnot] at h
      obtain ⟨taken, hsplit, hrest, hN⟩ := hno.sound (.last offset) h
      exact ⟨taken, hsplit, hrest, .inr hN⟩
    | @cons t ts ht hts =>
      change (if C t then next >>= fun _ ↦ yes t else no) (t :: ts) = _ at h
      by_cases hT : C t
      · rw [if_pos hT] at h
        obtain ⟨taken, rfl, hrest, hY⟩ := (hyes t).sound hts h
        exact ⟨t :: taken, rfl, hrest, .inl ⟨_, _, rfl, (hC.iff t).mp hT, hY⟩⟩
      · rw [if_neg hT] at h
        obtain ⟨taken, hsplit, hrest, hN⟩ := hno.sound (.cons ht hts) h
        exact ⟨taken, hsplit, hrest, .inr hN⟩
  complete {taken rest a} hts hrest h hG := by
    rcases h with ⟨s, v, hw, hT, hY⟩ | hN
    · obtain ⟨t, taken, rfl, rfl, rfl⟩ := List.map_eq_cons_iff.mp hw
      have hcons : Scanned ([t] ++ (taken ++ rest)) := hts
      have htail : Scanned (taken ++ rest) := by
        refine hcons.right fun hnil ↦ ?_
        exact hrest.ne_nil (List.append_eq_nil_iff.mp hnil).2
      change (if C t then next >>= fun _ ↦ yes t else no) (t :: (taken ++ rest)) = _
      rw [if_pos ((hC.iff t).mpr hT)]
      exact (hyes t).complete htail hrest hY hG
    · obtain ⟨t, tail, htail, hnot⟩ := (hstop _ a _ hN hG).exists_cons
      have hdone := hno.complete hts hrest hN hG
      rw [htail] at hdone ⊢
      change (if C t then next >>= fun _ ↦ yes t else no) (t :: tail) = _
      rw [if_neg fun h ↦ hnot ((hC.iff t).mp h)]
      exact hdone

/-- One of two parts, by the next symbol, which neither of them need take. -/
theorem Tests.reads_ifPeek (hC : Tests C T) {yes no : Parser α}
    {Y N : List Symbol → α → Prop} (hyes : Reads yes Y G) (hno : Reads no N G)
    (hstart : ∀ v a rest, Y v a → Follows G rest → Follows T (v ++ rest))
    (hstop : ∀ v a rest, N v a → Follows G rest → Follows (fun s ↦ ¬ T s) (v ++ rest)) :
    Reads (peek >>= fun t ↦ if C t then yes else no) (fun w a ↦ Y w a ∨ N w a) G where
  sound {ts a rest} hts h := by
    change (if C (ts.headD lastToken) then yes else no) ts = _ at h
    by_cases hT : C (ts.headD lastToken)
    · rw [if_pos hT] at h
      obtain ⟨taken, hsplit, hrest, hY⟩ := hyes.sound hts h
      exact ⟨taken, hsplit, hrest, .inl hY⟩
    · rw [if_neg hT] at h
      obtain ⟨taken, hsplit, hrest, hN⟩ := hno.sound hts h
      exact ⟨taken, hsplit, hrest, .inr hN⟩
  complete {taken rest a} hts hrest h hG := by
    change (if C ((taken ++ rest).headD lastToken) then yes else no) (taken ++ rest) = _
    rcases h with hY | hN
    · obtain ⟨t, tail, htail, hT⟩ := (hstart _ a _ hY hG).exists_cons
      have hdone := hyes.complete hts hrest hY hG
      rw [htail] at hdone ⊢
      rw [List.headD_cons, if_pos ((hC.iff t).mpr hT)]
      exact hdone
    · obtain ⟨t, tail, htail, hT⟩ := (hstop _ a _ hN hG).exists_cons
      have hdone := hno.complete hts hrest hN hG
      rw [htail] at hdone ⊢
      rw [List.headD_cons, if_neg fun h ↦ hT ((hC.iff t).mp h)]
      exact hdone

/-- Eating a token and going on is looking at it, taking it and going on. -/
theorem eatIf_bind (test : Token → Bool) (g : Bool → Parser α) :
    eatIf test >>= g = peek >>= fun t ↦ if test t then next >>= fun _ ↦ g true else g false := by
  funext ts
  change ((if test (ts.headD lastToken) then _ else _ : Parser Bool) >>= g) ts =
    (if test (ts.headD lastToken) then _ else _ : Parser α) ts
  cases test (ts.headD lastToken) with
  | false => rfl
  | true => cases ts <;> rfl

theorem Tests.reads_eatIf {test : Token → Bool} (hC : Tests (fun t ↦ test t = true) T)
    {g : Bool → Parser α} {Y N : List Symbol → α → Prop} (hyes : Reads (g true) Y G)
    (hno : Reads (g false) N G)
    (hstop : ∀ v a rest, N v a → Follows G rest → Follows (fun s ↦ ¬ T s) (v ++ rest)) :
    Reads (eatIf test >>= g) (fun w a ↦ (∃ s v, w = s :: v ∧ T s ∧ Y v a) ∨ N w a) G := by
  rw [eatIf_bind]
  exact hC.reads_ifNext (fun _ ↦ hyes) hno hstop

/-- A part that may be left out. -/
theorem Tests.reads_optional {test : Token → Bool} (hC : Tests (fun t ↦ test t = true) T)
    {yes : Parser α} {Y : List Symbol → α → Prop} (hyes : Reads yes Y G) (a : α)
    (hG : ∀ s, G s → ¬ T s) :
    Reads (eatIf test >>= fun b ↦ if b then yes else pure a)
      (fun w b ↦ (∃ s v, w = s :: v ∧ T s ∧ Y v b) ∨ w = [] ∧ b = a) G := by
  refine hC.reads_eatIf hyes (reads_pure a) ?_
  rintro v b rest ⟨rfl, -⟩ hrest
  exact hrest.imp hG

/-! ## Lists of elements -/

theorem sepBy_length_le {separator : Symbol → Prop} {w : List Symbol} {as : List α}
    (h : Grammar.SepBy separator R w as) : as.length ≤ w.length + 1 := by
  induction h with
  | one => exact Nat.le_add_left _ _
  | more _ _ _ ih =>
    rw [List.length_cons, List.length_append, List.length_cons]
    omega

/-- So many rounds read lists of so many elements. -/
theorem Tests.reads_chainUpTo {test : Token → Bool} (hC : Tests (fun t ↦ test t = true) T)
    (hp : Reads p R F) (hT : ∀ s, T s → F s) (rounds : Nat) :
    Reads (chainUpTo p (eatIf test) rounds)
      (fun w as ↦ Grammar.SepBy T R w as ∧ as.length ≤ rounds + 1) fun s ↦ F s ∧ ¬ T s := by
  -- A list of one element more needs one round more; a separator begins the next round and
  -- nothing else may, which is what the follow set says.
  induction rounds with
  | zero =>
    refine ((hp.map fun a ↦ [a]).mono fun s hs ↦ hs.1).congr fun w as ↦ ?_
    constructor
    · rintro ⟨a, ha, rfl⟩
      exact ⟨.one ha, Nat.le_refl _⟩
    · rintro ⟨h, hlength⟩
      cases h with
      | one ha => exact ⟨_, ha, rfl⟩
      | more _ _ has => cases has <;> simp at hlength
  | succ rounds ih =>
    have hchoice (a : α) := hC.reads_optional (ih.map fun more ↦ a :: more) [a] fun s hs ↦ hs.2
    refine (hp.bind hchoice fun a v as rest hv hG ↦ ?_).congr fun w as ↦ ?_
    · rcases hv with ⟨s, v, rfl, hs, -⟩ | ⟨rfl, -⟩
      · exact follows_cons (hT s hs)
      · exact hG.imp fun s hs ↦ hs.1
    · constructor
      · rintro ⟨u, a, v, rfl, ha, ⟨s, v, rfl, hs, more, ⟨hmore, hle⟩, rfl⟩ | ⟨rfl, rfl⟩⟩
        · exact ⟨.more ha hs hmore, Nat.succ_le_succ hle⟩
        · rw [List.append_nil]
          exact ⟨.one ha, Nat.le_add_left _ _⟩
      · rintro ⟨h, hlength⟩
        cases h with
        | one ha => exact ⟨w, _, [], (List.append_nil w).symm, ha, .inr ⟨rfl, rfl⟩⟩
        | @more u v s a as ha hs has =>
          exact ⟨u, a, s :: v, rfl, ha, .inl ⟨s, v, rfl, hs, as,
            ⟨has, Nat.le_of_succ_le_succ hlength⟩, rfl⟩⟩

theorem Tests.reads_chain {test : Token → Bool} (hC : Tests (fun t ↦ test t = true) T)
    (hp : Reads p R F) (hT : ∀ s, T s → F s) :
    Reads (chain p (eatIf test)) (Grammar.SepBy T R) fun s ↦ F s ∧ ¬ T s where
  sound {ts as rest} hts h := by
    obtain ⟨taken, hsplit, hrest, has, -⟩ := (hC.reads_chainUpTo hp hT ts.length).sound hts h
    exact ⟨taken, hsplit, hrest, has⟩
  complete {taken rest as} hts hrest h hG := by
    -- Each element but the last takes a separator, so the tokens are enough for the rounds.
    have hlength := sepBy_length_le h
    rw [symbols, List.length_map] at hlength
    refine (hC.reads_chainUpTo hp hT (taken ++ rest).length).complete hts hrest ⟨h, ?_⟩ hG
    rw [List.length_append]
    omega

end ItemSql.Parser
