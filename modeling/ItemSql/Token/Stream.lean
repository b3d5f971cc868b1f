import ItemSql.Token.Scan

/-!
# Token streams

A stream hands out the tokens of a statement one at a time and lets its reader look one token ahead.
The end of the input is handed out again and again once it is reached.

A stream finds tokens by their places: that of the token to hand out next, which stops at the last
one, and that of the token handed out last, which is set each time. `Stream.Raw` is the tokens and
the two places with the operations as they run; an operation answers nothing if there is no token at
the place it looks at. `Stream.Raw.WF` says that there is one at both places, and a `Stream` is a
raw stream of which this holds, so its operations always answer.
-/

namespace ItemSql.Token

/-- The end of the input is a token of every text. -/
theorem scanFrom_ne_nil (inside offset : Nat) (cs : List Char) :
    scanFrom inside offset cs ≠ [] := by
  fun_induction scanFrom inside offset cs with
  | case1 => exact List.cons_ne_nil _ _
  | case2 _ _ _ _ ih => exact ih
  | case3 _ _ _ _ ih => exact ih
  | case4 => exact List.cons_ne_nil _ _

theorem length_scan_pos (source : String) : 0 < (scan source).length :=
  List.length_pos_iff.mpr (scanFrom_ne_nil _ _ _)

/-! ## Places among the tokens -/

namespace Stream

/-- The tokens of a statement and two places among them. Nothing in this type keeps the places where
there are tokens. -/
structure Raw where
  /-- All tokens, in order. -/
  tokens : List Token
  /-- The place of the token to hand out next. -/
  upcoming : Nat
  /-- The place of the token handed out last, if any was. -/
  current? : Option Nat
  deriving DecidableEq, Repr

namespace Raw

/-- The stream of a statement, before its first token. -/
def ofSource (source : String) : Raw :=
  ⟨scan source, 0, none⟩

/-- The place of the last token. -/
def last (r : Raw) : Nat :=
  r.tokens.length - 1

/-- The token to hand out next. -/
def ahead? (r : Raw) : Option Token :=
  r.tokens[min r.upcoming r.last]?

/-- Hands out the next token. The last token stays. -/
def next? (r : Raw) : Option (Kind × Raw) :=
  r.ahead?.map fun t ↦
    (t.kind,
      ⟨r.tokens, if r.upcoming < r.last then r.upcoming + 1 else r.upcoming,
        some (min r.upcoming r.last)⟩)

/-- The class of the next token. -/
def peek? (r : Raw) : Option Kind :=
  r.ahead?.map (·.kind)

/-- The text of the next token. -/
def peekText? (r : Raw) : Option String :=
  r.ahead?.map (·.text)

/-- The text of the token handed out last. -/
def text? (r : Raw) : Option String :=
  match r.current? with
  | none => some ""
  | some i => (r.tokens[i]?).map (·.text)

/-- The offset of the token handed out last. -/
def offset? (r : Raw) : Option Nat :=
  match r.current? with
  | none => some 0
  | some i => (r.tokens[i]?).map (·.offset)

/-- The classes of all tokens. -/
def kinds (r : Raw) : List Kind :=
  r.tokens.map (·.kind)

/-- There are tokens at both places. -/
structure WF (r : Raw) : Prop where
  upcoming_lt : r.upcoming < r.tokens.length
  current_lt : ∀ i, r.current? = some i → i < r.tokens.length

namespace WF

variable {r : Raw}

theorem ofSource (source : String) : (ofSource source).WF :=
  ⟨length_scan_pos source, fun _ h ↦ nomatch h⟩

theorem ahead_lt (h : r.WF) : min r.upcoming r.last < r.tokens.length :=
  Nat.lt_of_le_of_lt (Nat.min_le_left _ _) h.upcoming_lt

theorem isSome_ahead? (h : r.WF) : r.ahead?.isSome := by
  rw [ahead?, List.getElem?_eq_getElem h.ahead_lt, Option.isSome_some]

theorem isSome_next? (h : r.WF) : r.next?.isSome := by
  rw [next?, Option.isSome_map, h.isSome_ahead?]

theorem isSome_peek? (h : r.WF) : r.peek?.isSome := by
  rw [peek?, Option.isSome_map, h.isSome_ahead?]

theorem isSome_peekText? (h : r.WF) : r.peekText?.isSome := by
  rw [peekText?, Option.isSome_map, h.isSome_ahead?]

theorem isSome_text? (h : r.WF) : r.text?.isSome := by
  rw [text?]
  cases hcurrent : r.current? with
  | none => rfl
  | some i => simp [h.current_lt i hcurrent]

theorem isSome_offset? (h : r.WF) : r.offset?.isSome := by
  rw [offset?]
  cases hcurrent : r.current? with
  | none => rfl
  | some i => simp [h.current_lt i hcurrent]

/-- The place of the next token moves only before the last one. -/
theorem of_next? (h : r.WF) {kind : Kind} {r' : Raw} (hnext : r.next? = some (kind, r')) :
    r'.WF := by
  obtain ⟨t, -, ht⟩ := Option.map_eq_some_iff.mp hnext
  obtain ⟨-, rfl⟩ := Prod.mk.inj ht
  refine ⟨?_, ?_⟩
  · have hlt := h.upcoming_lt
    change (if r.upcoming < r.last then r.upcoming + 1 else r.upcoming) < r.tokens.length
    rw [last]
    split <;> omega
  · rintro i ⟨⟩
    exact h.ahead_lt

end WF

end Raw

end Stream

/-! ## The stream -/

/-- The tokens of a statement with a place among them. -/
structure Stream extends Stream.Raw where
  wf : toRaw.WF
  deriving DecidableEq, Repr

namespace Stream

/-- The stream of a statement, before its first token. -/
def ofSource (source : String) : Stream :=
  ⟨.ofSource source, .ofSource source⟩

/-- Hands out the next token. The last token stays. -/
def next (s : Stream) : Kind × Stream :=
  match h : s.toRaw.next? with
  | some (kind, rest) => (kind, ⟨rest, s.wf.of_next? h⟩)
  | none => absurd s.wf.isSome_next? (by rw [h]; nofun)

/-- The class of the next token. -/
def peek (s : Stream) : Kind :=
  s.toRaw.peek?.get s.wf.isSome_peek?

/-- The text of the next token. -/
def peekText (s : Stream) : String :=
  s.toRaw.peekText?.get s.wf.isSome_peekText?

/-- The text of the token handed out last. -/
def text (s : Stream) : String :=
  s.toRaw.text?.get s.wf.isSome_text?

/-- The offset of the token handed out last. -/
def offset (s : Stream) : Nat :=
  s.toRaw.offset?.get s.wf.isSome_offset?

/-- The classes of all tokens. -/
def kinds (s : Stream) : List Kind :=
  s.toRaw.kinds

end Stream

end ItemSql.Token
