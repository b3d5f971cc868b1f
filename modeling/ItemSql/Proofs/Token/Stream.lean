import ItemSql.Token.Stream

/-!
# Runs of a token stream

The two places of a stream move at different times, and one of them stops where the other is still
set. What they are is nevertheless a matter of one number: how many times a token was handed out
(`Raw.behind`). One more time leads from one such stream to the next (`next?_behind`), every other
call leads nowhere, and the answer to each call can be read off the number. So a run never looks at
a place without a token, however the calls are mixed (`served_run`).
-/

namespace ItemSql.Token

/-- The token that is handed out behind so many others: the last one again and again. -/
def handedOut (source : String) (before : Nat) : Token :=
  (scan source).get ⟨min before ((scan source).length - 1), by
    have hpos := length_scan_pos source
    omega⟩

namespace Stream

/-! ## Calls and replies -/

/-- What a stream can be asked. -/
inductive Call where
  /-- To hand out a token. -/
  | next
  | peek
  | peekText
  | text
  | offset
  | kinds
  deriving DecidableEq, Repr

/-- What comes back of a call. -/
inductive Reply where
  | kind (k : Kind)
  | text (t : String)
  | offset (n : Nat)
  | kinds (ks : List Kind)
  deriving DecidableEq, Repr

/-- Calls a raw stream. Nothing comes back if it looks at a place without a token. -/
def Raw.call? (r : Raw) : Call → Option (Reply × Raw)
  | .next => r.next?.map fun (kind, rest) ↦ (.kind kind, rest)
  | .peek => r.peek?.map fun kind ↦ (.kind kind, r)
  | .peekText => r.peekText?.map fun text ↦ (.text text, r)
  | .text => r.text?.map fun text ↦ (.text text, r)
  | .offset => r.offset?.map fun offset ↦ (.offset offset, r)
  | .kinds => some (.kinds r.kinds, r)

/-- Calls a raw stream again and again. -/
def Raw.run? (r : Raw) : List Call → Option (List Reply × Raw)
  | [] => some ([], r)
  | c :: calls => do
    let (reply, rest) ← r.call? c
    let (replies, last) ← rest.run? calls
    return (reply :: replies, last)

/-- Calls a stream. -/
def call (s : Stream) : Call → Reply × Stream
  | .next => (.kind s.next.1, s.next.2)
  | .peek => (.kind s.peek, s)
  | .peekText => (.text s.peekText, s)
  | .text => (.text s.text, s)
  | .offset => (.offset s.offset, s)
  | .kinds => (.kinds s.kinds, s)

/-- Calls a stream again and again. -/
def run (s : Stream) : List Call → List Reply × Stream
  | [] => ([], s)
  | c :: calls =>
    ((s.call c).1 :: ((s.call c).2.run calls).1, ((s.call c).2.run calls).2)

/-- The answer to a call behind so many tokens that were handed out. -/
inductive Answered (source : String) : Nat → Call → Reply → Prop
  | next (before : Nat) : Answered source before .next (.kind (handedOut source before).kind)
  | peek (before : Nat) : Answered source before .peek (.kind (handedOut source before).kind)
  | peekText (before : Nat) :
      Answered source before .peekText (.text (handedOut source before).text)
  /-- No token was handed out. -/
  | noText : Answered source 0 .text (.text "")
  | text (before : Nat) : Answered source (before + 1) .text (.text (handedOut source before).text)
  | noOffset : Answered source 0 .offset (.offset 0)
  | offset (before : Nat) :
      Answered source (before + 1) .offset (.offset (handedOut source before).offset)
  | kinds (before : Nat) : Answered source before .kinds (.kinds ((scan source).map (·.kind)))

/-! ## A raw stream is called as the stream is -/

variable {calls : List Call}

theorem next?_toRaw (s : Stream) : s.toRaw.next? = some (s.next.1, s.next.2.toRaw) := by
  rw [next]
  split
  · assumption
  · rename_i hnone
    have hsome := s.wf.isSome_next?
    rw [hnone] at hsome
    cases hsome

theorem call?_toRaw (s : Stream) (c : Call) :
    s.toRaw.call? c = some ((s.call c).1, (s.call c).2.toRaw) := by
  cases c with
  | next => rw [Raw.call?, next?_toRaw]; rfl
  | kinds => rfl
  | peek => rw [Raw.call?, ← Option.some_get s.wf.isSome_peek?]; rfl
  | peekText => rw [Raw.call?, ← Option.some_get s.wf.isSome_peekText?]; rfl
  | text => rw [Raw.call?, ← Option.some_get s.wf.isSome_text?]; rfl
  | offset => rw [Raw.call?, ← Option.some_get s.wf.isSome_offset?]; rfl

theorem run?_toRaw (s : Stream) (calls : List Call) :
    s.toRaw.run? calls = some ((s.run calls).1, (s.run calls).2.toRaw) := by
  induction calls generalizing s with
  | nil => rfl
  | cons c calls ih =>
    rw [Raw.run?, call?_toRaw]
    change (Raw.run? (s.call c).2.toRaw calls >>= fun _ ↦ _) = _
    rw [ih]
    rfl

/-- The token that is looked at is the one that is handed out, and then the one handed out last. -/
theorem foretold (s : Stream) : s.peek = s.next.1 ∧ s.peekText = s.next.2.text := by
  obtain ⟨t, hahead⟩ := Option.isSome_iff_exists.mp s.wf.isSome_ahead?
  have hnext := next?_toRaw s
  rw [Raw.next?, hahead] at hnext
  obtain ⟨hkind, hrest⟩ := Prod.mk.inj (Option.some.inj hnext)
  have hpeek : s.toRaw.peek? = some t.kind := by rw [Raw.peek?, hahead]; rfl
  have hpeekText : s.toRaw.peekText? = some t.text := by rw [Raw.peekText?, hahead]; rfl
  have htext : s.next.2.toRaw.text? = some t.text := by
    rw [← hrest, Raw.text?]
    exact congrArg (Option.map Token.text) hahead
  refine ⟨?_, ?_⟩
  · rw [← hkind]
    exact Option.get_of_eq_some _ hpeek
  · exact (Option.get_of_eq_some _ hpeekText).trans (Option.get_of_eq_some _ htext).symm

/-! ## The places behind tokens -/

/-- The raw stream of a statement behind so many tokens that were handed out. -/
def Raw.behind (source : String) : Nat → Raw
  | 0 => .ofSource source
  | n + 1 =>
    ⟨scan source, min (n + 1) ((scan source).length - 1),
      some (min n ((scan source).length - 1))⟩

variable {source : String} {before : Nat}

theorem tokens_behind (source : String) (before : Nat) :
    (Raw.behind source before).tokens = scan source := by
  cases before <;> rfl

theorem upcoming_behind (source : String) (before : Nat) :
    (Raw.behind source before).upcoming = min before ((scan source).length - 1) := by
  cases before with
  | zero => exact (Nat.zero_min _).symm
  | succ n => rfl

theorem ahead?_behind (source : String) (before : Nat) :
    (Raw.behind source before).ahead? = some (handedOut source before) := by
  rw [Raw.ahead?, Raw.last, tokens_behind, upcoming_behind, Nat.min_assoc, Nat.min_self]
  exact List.getElem?_eq_getElem _

/-- The place of the next token stops at the last one, and that of the token before it follows. -/
theorem next?_behind (source : String) (before : Nat) :
    (Raw.behind source before).next? =
      some ((handedOut source before).kind, Raw.behind source (before + 1)) := by
  have hplace : (if min before ((scan source).length - 1) < (scan source).length - 1 then
      min before ((scan source).length - 1) + 1 else min before ((scan source).length - 1)) =
      min (before + 1) ((scan source).length - 1) := by
    split <;> omega
  rw [Raw.next?, ahead?_behind, Raw.last, tokens_behind, upcoming_behind, hplace, Nat.min_assoc,
    Nat.min_self]
  rfl

theorem getElem?_handedOut (source : String) (before : Nat) :
    (scan source)[min before ((scan source).length - 1)]? = some (handedOut source before) :=
  List.getElem?_eq_getElem _

/-- Each call is answered, and only handing out a token goes on. -/
theorem call?_behind (source : String) (before : Nat) (c : Call) :
    ∃ reply, Answered source before c reply ∧ (Raw.behind source before).call? c =
      some (reply, Raw.behind source (before + if c = .next then 1 else 0)) := by
  cases c with
  | next => exact ⟨_, .next before, by rw [Raw.call?, next?_behind]; rfl⟩
  | peek => exact ⟨_, .peek before, by rw [Raw.call?, Raw.peek?, ahead?_behind]; rfl⟩
  | peekText => exact ⟨_, .peekText before, by rw [Raw.call?, Raw.peekText?, ahead?_behind]; rfl⟩
  | kinds => exact ⟨_, .kinds before, by rw [Raw.call?, Raw.kinds, tokens_behind]; rfl⟩
  | text =>
    cases before with
    | zero => exact ⟨_, .noText, rfl⟩
    | succ n =>
      refine ⟨_, .text n, ?_⟩
      change (((scan source)[_]?).map _).map _ = _
      rw [getElem?_handedOut]
      rfl
  | offset =>
    cases before with
    | zero => exact ⟨_, .noOffset, rfl⟩
    | succ n =>
      refine ⟨_, .offset n, ?_⟩
      change (((scan source)[_]?).map _).map _ = _
      rw [getElem?_handedOut]
      rfl

/-! ## Runs -/

/-- The replies to a run of calls behind so many tokens. -/
structure Replies (source : String) (before : Nat) (calls : List Call) (replies : List Reply) :
    Prop where
  length : replies.length = calls.length
  /-- Each call is answered by how many tokens were handed out until then. -/
  answered : ∀ ⦃sofar c after⦄, calls = sofar ++ c :: after →
    ∃ reply, replies[sofar.length]? = some reply ∧
      Answered source (before + sofar.count .next) c reply

/-- The calls that hand out a token are counted from the first call on. -/
theorem add_count_cons (before : Nat) (c : Call) (calls : List Call) :
    before + (c :: calls).count .next =
      before + (if c = .next then 1 else 0) + calls.count .next := by
  simp only [List.count_cons, beq_iff_eq]
  omega

theorem Replies.nil (source : String) (before : Nat) : Replies source before [] [] :=
  ⟨rfl, fun sofar _ _ h ↦ by cases sofar <;> cases h⟩

theorem Replies.cons {c : Call} {reply : Reply} {replies : List Reply}
    (hreply : Answered source before c reply)
    (h : Replies source (before + if c = .next then 1 else 0) calls replies) :
    Replies source before (c :: calls) (reply :: replies) where
  length := congrArg (· + 1) h.length
  answered sofar d after hsplit := by
    cases sofar with
    | nil =>
      obtain ⟨rfl, rfl⟩ := List.cons.inj hsplit
      exact ⟨reply, rfl, hreply⟩
    | cons e sofar =>
      obtain ⟨rfl, rfl⟩ := List.cons.inj hsplit
      obtain ⟨later, hlater, hanswered⟩ := h.answered rfl
      exact ⟨later, hlater, by rwa [add_count_cons]⟩

theorem run?_behind (source : String) (before : Nat) (calls : List Call) :
    ∃ replies, Replies source before calls replies ∧ (Raw.behind source before).run? calls =
      some (replies, Raw.behind source (before + calls.count .next)) := by
  induction calls generalizing before with
  | nil => exact ⟨[], .nil source before, rfl⟩
  | cons c calls ih =>
    obtain ⟨reply, hreply, hcall⟩ := call?_behind source before c
    obtain ⟨replies, hreplies, hrun⟩ := ih (before + if c = .next then 1 else 0)
    refine ⟨reply :: replies, hreplies.cons hreply, ?_⟩
    rw [Raw.run?, hcall]
    change (Raw.run? _ calls >>= fun _ ↦ _) = _
    rw [hrun, add_count_cons]
    rfl

theorem toRaw_run (source : String) (calls : List Call) :
    ((ofSource source).run calls).2.toRaw = Raw.behind source (calls.count .next) := by
  obtain ⟨replies, -, hrun⟩ := run?_behind source 0 calls
  have hraw := (run?_toRaw (ofSource source) calls).symm.trans hrun
  rw [(Prod.mk.inj (Option.some.inj hraw)).2, Nat.zero_add]

/-- A run of calls to the stream of a statement as it should be. -/
structure Served (source : String) (calls : List Call) (replies : List Reply) (last : Stream) :
    Prop where
  /-- There is a token at every place that is looked at. -/
  inRange : (Raw.ofSource source).run? calls = some (replies, last.toRaw)
  /-- Each call is answered by how many tokens were handed out before. -/
  replies : Replies source 0 calls replies
  /-- A call that hands out no token changes nothing. -/
  unchanged : last = ((ofSource source).run (calls.filter (· = .next))).2
  /-- The next token is told before it is handed out. -/
  foretold : last.peek = last.next.1 ∧ last.peekText = last.next.2.text

/-- However calls to the stream of a statement are mixed, it hands out the tokens in order and then
the last one again and again, and it tells the next token and the one before it. -/
theorem served_run (source : String) (calls : List Call) :
    Served source calls ((ofSource source).run calls).1 ((ofSource source).run calls).2 where
  inRange := run?_toRaw (ofSource source) calls
  replies := by
    obtain ⟨replies, hreplies, hrun⟩ := run?_behind source 0 calls
    have hraw := (run?_toRaw (ofSource source) calls).symm.trans hrun
    rwa [(Prod.mk.inj (Option.some.inj hraw)).1]
  unchanged := by
    have hsame : ((ofSource source).run calls).2.toRaw =
        ((ofSource source).run (calls.filter (· = .next))).2.toRaw := by
      rw [toRaw_run, toRaw_run, List.count_filter (by simp)]
    generalize ((ofSource source).run calls).2 = s at hsame ⊢
    generalize ((ofSource source).run (calls.filter (· = .next))).2 = s' at hsame ⊢
    cases s
    cases s'
    cases hsame
    rfl
  foretold := foretold _

end Stream

end ItemSql.Token
