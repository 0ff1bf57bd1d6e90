import Script.Proofs.Parser.Programs
import Script.Proofs.Parser.Vector

/-!
# `Proofs.Parser.Simulation` — two readers in step

A place in a vector of tokens and a cursor stand alike if what the cursor has still to read is what
stands before the next end marker of the vector (`Sees`). From there a reader by position and one by
cursor simulate each other (`Sim`): both have the same outcome, and stand alike again. That is where
the end marker does its work. Nothing moves past one, so no look at a token leaves the vector.

A simulation holds up to a bound on the tokens to read, and says how many of them are read at least.
Whatever is read lowers the bound for what follows, and with the bound `0` nothing is said any more.
So rounds and levels can run out only where the bound has.
-/

namespace Script

open TokenReader

/-! ## Positions -/

section Position

variable {tokens : Array Token} {i : Nat} {t marker : Token} {ts behind : List Token}

theorem getElem?_of_drop (h : tokens.toList.drop i = t :: ts) : tokens[i]? = some t := by
  have hhead := congrArg List.head? h
  rwa [List.head?_drop, Array.getElem?_toList] at hhead

theorem drop_succ_of_drop (h : tokens.toList.drop i = t :: ts) :
    tokens.toList.drop (i + 1) = ts := by
  rw [← List.drop_drop, h]
  rfl

/-- Seeking finds what dropping finds, if there is something to stop at. -/
theorem seek_eq {stop : Token → Bool} (hmarker : stop marker = true)
    (h : tokens.toList.drop i = ts ++ marker :: behind) :
    ∃ j, seek stop tokens i = .ok j
      ∧ tokens.toList.drop j = ts.dropWhile (!stop ·) ++ marker :: behind := by
  induction ts generalizing i with
  | nil =>
      obtain ⟨hi, htoken⟩ := Array.getElem?_eq_some_iff.mp (getElem?_of_drop h)
      refine ⟨i, ?_, h⟩
      rw [seek, dif_pos hi, htoken, if_pos hmarker]
  | cons t ts ih =>
      obtain ⟨hi, htoken⟩ := Array.getElem?_eq_some_iff.mp (getElem?_of_drop h)
      rw [seek, dif_pos hi, htoken]
      by_cases hstop : stop t = true
      · refine ⟨i, if_pos hstop, ?_⟩
        rw [h, List.dropWhile_cons_of_neg (by simp [hstop])]
      · rw [if_neg hstop, List.dropWhile_cons_of_pos (by simpa using hstop)]
        exact ih (drop_succ_of_drop h)

/-- Only the tokens that are there decide how many of them are dropped. -/
theorem dropWhile_congr {p q : Token → Bool} (h : ∀ t ∈ ts, p t = q t) :
    ts.dropWhile p = ts.dropWhile q := by
  induction ts with
  | nil => rfl
  | cons t ts ih =>
      simp only [List.dropWhile_cons, h t (by simp), ih fun u hu => h u (by simp [hu])]

end Position

/-! ## Standing alike -/

/-- The place stands before the tokens that the cursor has still to read. -/
structure Sees (s : Place) (c : Cursor) : Prop where
  /-- Behind them is an end marker, and there may be more behind it. -/
  ahead : ∃ marker behind, s.tokens.toList.drop s.position = c.rest ++ marker :: behind
    ∧ marker.kind = .eof ∧ marker.line = c.endLine
  unmarked : ∀ t ∈ c.rest, t.kind ≠ .eof
  stack : s.stack = c.stack
  reported : s.reported = c.reported

namespace Sees

variable {s : Place} {c : Cursor} {t : Token} {rest : List Token}

/-- There always is a next token, if only the end marker. -/
theorem token (h : Sees s c) : ∃ t, s.token = .ok t ∧ t.kind = c.kind ∧ t.line = c.line := by
  obtain ⟨marker, behind, hdrop, hkind, hline⟩ := h.ahead
  unfold Place.token Cursor.kind Cursor.line
  cases hrest : c.rest with
  | nil =>
      rw [hrest] at hdrop
      exact ⟨marker, by rw [getElem?_of_drop hdrop], hkind, hline⟩
  | cons t rest =>
      rw [hrest] at hdrop
      exact ⟨t, by rw [getElem?_of_drop hdrop], rfl, rfl⟩

theorem token_of_cons (h : Sees s c) (hrest : c.rest = t :: rest) : s.token = .ok t := by
  obtain ⟨marker, behind, hdrop, _⟩ := h.ahead
  rw [hrest] at hdrop
  unfold Place.token
  rw [getElem?_of_drop hdrop]

theorem kind_ne_eof (h : Sees s c) (hrest : c.rest = t :: rest) : t.kind ≠ .eof :=
  h.unmarked t (by simp [hrest])

/-- The cursor is at its end exactly where the place stands at an end marker. -/
theorem kind_eq_eof_iff (h : Sees s c) : c.kind = .eof ↔ c.rest = [] := by
  unfold Cursor.kind
  cases hrest : c.rest with
  | nil => simp
  | cons t rest => simpa using h.kind_ne_eof hrest

/-- A token that is read is read by both, and they stand alike behind it. -/
theorem advance (h : Sees s c) (hrest : c.rest = t :: rest) :
    Sees (s.movedTo (s.position + 1)) { c with rest } := by
  obtain ⟨marker, behind, hdrop, hmarker⟩ := h.ahead
  rw [hrest] at hdrop
  refine ⟨⟨marker, behind, drop_succ_of_drop hdrop, hmarker⟩, ?_, h.stack, h.reported⟩
  intro u hu
  exact h.unmarked u (by simp [hrest, show u ∈ rest from hu])

/-- Seeking is safe wherever end markers are stopped at. -/
theorem seek (h : Sees s c) (stop : Token → Bool) (hstop : ∀ t, t.kind = .eof → stop t = true) :
    ∃ i, Script.seek stop s.tokens s.position = .ok i
      ∧ Sees (s.movedTo i) { c with rest := c.rest.dropWhile (!stop ·) } := by
  obtain ⟨marker, behind, hdrop, hkind, hline⟩ := h.ahead
  obtain ⟨i, hi, hdrop'⟩ := seek_eq (hstop marker hkind) hdrop
  refine ⟨i, hi, ⟨marker, behind, hdrop', hkind, hline⟩, ?_, h.stack, h.reported⟩
  intro t ht
  exact h.unmarked t ((List.dropWhile_sublist _).subset ht)

/-- Skipping line feeds stops at the first other token, or at the end marker, and never behind
    it. -/
theorem pastNewlines (h : Sees s c) :
    ∃ i, Scan.pastNewlines s = .ok i ∧ Sees (s.movedTo i) { c with rest := afterFeeds c.rest } := by
  obtain ⟨i, hi, hsees⟩ := h.seek (·.kind != .newline) (fun t ht => by simp [ht])
  refine ⟨i, hi, ?_⟩
  simpa only [afterFeeds, bne, Bool.not_not] using hsees

/-- The end marker is not stepped over. -/
theorem step (h : Sees s c) : ∃ t, s.token = .ok t
    ∧ Sees (s.movedTo (if t.kind = .eof then s.position else s.position + 1))
        { c with rest := c.rest.drop 1 } := by
  obtain ⟨t, ht, hkind, _⟩ := h.token
  refine ⟨t, ht, ?_⟩
  rw [hkind]
  cases hrest : c.rest with
  | nil =>
      have hc : { c with rest := [] } = c := by rw [← hrest]
      rw [if_pos (h.kind_eq_eof_iff.mpr hrest), List.drop_nil, hc]
      exact h
  | cons u rest =>
      rw [if_neg (by simp [h.kind_eq_eof_iff, hrest])]
      exact h.advance hrest

/-- Resuming stops at the end marker if not before. -/
theorem resume (h : Sees s c) : ∃ s', Scan.resume s = .ok (.ok (), s') ∧ Sees s' c.resume := by
  obtain ⟨t, ht, hstep⟩ := h.step
  obtain ⟨i, hi, hsees⟩ := hstep.seek (fun t => t.kind == .eof || t.kind.startsStatement)
    (fun t ht => by simp [ht])
  refine ⟨s.movedTo i, ?_, ?_⟩
  · unfold Scan.resume
    rw [ht]
    exact congrArg (· >>= fun i => Except.ok (Except.ok (), s.movedTo i)) hi
  · -- Before the end marker, what is stopped at starts a statement.
    have hrest : (c.rest.drop 1).dropWhile (fun t => !(t.kind == .eof || t.kind.startsStatement))
        = c.resume.rest := by
      refine dropWhile_congr fun t ht => ?_
      simp [h.unmarked t (List.mem_of_mem_drop ht)]
    have hsees : Sees (s.movedTo i) { c with rest := _ } := hsees
    rwa [hrest] at hsees

theorem report (h : Sees s c) (e : ParserError) :
    Sees { s with reported := s.reported ++ [e] } { c with reported := c.reported ++ [e] } :=
  ⟨h.ahead, h.unmarked, h.stack, by rw [h.reported]⟩

theorem mapStack (h : Sees s c) (w : CallStack → CallStack) :
    Sees { s with stack := w s.stack } { c with stack := w c.stack } :=
  ⟨h.ahead, h.unmarked, congrArg w h.stack, h.reported⟩

end Sees

/-! ## Simulation -/

variable {α β : Type}

/-- The same outcome, of which each side stands where the other does. Of `length` tokens at least
    `n` were read if there is a value, and none came back if there is not. -/
inductive Agrees (length n : Nat) :
    EStateM.Result ParserError Cursor α → Except Halt (Except ParserError α × Place) → Prop
  | ok {a : α} {c : Cursor} {s : Place} : Sees s c → c.rest.length + n ≤ length →
      Agrees length n (.ok a c) (.ok (.ok a, s))
  | error {e : ParserError} {c : Cursor} {s : Place} : Sees s c → c.rest.length ≤ length →
      Agrees length n (.error e c) (.ok (.error e, s))

/-- If more tokens were there at the start, as many more may be said to have been read. -/
theorem Agrees.mono {l l' n n' : Nat} {r : EStateM.Result ParserError Cursor α}
    {r' : Except Halt (Except ParserError α × Place)} (h : Agrees l n r r') (hl : l ≤ l')
    (hn : l + n' ≤ l' + n) : Agrees l' n' r r' := by
  cases h with
  | ok hs hlength => exact .ok hs (by omega)
  | error hs hlength => exact .error hs (by omega)

/-- From places that stand alike before less than `k` tokens, `q` does what `p` does, and a value
    takes them at least `n` tokens. -/
structure Sim (k n : Nat) (p : ParseM α) (q : Scan α) : Prop where
  agrees : ∀ {s c}, Sees s c → c.rest.length < k → Agrees c.rest.length n (p c) (q s)

section Bind

variable {y : Scan α} {f : α → Scan β} {s s' : Place}

theorem Scan.bind_of_ok {a : α} (h : y s = .ok (.ok a, s')) : (y >>= f) s = f a s' := by
  show (y s >>= fun r => ExceptT.bindCont f r.1 r.2) = _
  rw [h]
  rfl

theorem Scan.bind_of_error {e : ParserError} (h : y s = .ok (.error e, s')) :
    (y >>= f) s = .ok (.error e, s') := by
  show (y s >>= fun r => ExceptT.bindCont f r.1 r.2) = _
  rw [h]
  rfl

/-- What follows a choice may be taken into the choice. -/
theorem Scan.dispatch_bind (accept : Token → Option (Scan α)) :
    (TokenReader.dispatch accept y >>= f)
      = TokenReader.dispatch (fun t => (accept t).map (· >>= f)) (y >>= f) := by
  funext s
  show (Scan.dispatch accept y s >>= fun r => ExceptT.bindCont f r.1 r.2) = Scan.dispatch _ _ s
  unfold Scan.dispatch
  simp only [bind_assoc]
  refine bind_congr fun i => bind_congr fun t => ?_
  split
  · rfl
  · cases accept t <;> rfl

end Bind

section Leave

variable {name : String} {y : Scan α} {s s' : Place} {r : Except ParserError α}

/-- A function that is left as it was entered gives what was read in it. -/
theorem Scan.inFunction_of_left {stack : CallStack}
    (h : y { s with stack := s.stack.enter name } = .ok (r, s'))
    (hleave : s'.stack.leave name = .ok stack) :
    Scan.inFunction name y s = .ok (r, { s' with stack }) := by
  simp only [Scan.inFunction, h, bind, Except.bind, hleave]
  rfl

theorem Scan.inFunction_of_stuck {fault : FrameFault}
    (h : y { s with stack := s.stack.enter name } = .ok (r, s'))
    (hleave : s'.stack.leave name = .error fault) :
    Scan.inFunction name y s = Scan.fail (.internal fault) s' := by
  simp only [Scan.inFunction, h, bind, Except.bind, hleave]

end Leave

namespace Sim

variable {k k' n n' : Nat} {p p' : ParseM α} {q q' : Scan α} {f : α → ParseM β} {f' : α → Scan β}

/-- A simulation for longer texts is one for shorter ones, and it may promise fewer tokens. -/
theorem mono (h : Sim k n p q) (hk : k' ≤ k) (hn : n' ≤ n) : Sim k' n' p q where
  agrees := fun hs hc => (h.agrees hs (Nat.lt_of_lt_of_le hc hk)).mono (Nat.le_refl _) (by omega)

/-- How much is read does not have to be kept in mind. -/
theorem weaken (h : Sim k n p q) : Sim k 0 p q := h.mono (Nat.le_refl k) (Nat.zero_le n)

/-- Without a bound there is nothing to compare. -/
theorem exhausted : Sim 0 n p q := ⟨fun _ hc => absurd hc (Nat.not_lt_zero _)⟩

/-! ### Sequences -/

theorem pure (a : α) : Sim k 0 (Pure.pure a) (Pure.pure a) := ⟨fun hs _ => .ok hs (Nat.le_refl _)⟩

theorem raise (e : ParserError) : Sim k n (TokenReader.raise e : ParseM α) (TokenReader.raise e) :=
  ⟨fun hs _ => .error hs (Nat.le_refl _)⟩

/-- What is read counts against the bound, and for what there is to read. -/
theorem bind (h : Sim k n p q) (hf : ∀ a, Sim (k - n) (n' - n) (f a) (f' a)) :
    Sim k n' (p >>= f) (q >>= f') where
  agrees := by
    intro s c hs hc
    have hp := h.agrees hs hc
    show Agrees _ _ (EStateM.bind p f c) _
    unfold EStateM.bind
    generalize p c = r at hp ⊢
    generalize hq : q s = r' at hp
    cases hp with
    | ok hs' hlength =>
        rw [Scan.bind_of_ok hq]
        exact ((hf _).agrees hs' (by omega)).mono (by omega) (by omega)
    | error hs' hlength =>
        rw [Scan.bind_of_error hq]
        exact .error hs' hlength

/-- Sequences, where nothing is gained from the tokens that the first part takes. -/
theorem andThen (h : Sim k n p q) (hf : ∀ a, Sim k n' (f a) (f' a)) :
    Sim k n (p >>= f) (q >>= f') :=
  h.bind fun a => (hf a).mono (Nat.sub_le k n) (by omega)

/-- Behind something that is read there is one token less. -/
theorem andThen_succ (h : Sim (k + 1) 1 p q) (hf : ∀ a, Sim k n (f a) (f' a)) :
    Sim (k + 1) 1 (p >>= f) (q >>= f') :=
  h.bind fun a => (hf a).weaken

/-- A repetition that reads a token in each round does not run out of rounds. -/
theorem loop {ι : Type} {p : Nat → ι → ParseM α} {q : Nat → ι → Scan α}
    (round : ∀ {j n n'}, j + 1 ≤ k → (∀ i, Sim j 0 (p n i) (q n' i)) →
      ∀ i, Sim (j + 1) 0 (p (n + 1) i) (q (n' + 1) i))
    (hn : k ≤ n) (hn' : k ≤ n') (i : ι) : Sim k 0 (p n i) (q n' i) := by
  -- On the bound and not on the rounds, which need not be the same number on both sides.
  induction k generalizing n n' i with
  | zero => exact .exhausted
  | succ k ih =>
      obtain ⟨n, rfl⟩ := Nat.exists_eq_add_of_le' hn
      obtain ⟨n', rfl⟩ := Nat.exists_eq_add_of_le' hn'
      refine round (Nat.le_refl _) (fun i => ?_) i
      exact ih (fun hj => round (Nat.le_succ_of_le hj)) (Nat.le_of_succ_le_succ hn)
        (Nat.le_of_succ_le_succ hn') i

theorem map (h : Sim k n p q) (g : α → β) :
    Sim k n (p >>= fun a => Pure.pure (g a)) (q >>= fun a => Pure.pure (g a)) :=
  h.andThen fun _ => .pure _

theorem ite (b : Prop) [Decidable b] (h : Sim k n p q) (h' : Sim k n p' q') :
    Sim k n (if b then p else p') (if b then q else q') := by
  split
  · exact h
  · exact h'

/-! ### Looking at the place -/

/-- A failure is at the line of the next token, which both see. -/
theorem fail (fault : ParserFault) :
    Sim k n (TokenReader.fail fault : ParseM α) (TokenReader.fail fault) where
  agrees := by
    intro s c hs _
    obtain ⟨t, ht, _, hline⟩ := hs.token
    show Agrees _ _ (.error ⟨fault, c.line⟩ c) (Scan.fail fault s)
    rw [Scan.fail, ht, ← hline]
    exact .error hs (Nat.le_refl _)

/-- A failure gives no value to go on with. -/
theorem fail_bind (fault : ParserFault) :
    Sim k n (TokenReader.fail fault >>= f) (TokenReader.fail fault >>= f') :=
  -- As there is no value, it may be said to take as many tokens as the bound allows.
  (Sim.fail (n := k) fault).bind fun _ => exhausted.mono (by omega) (Nat.le_refl _)

theorem lineHere : Sim k 0 (TokenReader.lineHere : ParseM Nat) TokenReader.lineHere where
  agrees := by
    intro s c hs _
    obtain ⟨t, ht, _, hline⟩ := hs.token
    show Agrees _ _ (.ok c.line c) (s.token >>= fun t => .ok (.ok t.line, s))
    rw [ht, ← hline]
    exact .ok hs (Nat.le_refl _)

theorem kindHere : Sim k 0 (TokenReader.kindHere : ParseM TokenKind) TokenReader.kindHere where
  agrees := by
    intro s c hs _
    obtain ⟨t, ht, hkind, _⟩ := hs.token
    show Agrees _ _ (.ok c.kind c) (s.token >>= fun t => .ok (.ok t.kind, s))
    rw [ht, ← hkind]
    exact .ok hs (Nat.le_refl _)

theorem callStack : Sim k 0 (TokenReader.callStack : ParseM CallStack) TokenReader.callStack where
  agrees := by
    intro s c hs _
    show Agrees _ _ (.ok c.stack c) (.ok (.ok s.stack, s))
    rw [hs.stack]
    exact .ok hs (Nat.le_refl _)

theorem report (e : ParserError) :
    Sim k 0 (TokenReader.report e : ParseM Unit) (TokenReader.report e) :=
  ⟨fun hs _ => .ok (hs.report e) (Nat.le_refl _)⟩

/-- The end marker is next exactly if there is nothing left to read, and then no second choice is
    made. -/
theorem ifEnd (h : Sim k n p q) (h' : 1 < k → Sim k n p' q') :
    Sim k n (atEnd >>= fun b => if b = true then p else p')
      (atEnd >>= fun b => if b = true then q else q') where
  agrees := by
    intro s c hs hc
    obtain ⟨t, ht, hkind, _⟩ := hs.token
    have hrun : (atEnd : Scan Bool) s = .ok (.ok (t.kind == .eof), s) := by
      show (s.token >>= fun t => Except.ok (Except.ok (t.kind == .eof), s)) = _
      rw [ht]
      rfl
    rw [Scan.bind_of_ok hrun, hkind]
    show Agrees _ _ ((if c.rest.isEmpty = true then p else p') c) _
    by_cases hrest : c.rest = []
    · rw [if_pos (List.isEmpty_iff.mpr hrest), if_pos (by simp [hs.kind_eq_eof_iff, hrest])]
      exact h.agrees hs hc
    · have hlength := List.length_pos_iff.mpr hrest
      rw [if_neg (by simpa using hrest), if_neg (by simp [hs.kind_eq_eof_iff, hrest])]
      exact (h' (by omega)).agrees hs hc

/-- Behind a value there is one token less, but behind a fault there may be as many as before. -/
theorem attempt_bind {f : Except ParserError α → ParseM β} {f' : Except ParserError α → Scan β}
    (h : Sim (k + 1) 1 p q) (hok : ∀ a, Sim k 0 (f (.ok a)) (f' (.ok a)))
    (herror : ∀ e, Sim (k + 1) 0 (f (.error e)) (f' (.error e))) :
    Sim (k + 1) 0 (attempt p >>= f) (attempt q >>= f') where
  agrees := by
    intro s c hs hc
    have hp := h.agrees hs hc
    show Agrees _ _ (EStateM.bind (ParseM.attempt p) f c) _
    unfold EStateM.bind ParseM.attempt
    generalize p c = r at hp ⊢
    generalize hq : q s = r' at hp
    have hrun : (attempt q : Scan _) s = q s >>= fun r => .ok (.ok r.1, r.2) := rfl
    rw [hq] at hrun
    cases hp with
    | ok hs' hlength =>
        rw [Scan.bind_of_ok hrun]
        exact ((hok _).agrees hs' (by omega)).mono (by omega) (by omega)
    | error hs' hlength =>
        rw [Scan.bind_of_ok hrun]
        exact ((herror _).agrees hs' (by omega)).mono hlength (by omega)

/-! ### Moving the place -/

/-- Both stand before the same token afterwards, be it the end marker. -/
theorem skipNewlines :
    Sim k 0 (TokenReader.skipNewlines : ParseM Unit) TokenReader.skipNewlines where
  agrees := by
    intro s c hs _
    obtain ⟨i, hi, hs'⟩ := hs.pastNewlines
    show Agrees _ _ (.ok () { c with rest := afterFeeds c.rest }) (Scan.skipNewlines s)
    rw [Scan.skipNewlines, hi]
    exact .ok hs' (afterFeeds_length_le c.rest)

/-- A line feed has to be there. It is a token, and so one is read. -/
theorem expectNewline :
    Sim k 1 (TokenReader.expectNewline : ParseM Unit) TokenReader.expectNewline where
  agrees := by
    intro s c hs hc
    have hfail : Agrees c.rest.length 1 (ParseM.fail (α := Unit) .expectedNewline c)
      (Scan.fail .expectedNewline s) := (Sim.fail .expectedNewline).agrees hs hc
    show Agrees _ _ (ParseM.expectNewline c) (Scan.expectNewline s)
    unfold ParseM.expectNewline Scan.expectNewline
    split
    · rename_i t rest hrest
      rw [hs.token_of_cons hrest]
      show Agrees _ _ _ (if t.kind = .newline then _ else _)
      split
      · exact .ok (hs.advance hrest) (by simp [hrest])
      · exact hfail
    · rename_i hrest
      obtain ⟨t, ht, hkind, _⟩ := hs.token
      have hnot : t.kind ≠ .newline := by simp [hkind, Cursor.kind, hrest]
      rw [ht]
      show Agrees _ _ _ (if t.kind = .newline then _ else _)
      rw [if_neg hnot]
      exact hfail

/-- Whether the next token is of the kind is seen by both, and the line feeds are skipped by both or
    by neither. -/
theorem nextIs (kind : TokenKind) :
    Sim k 0 (TokenReader.nextIs kind : ParseM Bool) (TokenReader.nextIs kind) where
  agrees := by
    intro s c hs _
    obtain ⟨i, hi, hs'⟩ := hs.pastNewlines
    obtain ⟨t, ht, hkind, _⟩ := hs'.token
    show Agrees _ _ (ParseM.nextIs kind c) (Scan.nextIs kind s)
    have hnext : c.nextKind = t.kind := hkind.symm
    rw [Scan.nextIs, hi, ParseM.nextIs, hnext]
    show Agrees _ _ _ ((s.movedTo i).token >>= _)
    rw [ht]
    show Agrees _ _ _ (if t.kind = kind then _ else _)
    split
    · exact .ok hs' (afterFeeds_length_le c.rest)
    · exact .ok hs (Nat.le_refl _)

/-- Resuming leaves a token less to read, unless there was none. -/
theorem resume_bind {f : Unit → ParseM β} {f' : Unit → Scan β} (hk : 0 < k)
    (h : Sim k 0 (f ()) (f' ())) :
    Sim (k + 1) 0 (TokenReader.resume >>= f) (TokenReader.resume >>= f') where
  agrees := by
    intro s c hs hc
    have hlength : c.resume.rest.length ≤ c.rest.length - 1 := by
      have hdrop : c.resume.rest.length ≤ (c.rest.drop 1).length :=
        (List.dropWhile_sublist _).length_le
      rwa [List.length_drop] at hdrop
    obtain ⟨s', hrun, hs'⟩ := hs.resume
    rw [Scan.bind_of_ok (y := TokenReader.resume) hrun]
    exact (h.agrees hs' (by omega)).mono (by omega) (by omega)

/-! ### Choosing by the next token -/

/-- Both choose by the token they stand before. If it is taken, what follows has one token less to
    read, which is why a smaller bound is enough there. -/
theorem dispatch {accept : Token → Option (ParseM α)} {accept' : Token → Option (Scan α)}
    (hk : k ≤ k' + 1) (hn : n ≤ 1) (haccept : ∀ t, Option.Rel (Sim k' 0) (accept t) (accept' t))
    (h : Sim k n p q) :
    Sim k n (TokenReader.dispatch accept p) (TokenReader.dispatch accept' q) where
  agrees := by
    intro s c hs hc
    obtain ⟨i, hi, hs'⟩ := hs.pastNewlines
    have hother := h.agrees hs hc
    show Agrees _ _ (ParseM.dispatch accept p c) (Scan.dispatch accept' q s)
    have hpast : c.pastNewlines = afterFeeds c.rest := rfl
    rw [Scan.dispatch, hi, ParseM.dispatch, hpast]
    show Agrees _ _ _ ((s.movedTo i).token >>= _)
    cases hfeeds : afterFeeds c.rest with
    | nil =>
        -- Behind the line feeds is the end marker, which the cursor does not hold.
        obtain ⟨t, ht, hkind, _⟩ := hs'.token
        have heof : t.kind = .eof := hkind.trans (hs'.kind_eq_eof_iff.mpr hfeeds)
        rw [ht]
        show Agrees _ _ _ (if t.kind = .eof then _ else _)
        rw [if_pos heof]
        exact hother
    | cons t rest =>
        have hlength := afterFeeds_length_le c.rest
        rw [hfeeds, List.length_cons] at hlength
        rw [hs'.token_of_cons hfeeds]
        show Agrees _ _ _ (if t.kind = .eof then _ else _)
        rw [if_neg (hs'.kind_ne_eof hfeeds)]
        have hrel := haccept t
        simp only
        generalize accept t = o at hrel ⊢
        generalize accept' t = o' at hrel ⊢
        cases hrel with
        | none => exact hother
        | some hsim =>
            refine (hsim.agrees (hs'.advance hfeeds) ?_).mono ?_ ?_
            · show rest.length < k'
              omega
            · show rest.length ≤ _
              omega
            · show rest.length + n ≤ _
              omega

/-- The expected token is taken by both, or both fail at the line where they stand. -/
theorem expect (kind : TokenKind) (fault : ParserFault) :
    Sim k 1 (TokenReader.expect kind fault) (TokenReader.expect kind fault) := by
  refine dispatch (Nat.le_succ k) (Nat.le_refl 1) ?_ (.fail fault)
  intro t
  by_cases hkind : t.kind = kind
  · rw [if_pos hkind, if_pos hkind]
    exact .some (.pure t)
  · rw [if_neg hkind, if_neg hkind]
    exact .none

section Eat

variable {kind : TokenKind} {f : Option Token → ParseM β} {f' : Option Token → Scan β}
  {p p' : ParseM β} {q q' : Scan β}

/-- What follows a token that may be there: behind it with a smaller bound, and without it with the
    same. -/
theorem eatAny_bind {kinds : List TokenKind} (hk : k ≤ k' + 1) (hn : n ≤ 1)
    (hsome : ∀ t, Sim k' 0 (f (some t)) (f' (some t))) (hnone : Sim k n (f none) (f' none)) :
    Sim k n (eatAny? kinds >>= f) (eatAny? kinds >>= f') := by
  rw [eatAny?, eatAny?, Exact.dispatch_bind, Scan.dispatch_bind]
  refine dispatch hk hn ?_ hnone
  intro t
  by_cases hkind : kinds.contains t.kind = true
  · rw [if_pos hkind, if_pos hkind]
    exact .some (hsome t)
  · rw [if_neg hkind, if_neg hkind]
    exact .none

/-- With a token that is read there is one token less. -/
theorem eat_bind_succ (hsome : ∀ t, Sim k n (f (some t)) (f' (some t)))
    (hnone : Sim (k + 1) n' (f none) (f' none)) :
    Sim (k + 1) 0 (eat? kind >>= f) (eat? kind >>= f') :=
  eatAny_bind (Nat.le_refl _) (Nat.zero_le _) (fun t => (hsome t).weaken) hnone.weaken

theorem eat_bind (hsome : ∀ t, Sim k n (f (some t)) (f' (some t)))
    (hnone : Sim k n' (f none) (f' none)) : Sim k 0 (eat? kind >>= f) (eat? kind >>= f') :=
  eatAny_bind (Nat.le_succ _) (Nat.zero_le _) (fun t => (hsome t).weaken) hnone.weaken

theorem ifEat_succ (h : Sim k n p q) (h' : Sim (k + 1) n' p' q') :
    Sim (k + 1) 0 (eat? kind >>= fun t => if t.isSome = true then p else p')
      (eat? kind >>= fun t => if t.isSome = true then q else q') :=
  eat_bind_succ (fun _ => h) h'

theorem ifEat (h : Sim k n p q) (h' : Sim k n' p' q') :
    Sim k 0 (eat? kind >>= fun t => if t.isSome = true then p else p')
      (eat? kind >>= fun t => if t.isSome = true then q else q') :=
  eat_bind (fun _ => h) h'

theorem unlessEat_succ (h : Sim k n p q) (h' : Sim (k + 1) n' p' q') :
    Sim (k + 1) 0 (eat? kind >>= fun t => if t.isNone = true then p' else p)
      (eat? kind >>= fun t => if t.isNone = true then q' else q) :=
  eat_bind_succ (fun _ => h) h'

theorem ifNext (h : Sim k n p q) (h' : Sim k n' p' q') :
    Sim k 0 (TokenReader.nextIs kind >>= fun b => if b = true then p else p')
      (TokenReader.nextIs kind >>= fun b => if b = true then q else q') :=
  (nextIs kind).andThen fun _ => .ite _ h.weaken h'.weaken

end Eat

/-! ### Loops and functions -/

/-- The loop is on both call stacks while the parsers run, and off both afterwards. -/
theorem inLoop (h : Sim k n p q) : Sim k n (TokenReader.inLoop p) (TokenReader.inLoop q) where
  agrees := by
    intro s c hs hc
    have hp := h.agrees (hs.mapStack CallStack.enterLoop) hc
    show Agrees _ _ (ParseM.inLoop p c) (Scan.inLoop q s)
    unfold ParseM.inLoop Scan.inLoop
    generalize p { c with stack := c.stack.enterLoop } = r at hp ⊢
    generalize q { s with stack := s.stack.enterLoop } = r' at hp ⊢
    cases hp with
    | ok hs' hlength => exact .ok (hs'.mapStack CallStack.leaveLoop) hlength
    | error hs' hlength => exact .error (hs'.mapStack CallStack.leaveLoop) hlength

/-- The stacks are the same, so both leave the function or both are stuck in it. -/
theorem inFunction (name : String) (h : Sim k n p q) :
    Sim k n (TokenReader.inFunction name p) (TokenReader.inFunction name q) where
  agrees := by
    intro s c hs hc
    have hp := h.agrees (hs.mapStack (CallStack.enter · name)) hc
    -- A frame that cannot be left takes the place of the outcome.
    have hfail : ∀ {s' c'} fault, Sees s' c' → c'.rest.length ≤ c.rest.length →
        Agrees c.rest.length n (ParseM.fail (α := α) (.internal fault) c')
          (Scan.fail (.internal fault) s') := by
      intro s' c' fault hs' hlength
      have hfault := (Sim.fail (α := α) (n := n) (.internal fault)).agrees hs' (Nat.lt_succ_self _)
      exact hfault.mono hlength (by omega)
    show Agrees _ _ (ParseM.inFunction name p c) (Scan.inFunction name q s)
    unfold ParseM.inFunction
    generalize p { c with stack := c.stack.enter name } = r at hp ⊢
    generalize hq : q { s with stack := s.stack.enter name } = r' at hp
    cases hp with
    | @ok a c' s' hs' hlength =>
        cases hleave : c'.stack.leave name with
        | ok stack =>
            rw [Scan.inFunction_of_left hq (hs'.stack ▸ hleave)]
            simp only [hleave]
            exact .ok (hs'.mapStack fun _ => stack) hlength
        | error fault =>
            rw [Scan.inFunction_of_stuck hq (hs'.stack ▸ hleave)]
            simp only [hleave]
            exact hfail fault hs' (Nat.le_of_add_right_le hlength)
    | @error e c' s' hs' hlength =>
        cases hleave : c'.stack.leave name with
        | ok stack =>
            rw [Scan.inFunction_of_left hq (hs'.stack ▸ hleave)]
            simp only [hleave]
            exact .error (hs'.mapStack fun _ => stack) hlength
        | error fault =>
            rw [Scan.inFunction_of_stuck hq (hs'.stack ▸ hleave)]
            simp only [hleave]
            exact hfail fault hs' hlength

end Sim

end Script
