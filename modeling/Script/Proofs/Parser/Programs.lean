import Script.Parser
import Script.Proofs.Parser.Productions

/-!
# `Proofs.Parser.Programs` — what is accepted as a program

A list of tokens is a program exactly if the grammar reads it to its end (`parse_eq_ok_iff`). The
reading of a program resumes after a fault, but the fault stays on record, so an accepted program
has none behind it.
-/

namespace Script

/-- The tokens before the end marker. -/
def beforeEnd (tokens : List Token) : List Token := tokens.takeWhile (·.kind != .eof)

section Map

variable {α β : Type} {f : α → β} {p : ParseM α} {c c' : Cursor} {a : α} {b : β}

theorem map_eq_ok (h : (f <$> p) c = .ok b c') : ∃ a, p c = .ok a c' ∧ f a = b := by
  change EStateM.map f p c = _ at h
  unfold EStateM.map at h
  split at h
  · rename_i a _ hrun
    cases h
    exact ⟨a, hrun, rfl⟩
  · cases h

theorem map_of_ok (h : p c = .ok a c') : (f <$> p) c = .ok (f a) c' := by
  show EStateM.map f p c = _
  rw [EStateM.map, h]

end Map

/-- One round of reading a program. -/
theorem Grammar.program_succ (g : Level ParseM) (n : Nat) (c : Cursor) :
    program g (n + 1) c =
      if afterFeeds c.rest = [] then .ok [] { c with rest := afterFeeds c.rest }
      else
        match topDeclaration g { c with rest := afterFeeds c.rest } with
        | .ok s c => (List.cons s <$> program g n) c
        | .error e c =>
          let c := { c with reported := c.reported ++ [e] }
          if e.fault.isFatal then .ok [] c else program g n c.resume := by
  show (if (afterFeeds c.rest).isEmpty = true then pure [] else _ : ParseM (List Stmt))
    { c with rest := afterFeeds c.rest } = _
  by_cases hfeeds : afterFeeds c.rest = []
  · rw [if_pos hfeeds, if_pos (List.isEmpty_iff.mpr hfeeds)]
    rfl
  · rw [if_neg hfeeds, if_neg (by simpa using hfeeds)]
    show EStateM.bind (ParseM.attempt _) _ _ = _
    unfold EStateM.bind ParseM.attempt
    cases topDeclaration g { c with rest := afterFeeds c.rest } with
    | ok s c => rfl
    | error e c =>
        show (if e.fault.isFatal = true then _ else _ : ParseM (List Stmt)) _ = _
        simp only
        split <;> rfl

/-- A fault on record stays there. -/
theorem Grammar.program_reported_ne_nil {g : Level ParseM} (hg : g.Exact) {n : Nat} {c c' : Cursor}
    {ss : List Stmt} (hrun : program g n c = .ok ss c') (hc : c.reported ≠ []) :
    c'.reported ≠ [] := by
  induction n generalizing c ss with
  | zero => cases hrun
  | succ n ih =>
      rw [program_succ] at hrun
      split at hrun
      · cases hrun
        exact hc
      · split at hrun
        · rename_i s c₁ htop
          obtain ⟨rest, reports, rfl⟩ := (exact_topDeclaration hg).moves htop
          obtain ⟨ss', hss', rfl⟩ := map_eq_ok hrun
          exact ih hss' (by simp [hc])
        · simp only at hrun
          split at hrun
          · cases hrun
            simp
          · exact ih hrun (by simp [Cursor.resume])

theorem reads_program_iff {l : Bool} {ts : List Token} {ss : List Stmt} :
    Reads l ts (.program ss) [] ↔
      afterFeeds ts = [] ∧ ss = []
        ∨ afterFeeds ts ≠ [] ∧ ∃ s ss' feed mid, ss = s :: ss'
          ∧ (Reads l (afterFeeds ts) (.statement s) (feed :: mid) ∧ feed.kind = .newline)
          ∧ Reads l mid (.program ss') [] := by
  constructor
  · intro h
    cases h with
    | programEnd hfeeds => exact .inl ⟨hfeeds, rfl⟩
    | programMore hfeeds hs hfeed hss =>
        exact .inr ⟨hfeeds, _, _, _, _, rfl, ⟨hs, hfeed⟩, hss⟩
  · rintro (⟨hfeeds, rfl⟩ | ⟨hfeeds, s, ss, feed, mid, rfl, ⟨hs, hfeed⟩, hss⟩)
    · exact .programEnd hfeeds
    · exact .programMore hfeeds hs hfeed hss

/-- A program is read without a fault exactly if it makes up all the tokens. -/
theorem Grammar.program_iff {g : Level ParseM} (hg : g.Exact) {n : Nat} (hn : n ≤ g.rounds + 1)
    {c : Cursor} (hstack : c.stack.frames ≠ []) (hrest : c.rest.length < n) (hc : c.reported = [])
    (ss : List Stmt) :
    (∃ c', program g n c = .ok ss c' ∧ c'.reported = [])
      ↔ Reads c.stack.insideLoop c.rest (.program ss) [] := by
  induction n generalizing c ss with
  | zero => omega
  | succ n ih =>
      have hlength := afterFeeds_length_le c.rest
      rw [reads_program_iff, program_succ]
      by_cases hfeeds : afterFeeds c.rest = []
      · rw [if_pos hfeeds]
        simp only [hfeeds, true_and, ne_eq, not_true_eq_false, false_and, or_false]
        constructor
        · rintro ⟨c', hrun, _⟩
          cases hrun
          rfl
        · rintro rfl
          exact ⟨_, rfl, hc⟩
      · rw [if_neg hfeeds]
        have htop := exact_topDeclaration hg
        have hreads := fun s mid => htop.reads (c := { c with rest := afterFeeds c.rest }) (a := s)
          (r := mid) hstack (Nat.lt_of_le_of_lt hlength (Nat.lt_of_lt_of_le hrest hn))
        simp only [hfeeds, false_and, false_or, ne_eq, not_false_eq_true, true_and]
        cases hrun : topDeclaration g { c with rest := afterFeeds c.rest } with
        | error e c' =>
            -- However the reading goes on, the fault is on record.
            constructor
            · rintro ⟨c'', hss, hreported⟩
              simp only at hss
              split at hss
              · cases hss
                simp at hreported
              · exact absurd hreported (program_reported_ne_nil hg hss (by simp [Cursor.resume]))
            · rintro ⟨s, _, feed, mid, _, ⟨hs, hfeed⟩, _⟩
              have hok := (hreads s mid).mpr ⟨feed, hs, hfeed⟩
              rw [hrun] at hok
              cases hok
        | ok s c' =>
            obtain ⟨mid, reports, rfl⟩ := htop.moves hrun
            -- A statement that was read with a report does not count as read by the grammar.
            by_cases hreports : reports = []
            · subst hreports
              simp only [List.append_nil] at hrun ⊢
              obtain ⟨feed, hs, hfeed⟩ := (hreads s mid).mp hrun
              have hmid := hs.length_le
              simp only [List.length_cons] at hmid
              have ih := fun ss => ih (by omega) (c := { c with rest := mid }) hstack
                (by simp only; omega) hc ss
              constructor
              · rintro ⟨c'', hss, hreported⟩
                obtain ⟨ss', hss', rfl⟩ := map_eq_ok hss
                exact ⟨s, _, feed, mid, rfl, ⟨hs, hfeed⟩, (ih _).mp ⟨c'', hss', hreported⟩⟩
              · rintro ⟨s', ss', feed', mid', rfl, ⟨hs', hfeed'⟩, hss'⟩
                have hok := (hreads s' mid').mpr ⟨feed', hs', hfeed'⟩
                rw [hrun] at hok
                injection hok with hs hcursor
                obtain rfl : mid = mid' := congrArg Cursor.rest hcursor
                obtain ⟨c'', hss, hreported⟩ := (ih ss').mpr hss'
                exact ⟨c'', by rw [hs, map_of_ok hss], hreported⟩
            · constructor
              · rintro ⟨c'', hss, hreported⟩
                obtain ⟨ss', hss', rfl⟩ := map_eq_ok hss
                exact absurd hreported (program_reported_ne_nil hg hss' (by simp [hreports]))
              · rintro ⟨s', _, feed, mid', _, ⟨hs, hfeed⟩, _⟩
                have hok := (hreads s' mid').mpr ⟨feed, hs, hfeed⟩
                rw [hrun] at hok
                injection hok with _ hcursor
                have := congrArg Cursor.reported hcursor
                simp [hreports] at this

/-- **What the parser accepts.** A list of tokens is read as a program without a fault exactly if
    the grammar reads its tokens, up to the end marker, as that program. -/
theorem parse_eq_ok_iff {tokens : List Token} {program : Program} :
    parse tokens = .ok program ↔ Reads false (beforeEnd tokens) (.program program) [] := by
  have hprogram := Grammar.program_iff (Level.exact_ofDepth ((beforeEnd tokens).length + 1))
    (n := (beforeEnd tokens).length + 1) (by rw [Level.rounds_ofDepth]; omega)
    (c := Cursor.ofTokens tokens) (by simp [Cursor.ofTokens, CallStack.root]) (Nat.lt_succ_self _)
    rfl program
  change _ ↔ Reads false (beforeEnd tokens) (.program program) [] at hprogram
  rw [← hprogram]
  have hlength : (Cursor.ofTokens tokens).rest.length = (beforeEnd tokens).length := rfl
  unfold parse
  simp only [hlength]
  cases Grammar.program (m := ParseM) (Level.ofDepth ((beforeEnd tokens).length + 1))
      ((beforeEnd tokens).length + 1) (Cursor.ofTokens tokens) with
  | error e c => simp
  | ok statements c =>
      cases hc : c.reported with
      | nil =>
          simp only [hc, List.isEmpty_nil, if_true, Except.ok.injEq, EStateM.Result.ok.injEq]
          exact ⟨fun h => ⟨c, ⟨h, rfl⟩, hc⟩, fun ⟨_, h, _⟩ => h.1⟩
      | cons e reports => simp [hc]

/-- **What is accepted.** A source is a program exactly if it has no lexical errors and the grammar
    reads its tokens. -/
theorem compile_eq_ok_iff {source : String} {program : Program} :
    compile source = .ok program ↔
      (tokenize source).2 = [] ∧ Reads false (beforeEnd (tokenize source).1) (.program program) []
    := by
  rw [← parse_eq_ok_iff]
  unfold compile
  obtain ⟨tokens, errors⟩ := tokenize source
  cases errors with
  | cons e errors => simp
  | nil =>
      change (parse tokens).mapError CompileError.parser = .ok program ↔ _
      cases parse tokens with
      | error e =>
          change Except.error (CompileError.parser e) = .ok program ↔ _
          simp
      | ok p =>
          change Except.ok p = .ok program ↔ _
          simp

theorem exists_eq_ok {ε α : Type} {x : Except ε α} (h : x.isOk = true) : ∃ a, x = .ok a := by
  cases x with
  | ok a => exact ⟨a, rfl⟩
  | error e => cases h

theorem exists_eq_ok_of_any {ε α : Type} {x : Except ε α} {p : α → Bool}
    (h : x.toOption.any p = true) : ∃ a, x = .ok a ∧ p a = true := by
  cases x with
  | ok a => exact ⟨a, rfl, h⟩
  | error e => cases h

end Script
