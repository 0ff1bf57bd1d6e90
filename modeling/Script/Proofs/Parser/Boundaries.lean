import Script.Proofs.Parser.Changes
import Script.Proofs.Parser.Programs

/-!
# `Proofs.Parser.Boundaries` — where statements end

Line feeds end the statements of a program, but the parser looks past them for what may go on with
a statement. Two laws say what this leaves to the layout of a program:

* one more line feed changes nothing, unless it stands right behind `return`
  (`newline_insertion_keeps_program`), and
* the texts of two programs can be put one behind the other, unless the second begins with a
  parenthesis, a bracket or a minus sign, which the last statement of the first would take in
  (`joined_programs_accepted`).

Both are changes of token lists in the sense of `Change`.
-/

namespace Script

/-! ## Tokens before the end marker -/

theorem beforeEnd_append {ts : List Token} (h : ∀ t ∈ ts, t.kind ≠ .eof) (ts' : List Token) :
    beforeEnd (ts ++ ts') = ts ++ beforeEnd ts' := by
  unfold beforeEnd
  rw [List.takeWhile_append_of_pos]
  intro t ht
  simpa using h t ht

theorem beforeEnd_cons {t : Token} (h : t.kind ≠ .eof) (ts : List Token) :
    beforeEnd (t :: ts) = t :: beforeEnd ts := by
  simp [beforeEnd, h]

theorem beforeEnd_marker {t : Token} (h : t.kind = .eof) (ts : List Token) :
    beforeEnd (t :: ts) = [] := by
  simp [beforeEnd, h]

/-- What stands behind an end marker does not count. -/
theorem beforeEnd_append_of_mem {ts : List Token} {t : Token} (ht : t ∈ ts) (h : t.kind = .eof)
    (ts' : List Token) : beforeEnd (ts ++ ts') = beforeEnd ts := by
  induction ts with
  | nil => cases ht
  | cons t' ts ih =>
      by_cases hmarker : t'.kind = .eof
      · rw [List.cons_append, beforeEnd_marker hmarker, beforeEnd_marker hmarker]
      · obtain rfl | ht := List.mem_cons.mp ht
        · exact absurd h hmarker
        · rw [List.cons_append, beforeEnd_cons hmarker, beforeEnd_cons hmarker, ih ht]

/-! ## More line feeds -/

/-- Line feeds were put between the tokens, and none right behind `return`. -/
inductive Loosened : List Token → List Token → Prop
  | nil : Loosened [] []
  | token {t ts ts'} : (t.kind = .kwReturn → headKind ts' = headKind ts) → Loosened ts ts' →
      Loosened (t :: ts) (t :: ts')
  | feed {t ts ts'} : t.kind = .newline → Loosened ts ts' → Loosened ts (t :: ts')

namespace Loosened

variable {ts ts' : List Token}

theorem refl (ts : List Token) : Loosened ts ts := by
  induction ts with
  | nil => exact .nil
  | cons t ts ih => exact .token (fun _ => rfl) ih

/-- One line feed, not right behind `return`. -/
theorem insert {front : List Token} {t : Token} (ht : t.kind = .newline)
    (hfront : ∀ last ∈ front.getLast?, last.kind ≠ .kwReturn) (ts : List Token) :
    Loosened (front ++ ts) (front ++ t :: ts) := by
  induction front with
  | nil => exact .feed ht (refl ts)
  | cons first front ih =>
      cases front with
      | nil => exact .token (fun hreturn => absurd hreturn (hfront first rfl)) (.feed ht (refl ts))
      | cons second front => exact .token (fun _ => rfl) (ih hfront)

theorem afterFeeds_eq_nil (h : Loosened ts ts') (hts : afterFeeds ts = []) :
    afterFeeds ts' = [] := by
  induction h with
  | nil => rfl
  | @token t ts ts' _ _ ih =>
      by_cases ht : t.kind = .newline
      · rw [afterFeeds_newline ht] at hts ⊢
        exact ih hts
      · simp [afterFeeds, ht] at hts
  | feed ht _ ih => rw [afterFeeds_newline ht, ih hts]

theorem afterFeeds_eq_cons (h : Loosened ts ts') {t : Token} {mid : List Token}
    (hts : afterFeeds ts = t :: mid) :
    ∃ mid', afterFeeds ts' = t :: mid' ∧ Loosened (t :: mid) (t :: mid') ∧ Loosened mid mid'
      ∧ (t.kind = .kwReturn → headKind mid' = headKind mid) := by
  induction h with
  | nil => cases hts
  | @token first ts ts' hreturn h ih =>
      by_cases hfirst : first.kind = .newline
      · rw [afterFeeds_newline hfirst] at hts ⊢
        exact ih hts
      · have hfront : ∀ us, afterFeeds (first :: us) = first :: us := by
          intro us
          simp [afterFeeds, hfirst]
        rw [hfront] at hts
        cases hts
        exact ⟨ts', hfront ts', .token hreturn h, h, hreturn⟩
  | feed ht _ ih =>
      rw [afterFeeds_newline ht]
      exact ih hts

/-- A line feed in front may be counted among those that were put there. -/
theorem of_newline {t : Token} (ht : t.kind = .newline) (h : Loosened (t :: ts) ts') :
    Loosened ts ts' := by
  generalize hfront : t :: ts = us at h
  induction h with
  | nil => cases hfront
  | token _ h _ =>
      cases hfront
      exact .feed ht h
  | feed ht' _ ih => exact .feed ht' (ih hfront)

end Loosened

theorem change_loosened : Change Loosened where
  token h hts := by
    obtain ⟨mid', hfeeds, hfront, hmid, hreturn⟩ := h.afterFeeds_eq_cons hts
    exact ⟨mid', hfeeds, hfront, hmid, fun ht _ => hreturn ht⟩
  feed h ht := by
    cases h with
    | token _ h => exact ⟨_, _, rfl, ht, h⟩
    | feed ht' h => exact ⟨_, _, rfl, ht', h.of_newline ht⟩
  last h hts := by
    rw [nextKind, h.afterFeeds_eq_nil hts]
    rfl

theorem Reads.loosened {l : Bool} {ts ts' : List Token} {program : List Stmt}
    (h : Reads l ts (.program program) []) (hts : Loosened ts ts') :
    Reads l ts' (.program program) [] := by
  have hchanged : Reads l ts' (.program (program ++ [])) [] :=
    h.program_change change_loosened hts fun h hend => .programEnd (h.afterFeeds_eq_nil hend)
  rwa [List.append_nil] at hchanged

/-- **Line feeds inside a program.** One more line feed anywhere but right behind `return` gives the
    same program. -/
theorem newline_insertion_keeps_program {front behind : List Token} {feed : Token}
    {program : Program} (hfeed : feed.kind = .newline)
    (hfront : ∀ last ∈ front.getLast?, last.kind ≠ .kwReturn)
    (h : parse (front ++ behind) = .ok program) :
    parse (front ++ feed :: behind) = .ok program := by
  rw [parse_eq_ok_iff] at h ⊢
  by_cases hmarker : ∃ t ∈ front, t.kind = .eof
  · obtain ⟨t, ht, heof⟩ := hmarker
    rw [beforeEnd_append_of_mem ht heof] at h ⊢
    exact h
  · have hnone : ∀ t ∈ front, t.kind ≠ .eof := fun t ht heof => hmarker ⟨t, ht, heof⟩
    rw [beforeEnd_append hnone] at h ⊢
    rw [beforeEnd_cons (by rw [hfeed]; decide)]
    exact h.loosened (.insert hfeed hfront _)

/-- A line feed in front of `else`, where a statement could have ended. -/
theorem newline_insertion_keeps_program_else :
    ∃ program,
      parse ((tokenize "if a \x7b b \x7d").1.dropLast ++ (tokenize "else \x7b c(1) \x7d\n").1)
          = .ok program
        ∧ parse ((tokenize "if a \x7b b \x7d").1.dropLast
            ++ .plain .newline "\n" 9 :: (tokenize "else \x7b c(1) \x7d\n").1) = .ok program :=
  Exists.imp (fun _ h => ⟨h, newline_insertion_keeps_program rfl (by decide +kernel) h⟩)
    (exists_eq_ok (by decide +kernel))

/-! ## One program behind another -/

theorem afterFeeds_append_of_eq_nil {ts : List Token} (h : afterFeeds ts = []) (ts' : List Token) :
    afterFeeds (ts ++ ts') = afterFeeds ts' := by
  simp [afterFeeds, List.dropWhile_append, show List.dropWhile _ ts = [] from h]

theorem afterFeeds_append_of_eq_cons {ts : List Token} {t : Token} {mid : List Token}
    (h : afterFeeds ts = t :: mid) (ts' : List Token) :
    afterFeeds (ts ++ ts') = t :: (mid ++ ts') := by
  simp [afterFeeds, List.dropWhile_append, show List.dropWhile _ ts = t :: mid from h]

/-- An end marker behind the tokens is what they end with anyway. -/
theorem nextKind_append_marker {t : Token} (ht : t.kind = .eof) (ts : List Token) :
    nextKind (ts ++ [t]) = nextKind ts := by
  unfold nextKind
  cases hts : afterFeeds ts with
  | nil =>
      rw [afterFeeds_append_of_eq_nil hts]
      simp [afterFeeds, headKind, ht]
  | cons first mid =>
      rw [afterFeeds_append_of_eq_cons hts]
      rfl

/-- A program is read alike with and without line feeds in front. -/
theorem Reads.program_of_afterFeeds {l : Bool} {ts ts' : List Token} {program : List Stmt}
    (h : Reads l ts (.program program) []) (hts : afterFeeds ts' = afterFeeds ts) :
    Reads l ts' (.program program) [] := by
  rw [reads_program_iff] at h ⊢
  rwa [hts]

theorem change_append {more : List Token} (hmore : (nextKind more).goesOn = false) :
    Change fun ts ts' => ts' = ts ++ more where
  token := by
    rintro ts _ t mid rfl hts
    refine ⟨mid ++ more, afterFeeds_append_of_eq_cons hts more, rfl, rfl, ?_⟩
    intro _ hmid
    obtain ⟨first, mid, rfl⟩ := List.exists_cons_of_ne_nil hmid
    rfl
  feed := by
    rintro t mid _ rfl ht
    exact ⟨t, mid ++ more, rfl, ht, rfl⟩
  last := by
    rintro ts _ rfl hts
    rwa [nextKind, afterFeeds_append_of_eq_nil hts]

/-- Kinds that begin a statement and that a statement in front of them would take in. -/
def TokenKind.glues : TokenKind → Bool
  | .leftParen | .leftBracket | .minus => true
  | _ => false

/-- Phrases that may stand at the front of a statement. -/
def Phrase.opensLine : Phrase → Bool
  | .statement _ | .expression _ | .tier _ _ | .primary _ => true
  | _ => false

theorem TokenKind.glues_of_not_mem {kind : TokenKind}
    (h : kind ∉ [TokenKind.leftParen, .leftBracket, .minus]) : kind.glues = false := by
  cases kind <;> first | rfl | simp at h

theorem goesOn_constant {t : Token} {c : Constant} (h : t.constant? = some c) :
    t.kind.goesOn = t.kind.glues := by
  cases hkind : t.kind <;> first | rfl | simp [Token.constant?, hkind] at h

/-- A statement begins with no other kind that would be taken in. -/
theorem Reads.goesOn_eq_glues {l : Bool} {ts rest : List Token} {ph : Phrase}
    (h : Reads l ts ph rest) (hph : ph.opensLine = true) :
    (nextKind ts).goesOn = (nextKind ts).glues := by
  induction h with
  | classStmt ht | functionStmt ht | letStmt ht | forInStmt ht | forStmt ht | tryStmt ht
  | ifStmt ht | ifElseStmt ht | returnStmt ht | returnValueStmt ht | breakStmt ht | continueStmt ht
  | whileStmt ht | blockStmt ht =>
      rw [ht.nextKind]
      rfl
  | exprStmt _ _ ih => exact ih rfl
  | exprTier _ _ ih => exact ih rfl
  | exprAssign _ _ _ _ ih _ => exact ih rfl
  | tierChain _ _ ih _ => exact ih rfl
  | tierUnary hop hkind _ _ =>
      rw [hop.nextKind]
      obtain hkind | hkind := hkind <;> rw [hkind] <;> rfl
  | tierCall _ _ _ _ ih _ => exact ih rfl
  | primaryConstant ht hc =>
      rw [ht.nextKind]
      exact goesOn_constant hc
  | primaryVar ht | primaryThis ht | primaryGrouping ht | primaryList ht | primaryDict ht
  | primaryFunction ht | primarySuper ht | primarySuperInit ht =>
      rw [ht.nextKind]
      rfl
  | _ => cases hph

/-- A program begins with no other kind that would be taken in. -/
theorem Reads.program_goesOn {l : Bool} {ts : List Token} {program : List Stmt}
    (h : Reads l ts (.program program) []) : (nextKind ts).goesOn = (nextKind ts).glues := by
  cases h with
  | programEnd hend =>
      rw [nextKind, hend]
      rfl
  | programMore _ hs _ _ => simpa using hs.goesOn_eq_glues rfl

theorem Reads.append_program {l : Bool} {ts ts' : List Token} {program program' : List Stmt}
    (h : Reads l ts (.program program) []) (h' : Reads l ts' (.program program') [])
    (hnext : (nextKind ts').glues = false) :
    Reads l (ts ++ ts') (.program (program ++ program')) [] := by
  rw [← h'.program_goesOn] at hnext
  refine h.program_change (change_append hnext) rfl ?_
  rintro us _ rfl hend
  exact h'.program_of_afterFeeds (afterFeeds_append_of_eq_nil hend ts')

/-- **Statement boundaries.** The tokens of a program and those of another, which does not begin
    with a parenthesis, a bracket or a minus sign, are together those of both programs. -/
theorem joined_programs_accepted {a b : List Token} {marker marker' : Token} {A B : Program}
    (ha : ∀ t ∈ a, t.kind ≠ .eof) (hmarker : marker.kind = .eof)
    (hb : ∀ t ∈ b, t.kind ≠ .eof) (hmarker' : marker'.kind = .eof)
    (hA : parse (a ++ [marker]) = .ok A) (hB : parse (b ++ [marker']) = .ok B)
    (hnext : nextKind (b ++ [marker']) ∉ [.leftParen, .leftBracket, .minus]) :
    parse (a ++ (b ++ [marker'])) = .ok (A ++ B) := by
  rw [parse_eq_ok_iff] at hA hB ⊢
  rw [beforeEnd_append ha, beforeEnd_marker hmarker, List.append_nil] at hA
  rw [beforeEnd_append hb, beforeEnd_marker hmarker', List.append_nil] at hB
  rw [beforeEnd_append ha, beforeEnd_append hb, beforeEnd_marker hmarker', List.append_nil]
  rw [nextKind_append_marker hmarker'] at hnext
  exact hA.append_program hB (TokenKind.glues_of_not_mem hnext)

/-- The first program ends with a name, which a parenthesis would make a call; the second begins
    with an empty line and a block. -/
theorem joined_programs_accepted_block :
    ∃ A B,
      parse ((tokenize "let a = b\n").1.dropLast ++ [.plain .eof "" 2]) = .ok A
        ∧ parse ((tokenize "\n\x7b c() \x7d\n").1.dropLast ++ [.plain .eof "" 3]) = .ok B
        ∧ parse ((tokenize "let a = b\n").1.dropLast
            ++ ((tokenize "\n\x7b c() \x7d\n").1.dropLast ++ [.plain .eof "" 3]))
          = .ok (A ++ B) := by
  obtain ⟨A, hA⟩ : ∃ A, parse ((tokenize "let a = b\n").1.dropLast ++ [.plain .eof "" 2]) = .ok A :=
    exists_eq_ok (by decide +kernel)
  obtain ⟨B, hB⟩ : ∃ B, parse ((tokenize "\n\x7b c() \x7d\n").1.dropLast ++ [.plain .eof "" 3])
      = .ok B := exists_eq_ok (by decide +kernel)
  exact ⟨A, B, hA, hB, joined_programs_accepted (by decide +kernel) rfl (by decide +kernel) rfl
    hA hB (by decide +kernel)⟩

end Script
