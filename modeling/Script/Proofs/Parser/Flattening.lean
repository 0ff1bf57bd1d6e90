import Mathlib.Data.List.Infix
import Script.Proofs.Parser.Programs
import Script.Proofs.Token.Genuine
import Script.Proofs.Tree.Spelling

/-!
# `Proofs.Parser.Flattening` — an accepted program says what its tokens say

Taken apart into words, the tree of an accepted program is its list of tokens again, but for what
the tree does not keep: the end marker, line feeds and commas, and the order of the two sorts of
methods of a class. `super(…)` counts as `super.init(…)`, which it stands for.

The proof is by induction on the rules of the grammar. The tokens that a phrase is read from *cover*
words that spell it (`Covers`): they are these words and then the words of the tokens behind. For
the order of methods it asks whatever is asked of the classes among the tokens, so the same
induction serves where any order will do.
-/

namespace Script

/-! ## The words of a list of tokens -/

/-- Kinds that no tree keeps. -/
def TokenKind.separates : TokenKind → Bool
  | comma | newline | eof => true
  | _ => false

/-- The words of tokens without separators. -/
def contentWords (ts : List Token) : List Word :=
  (ts.map Token.word).filter (!·.kind.separates)

/-- Writes `super.init(` for `super(`. -/
def withInit : List Word → List Word
  | [] => []
  | w :: ws =>
    if w.kind = .kwSuper ∧ ws.head?.map Word.kind = some .leftParen then
      w :: .mark .dot :: .name "init" :: withInit ws
    else w :: withInit ws

/-- The words of tokens that a tree keeps. -/
def spokenWords (ts : List Token) : List Word := withInit (contentWords ts)

theorem contentWords_cons_of_separates {t : Token} {ts : List Token} (h : t.kind.separates = true) :
    contentWords (t :: ts) = contentWords ts := by
  simp [contentWords, h]

theorem contentWords_cons {t : Token} {ts : List Token} (h : t.kind.separates = false) :
    contentWords (t :: ts) = t.word :: contentWords ts := by
  simp [contentWords, h]

/-- Line feeds are separators, so no word is lost with them. -/
@[simp] theorem contentWords_afterFeeds (ts : List Token) :
    contentWords (afterFeeds ts) = contentWords ts := by
  unfold afterFeeds
  induction ts with
  | nil => rfl
  | cons t ts ih =>
      by_cases ht : t.kind = .newline
      · rw [List.dropWhile_cons_of_pos (by simpa using ht), ih,
          contentWords_cons_of_separates (by rw [ht]; rfl)]
      · rw [List.dropWhile_cons_of_neg (by simpa using ht)]

theorem Eats.contentWords {k : TokenKind} {ts rest : List Token} {t : Token} (h : Eats k ts t rest)
    (hk : k.separates = false) : contentWords ts = t.word :: contentWords rest := by
  rw [← contentWords_afterFeeds, h.1, contentWords_cons (by rw [h.2, hk])]

theorem spokenWords_afterFeeds (ts : List Token) : spokenWords (afterFeeds ts) = spokenWords ts := by
  simp [spokenWords]

theorem Eats.spokenWords_of_separates {k : TokenKind} {ts rest : List Token} {t : Token}
    (h : Eats k ts t rest) (hk : k.separates = true) : spokenWords ts = spokenWords rest := by
  rw [spokenWords, ← contentWords_afterFeeds, h.1, contentWords_cons_of_separates (by rw [h.2, hk]),
    spokenWords]

/-- A token that the tree keeps is the first word. `super` is left out, since what is said for it
    depends on the next token. -/
theorem Eats.spokenWords {k : TokenKind} {ts rest : List Token} {t : Token} (h : Eats k ts t rest)
    (hk : k.separates = false) (hsuper : k ≠ .kwSuper) :
    spokenWords ts = t.word :: spokenWords rest := by
  rw [Script.spokenWords, h.contentWords hk, withInit, if_neg]
  · rfl
  · rintro ⟨hkind, _⟩
    exact hsuper (h.2.symm.trans hkind)

/-- If the next token is no separator, the first word is of its kind. -/
theorem head?_contentWords {ts : List Token} (h : (nextKind ts).separates = false) :
    (contentWords ts).head?.map Word.kind = some (nextKind ts) := by
  rw [← contentWords_afterFeeds]
  unfold nextKind headKind at *
  cases hts : afterFeeds ts with
  | nil =>
      rw [hts] at h
      cases h
  | cons t rest =>
      rw [hts] at h
      simp [contentWords_cons h]

/-- In front of a dot `super` stands for itself. -/
theorem spokenWords_super {ts mid : List Token} {t : Token} (h : Eats .kwSuper ts t mid)
    (hmid : nextKind mid = .dot) : spokenWords ts = t.word :: spokenWords mid := by
  rw [spokenWords, h.contentWords rfl, withInit, if_neg]
  · rfl
  · rintro ⟨_, hhead⟩
    rw [head?_contentWords (by rw [hmid]; rfl), hmid] at hhead
    cases hhead

/-- In front of a parenthesis `super` stands for `super.init`. -/
theorem spokenWords_superInit {ts mid : List Token} {t : Token} (h : Eats .kwSuper ts t mid)
    (hmid : nextKind mid = .leftParen) :
    spokenWords ts = t.word :: .mark .dot :: .name "init" :: spokenWords mid := by
  rw [spokenWords, h.contentWords rfl, withInit, if_pos]
  · rfl
  · exact ⟨h.2, by rw [head?_contentWords (by rw [hmid]; rfl), hmid]⟩

/-- A constant is written as the word that it was read from. -/
theorem Token.Genuine.word_of_constant {t : Token} {c : Constant} (h : t.Genuine)
    (hc : t.constant? = some c) : t.word = c.word := by
  cases h with
  | @mark kind line hkind =>
      unfold Token.constant? Token.plain at hc
      cases kind <;> cases hc <;> rfl
  | name => cases hc
  | newline => cases hc
  | number =>
      cases hc
      rfl
  | string =>
      cases hc
      rfl

/-! ## The order of methods -/

/-- The methods of the class that the tokens begin with, as they are written. There are none if the
    tokens begin with no class. -/
def classMembers : List Token → List Member
  | [] => []
  | keyword :: after =>
    if keyword.kind = .kwClass then
      let text : ParseM _ := Grammar.classText (Level.ofDepth (after.length + 1))
      match text (Cursor.ofTokens after) with
      | .ok (_, _, members) _ => members
      | .error _ _ => []
    else []

/-- No class among the tokens puts a method of its own before a method of instances. -/
def ClassesInOrder (tokens : List Token) : Prop :=
  ∀ ts ∈ tokens.tails, StaticsLast ((classMembers ts).map (·.isStatic))

instance (tokens : List Token) : Decidable (ClassesInOrder tokens) :=
  inferInstanceAs (Decidable (∀ ts ∈ tokens.tails, StaticsLast ((classMembers ts).map (·.isStatic))))

/-- A class is read alike inside a loop and outside of one. -/
theorem Reads.members_loop {l l' : Bool} {ts rest : List Token} {ms : List Member}
    (h : Reads l ts (.members ms) rest) : Reads l' ts (.members ms) rest := by
  generalize hph : Phrase.members ms = ph at h
  induction h generalizing ms with
  | membersEnd hnext =>
      cases hph
      exact .membersEnd hnext
  | membersMissing =>
      cases hph
      exact .membersMissing
  | membersMethod hbrace hts hclass hf hms _ ih =>
      cases hph
      cases hf with
      | named hname hf hbody => exact .membersMethod hbrace hts hclass (.named hname hf hbody) (ih rfl)
  | membersStatic ht hf hms _ ih =>
      cases hph
      cases hf with
      | named hname hf hbody => exact .membersStatic ht (.named hname hf hbody) (ih rfl)
  | _ => cases hph

/-- A class is read in the same way inside and outside of a loop, as are its methods. -/
theorem Reads.classText_loop {l l' : Bool} {ts rest : List Token} {name : Token}
    {super : Option Token} {ms : List Member} (h : Reads l ts (.classText name super ms) rest) :
    Reads l' ts (.classText name super ms) rest := by
  cases h with
  | classText hname hsuper hopening hms hclosing =>
      refine .classText hname ?_ hopening hms.members_loop hclosing
      cases hsuper with
      | superClassNone hless => exact .superClassNone hless
      | superClass hless hident => exact .superClass hless hident

/-- What is read as a class is what `classMembers` finds. -/
theorem classMembers_of_reads {l : Bool} {keyword name : Token} {after rest : List Token}
    {super : Option Token} {ms : List Member} (hkeyword : keyword.kind = .kwClass)
    (h : Reads l (beforeEnd after) (.classText name super ms) rest) :
    classMembers (keyword :: after) = ms := by
  have hlength : (Cursor.ofTokens after).rest.length
      < (Level.ofDepth (after.length + 1) : Level ParseM).rounds := by
    simp only [Level.rounds_ofDepth]
    exact Nat.lt_succ_of_le (List.takeWhile_sublist _).length_le
  have hrun := ((Grammar.exact_classText (Level.exact_ofDepth (after.length + 1))).reads
    (c := Cursor.ofTokens after) (a := (name, super, ms)) (r := rest)
    (by simp [Cursor.ofTokens, CallStack.root]) hlength).mpr h.classText_loop
  simp only [classMembers, if_pos hkeyword, hrun]

/-! ## Covering -/

/-- What the proof asks of tokens: they are genuine, and the methods of their classes are in an
    order that is `ok`. -/
structure Lawful (ok : List Bool → Prop) (ts : List Token) : Prop where
  genuine : ∀ t ∈ ts, t.Genuine
  ordered : ∀ {l keyword after name super ms rest}, keyword :: after <:+ ts →
    keyword.kind = .kwClass → Reads l after (.classText name super ms) rest →
    ok (ms.map (·.isStatic))

variable {ok : List Bool → Prop}

/-- What is asked of tokens holds of the rest of them as well. -/
theorem Lawful.suffix {ts rest : List Token} (h : Lawful ok ts) (hrest : rest <:+ ts) :
    Lawful ok rest :=
  ⟨fun t ht => h.genuine t (hrest.mem ht), fun hsuffix => h.ordered (hsuffix.trans hrest)⟩

theorem afterFeeds_suffix (ts : List Token) : afterFeeds ts <:+ ts := List.dropWhile_suffix _

theorem Eats.suffix {k : TokenKind} {ts rest : List Token} {t : Token} (h : Eats k ts t rest) :
    t :: rest <:+ ts :=
  h.1 ▸ afterFeeds_suffix ts

theorem Eats.rest_suffix {k : TokenKind} {ts rest : List Token} {t : Token} (h : Eats k ts t rest) :
    rest <:+ ts :=
  (List.suffix_cons t rest).trans h.suffix

/-- The tokens are words of which `S` holds, and then the tokens `rest`. -/
def Covers (ok : List Bool → Prop) (ts : List Token) (S : List Word → Prop) (rest : List Token) :
    Prop :=
  Lawful ok ts → ∃ u, S u ∧ spokenWords ts = u ++ spokenWords rest ∧ Lawful ok rest

namespace Covers

variable {ts mid rest : List Token} {S S' : List Word → Prop}

/-- Nothing is read, and there are no words. -/
theorem done (h : S []) : Covers ok ts S ts := fun hts => ⟨[], h, rfl, hts⟩

theorem mono (h : Covers ok ts S rest) (hS : ∀ u, S u → S' u) : Covers ok ts S' rest := fun hts =>
  Exists.imp (fun u hu => ⟨hS u hu.1, hu.2⟩) (h hts)

/-- Words in front put no more tokens behind. -/
theorem cons_words {w : List Word} (hts : Lawful ok ts → spokenWords ts = w ++ spokenWords mid)
    (hmid : mid <:+ ts) (h : Covers ok mid (fun v => S (w ++ v)) rest) : Covers ok ts S rest := by
  intro hlawful
  obtain ⟨v, hv, hwords, hrest⟩ := h (hlawful.suffix hmid)
  exact ⟨w ++ v, hv, by rw [hts hlawful, hwords, List.append_assoc], hrest⟩

/-- One part after the other, where the words of the second are added to those of the first. -/
theorem bind (h : Covers ok ts S mid) (h' : ∀ u, S u → Covers ok mid (fun v => S' (u ++ v)) rest) :
    Covers ok ts S' rest := by
  intro hts
  obtain ⟨u, hu, hwords, hmid⟩ := h hts
  obtain ⟨v, hv, hwords', hrest⟩ := h' u hu hmid
  exact ⟨u ++ v, hv, by rw [hwords, hwords', List.append_assoc], hrest⟩

/-- Line feeds that are skipped have no words. -/
theorem feeds (h : Covers ok (afterFeeds ts) S rest) : Covers ok ts S rest :=
  cons_words (w := []) (fun _ => (spokenWords_afterFeeds ts).symm) (afterFeeds_suffix ts) h

/-- A token that the tree keeps. -/
theorem token {k : TokenKind} {t : Token} (h : Eats k ts t mid)
    (hk : (k.separates || k == .kwSuper) = false)
    (h' : Covers ok mid (fun v => S (t.word :: v)) rest) : Covers ok ts S rest := by
  simp only [Bool.or_eq_false_iff, beq_eq_false_iff_ne] at hk
  exact cons_words (w := [t.word]) (fun _ => h.spokenWords hk.1 hk.2) h.rest_suffix h'

/-- A token with one spelling. -/
theorem mark {k : TokenKind} {t : Token} (h : Eats k ts t mid)
    (hk : (k.separates || k == .kwSuper || !k.isMark) = false)
    (h' : Covers ok mid (fun v => S (.mark k :: v)) rest) : Covers ok ts S rest := by
  intro hts
  simp only [Bool.or_eq_false_iff, Bool.not_eq_false'] at hk
  have hgenuine := hts.genuine t (h.suffix.mem List.mem_cons_self)
  have hword : t.word = .mark k := by
    rw [hgenuine.word_eq_mark (by rw [h.2, hk.2]), h.2]
  rw [← hword] at h'
  exact token h (Bool.or_eq_false_iff.mpr hk.1) h' hts

theorem comma {t : Token} (h : Eats .comma ts t mid) (h' : Covers ok mid S rest) :
    Covers ok ts S rest :=
  cons_words (w := []) (fun _ => h.spokenWords_of_separates rfl) h.rest_suffix h'

theorem newline {t : Token} (h : t.kind = .newline) (h' : Covers ok mid S rest) :
    Covers ok (t :: mid) S rest := by
  refine cons_words (w := []) (fun _ => ?_) (List.suffix_cons _ _) h'
  simp [Script.spokenWords, contentWords_cons_of_separates, h, TokenKind.separates]

/-- `super` in front of a dot, which stays with the tokens that follow. -/
theorem super {t dot : Token} {after : List Token} (h : Eats .kwSuper ts t mid)
    (hdot : Eats .dot mid dot after) (h' : Covers ok mid (fun v => S (t.word :: v)) rest) :
    Covers ok ts S rest :=
  cons_words (w := [t.word]) (fun _ => spokenWords_super h hdot.nextKind) h.rest_suffix h'

/-- `super` in front of a parenthesis has the words of `super.init`. -/
theorem superInit {t : Token} (h : Eats .kwSuper ts t mid) (hmid : nextKind mid = .leftParen)
    (h' : Covers ok mid (fun v => S (t.word :: .mark .dot :: .name "init" :: v)) rest) :
    Covers ok ts S rest :=
  cons_words (w := [t.word, .mark .dot, .name "init"]) (fun _ => spokenWords_superInit h hmid)
    h.rest_suffix h'

/-- The token of a constant has the word of the constant, if it is genuine. -/
theorem constant {t : Token} {c : Constant} (h : Eats t.kind ts t mid)
    (hc : t.constant? = some c) (h' : Covers ok mid (fun v => S (c.word :: v)) rest) :
    Covers ok ts S rest := by
  intro hts
  have hgenuine := hts.genuine t (h.suffix.mem List.mem_cons_self)
  rw [← hgenuine.word_of_constant hc] at h'
  refine token h ?_ h' hts
  unfold Token.constant? at hc
  split at hc <;> simp_all [TokenKind.separates]

end Covers

/-! ## Phrases -/

/-- The words spell the phrase. If the phrase completes a part that was read before, the words are
    what the whole has more than the part. -/
def Phrase.Spells (ok : List Bool → Prop) : Phrase → List Word → Prop
  | .program ss, ws => spellsLines ok ss ws
  | .statement s, ws => s.Spells ok ws
  | .block ss, ws => ∃ u, spellsLines ok ss u ∧ ws = u ++ [.mark .rightBrace]
  | .braced ss, ws => ∃ u, spellsLines ok ss u ∧ ws = wordsBraced .bare u
  | .binding s, ws => s.Spells ok (.mark .kwLet :: ws)
  | .initializer s, ws => ∃ u, spellsStmt? ok s u ∧ ws = u ++ [.mark .semicolon]
  | .loopVariables names, ws | .parameters _ names, ws | .parameterList names, ws =>
    ws = wordsNames .bare names
  | .elifs bs, ws => spellsElifs ok bs ws
  | .superClass name, ws => ws = wordsSuper name
  | .members ms, ws =>
    ∃ us vs, spellsEach ok (Member.select false ms) us ∧ spellsEach ok (Member.select true ms) vs
      ∧ Mixes (ms.map (·.isStatic)) us vs ws
  | .classText name super ms, ws =>
    ∃ us vs u, spellsEach ok (Member.select false ms) us ∧ spellsEach ok (Member.select true ms) vs
      ∧ Mixes (ms.map (·.isStatic)) us vs u
      ∧ ws = name.word :: (wordsSuper super ++ wordsBraced .bare u)
  | .named f, ws => f.Spells ok ws
  | .function f, ws => { f with name := none }.Spells ok ws
  | .body b, ws => b.Spells ok ws
  | .expression e, ws | .tier _ e, ws | .primary e, ws => e.Spells ok ws
  | .operands _ left e, ws | .suffixes left e, ws =>
    ∀ u, left.Spells ok u → e.Spells ok (u ++ ws)
  | .arguments _ _ es, ws | .argumentList _ es, ws => spellsList ok es ws
  | .entries kvs, ws => spellsEntries ok kvs ws
  | .component e, ws => spells? ok e ws
  | .slice a, ws =>
    ∃ v₂ v₃, spells? ok a.second v₂ ∧ spells? ok a.third v₃
      ∧ ws = v₂ ++ wordsBehind a.secondColon v₃
  | .access a, ws =>
    ∃ v₁ v₂ v₃, spells? ok a.first v₁ ∧ spells? ok a.second v₂ ∧ spells? ok a.third v₃
      ∧ ws = v₁ ++ (wordsBehind a.firstColon v₂ ++ wordsBehind a.secondColon v₃)

/-- The node of a tier is spelled by its operands with the operator between them, whichever sort of
    node it is. -/
theorem spells_tierNode {k : Nat} {left right : Expr} {op : Token} {u v : List Word}
    (hleft : left.Spells ok u) (hright : right.Spells ok v) :
    (tierNode k left op right).Spells ok (u ++ op.word :: v) := by
  unfold tierNode
  split
  · exact ⟨u, v, hleft, hright, rfl⟩
  · exact ⟨u, v, hleft, hright, rfl⟩

/-- No operator of a tier is a separator or `super`, so all of them are kept. -/
theorem kept_of_mem_tierOperators {k : Nat} {kind : TokenKind} (h : kind ∈ tierOperators k) :
    (kind.separates || kind == .kwSuper) = false := by
  unfold tierOperators at h
  split at h <;> revert kind <;> decide

/-- An assignment says its target and its value. -/
theorem spells_assignment {target value e : Expr} {u v : List Word}
    (h : Grammar.assignment? target value = some e) (htarget : target.Spells ok u)
    (hvalue : value.Spells ok v) : e.Spells ok (u ++ .mark .equal :: v) := by
  cases target with
  | access a =>
      unfold Grammar.assignment? at h
      split at h
      · cases h
        exact ⟨u, v, htarget, hvalue, rfl⟩
      · cases h
        exact ⟨u, v, htarget, hvalue, rfl⟩
      · cases h
  | var name =>
      cases h
      cases htarget
      exact ⟨v, hvalue, rfl⟩
  | get object name =>
      cases h
      obtain ⟨w, hobject, rfl⟩ := htarget
      exact ⟨w, v, hobject, hvalue, by simp⟩
  | _ => cases h

/-- **What the grammar reads is spelled by its tokens.** -/
theorem Reads.covers {l : Bool} {ts rest : List Token} {ph : Phrase} (h : Reads l ts ph rest) :
    Covers ok ts (ph.Spells ok) rest := by
  -- A phrase is spelled by its parts and marks, in the order in which its rule reads them.
  induction h with
  | programEnd hfeeds => exact .feeds (hfeeds ▸ .done rfl)
  | programMore _ _ hfeed _ ihs ihss =>
      exact .feeds (.bind ihs fun u hu => .newline hfeed (ihss.mono fun v hv => ⟨u, v, hu, hv, rfl⟩))
  | blockEnd ht => exact .mark ht rfl (.done ⟨[], rfl, rfl⟩)
  | blockMore _ _ _ _ ihs ihss =>
      refine .feeds (.bind ihs fun u hu => ihss.mono ?_)
      rintro _ ⟨v, hv, rfl⟩
      exact ⟨u ++ v, ⟨u, v, hu, hv, rfl⟩, (List.append_assoc _ _ _).symm⟩
  | braced ht _ ih =>
      refine .mark ht rfl (ih.mono ?_)
      rintro _ ⟨u, hu, rfl⟩
      exact ⟨u, hu, rfl⟩
  | exprStmt _ _ ih => exact ih
  | classStmt ht hreads ih =>
      intro hts
      have hordered := hts.ordered ht.suffix ht.2 hreads
      refine Covers.mark ht rfl (ih.mono ?_) hts
      rintro _ ⟨us, vs, u, hus, hvs, hmixes, rfl⟩
      exact ⟨us, vs, _, u, hus, hvs, hordered, hmixes, rfl⟩
  | functionStmt ht _ ih => exact .mark ht rfl (ih.mono fun u hu => ⟨u, hu, rfl⟩)
  | letStmt ht _ ih => exact .mark ht rfl ih
  | forInStmt ht _ _ hin _ _ ihnames ihe ihs =>
      refine .token ht rfl (.feeds (.bind ihnames ?_))
      rintro _ rfl
      exact .mark hin rfl (.bind ihe fun u hu => ihs.mono fun v hv => ⟨u, v, hu, hv, rfl⟩)
  | forStmt ht _ _ _ hsemicolon _ _ ihi ihc ihe ihs =>
      refine .token ht rfl (.bind ihi ?_)
      rintro _ ⟨u, hu, rfl⟩
      refine .bind ihc fun v₁ hv₁ => .mark hsemicolon rfl (.bind ihe fun v₂ hv₂ => ihs.mono ?_)
      intro v₃ hv₃
      exact ⟨u, v₁, v₂, v₃, hu, hv₁, hv₂, hv₃, by simp⟩
  | tryStmt ht _ hcatch hname _ ihs ihs' =>
      exact .mark ht rfl (.bind ihs fun u hu => .mark hcatch rfl (.token hname rfl
        (ihs'.mono fun v hv => ⟨u, v, hu, hv, rfl⟩)))
  | ifStmt ht _ _ _ _ ihc ihss ihbs =>
      refine .token ht rfl (.bind ihc fun u hu => .bind ihss ?_)
      rintro _ ⟨v₁, hv₁, rfl⟩
      exact ihbs.mono fun v₂ hv₂ => ⟨u, v₁, v₂, [], hu, hv₁, hv₂, rfl, by simp⟩
  | ifElseStmt ht _ _ _ helse _ ihc ihss ihbs ihss' =>
      refine .token ht rfl (.bind ihc fun u hu => .bind ihss ?_)
      rintro _ ⟨v₁, hv₁, rfl⟩
      refine .bind ihbs fun v₂ hv₂ => .mark helse rfl (ihss'.mono ?_)
      rintro _ ⟨v₃, hv₃, rfl⟩
      exact ⟨u, v₁, v₂, _, hu, hv₁, hv₂, ⟨v₃, hv₃, rfl⟩, rfl⟩
  | returnStmt ht _ => exact .token ht rfl (.done ⟨[], rfl, rfl⟩)
  | returnValueStmt ht _ _ ih => exact .token ht rfl (ih.mono fun u hu => ⟨u, hu, rfl⟩)
  | breakStmt ht => exact .token ht rfl (.done rfl)
  | continueStmt ht => exact .token ht rfl (.done rfl)
  | whileStmt ht _ _ ihc ihs =>
      exact .token ht rfl (.bind ihc fun u hu => ihs.mono fun v hv => ⟨u, v, hu, hv, rfl⟩)
  | blockStmt ht _ ih => exact .mark ht rfl (ih.mono fun _ ⟨u, hu, hws⟩ => ⟨u, hu, hws ▸ rfl⟩)
  | binding hname hequal _ ih =>
      exact .token hname rfl (.mark hequal rfl (ih.mono fun u hu => ⟨u, hu, rfl⟩))
  | bindingBare hname _ => exact .token hname rfl (.done rfl)
  | initializerNone ht => exact .mark ht rfl (.done ⟨[], rfl, rfl⟩)
  | initializerLet ht _ hsemicolon ih =>
      exact .mark ht rfl (.bind ih fun u hu => .mark hsemicolon rfl (.done ⟨_, hu, rfl⟩))
  | loopVariablesEnd _ => exact .done rfl
  | loopVariablesMore hname _ _ ih =>
      refine .token hname rfl (ih.mono ?_)
      rintro _ rfl
      exact (wordsNames_bare_cons _ _).symm
  | loopVariablesComma hname hcomma _ ih =>
      refine .token hname rfl (.comma hcomma (ih.mono ?_))
      rintro _ rfl
      exact (wordsNames_bare_cons _ _).symm
  | elifsEnd _ => exact .done rfl
  | elifsMore ht _ _ _ ihc ihss ihbs =>
      refine .mark ht rfl (.bind ihc fun u hu => .bind ihss ?_)
      rintro _ ⟨v, hv, rfl⟩
      exact ihbs.mono fun w hw => ⟨u, v, w, hu, hv, hw, rfl⟩
  | superClassNone _ => exact .done rfl
  | superClass ht hname => exact .mark ht rfl (.token hname rfl (.done rfl))
  | membersEnd _ => exact .feeds (.done ⟨[], [], rfl, rfl, .nil⟩)
  | membersMissing => exact .done ⟨[], [], rfl, rfl, .nil⟩
  | membersMethod _ _ _ _ _ ihf ihms =>
      refine .bind ihf fun u hu => ihms.mono ?_
      rintro v ⟨us, vs, hus, hvs, hmixes⟩
      exact ⟨u :: us, vs, ⟨u, us, hu, hus, rfl⟩, hvs, .method hmixes⟩
  | membersStatic ht _ _ ihf ihms =>
      refine .mark ht rfl (.bind ihf fun u hu => ihms.mono ?_)
      rintro v ⟨us, vs, hus, hvs, hmixes⟩
      exact ⟨us, u :: vs, hus, ⟨u, vs, hu, hvs, rfl⟩, .static hmixes⟩
  | classText hname _ hopening _ hclosing ihsuper ihms =>
      refine .token hname rfl (.bind ihsuper ?_)
      rintro _ rfl
      refine .mark hopening rfl (.bind ihms ?_)
      rintro u ⟨us, vs, hus, hvs, hmixes⟩
      exact .mark hclosing rfl (.done ⟨us, vs, u, hus, hvs, hmixes, rfl⟩)
  | @named _ _ _ _ f _ hname hf _ ih =>
      obtain ⟨_, ps, b⟩ := f
      subst hf
      refine .token hname rfl (ih.mono ?_)
      rintro _ ⟨u, hu, rfl⟩
      exact ⟨u, hu, rfl⟩
  | function hopening _ hclosing _ ihps ihb =>
      refine .mark hopening rfl (.bind ihps ?_)
      rintro _ rfl
      exact .mark hclosing rfl (ihb.mono fun u hu => ⟨u, hu, rfl⟩)
  | parametersLast _ hname _ => exact .token hname rfl (.done rfl)
  | parametersMore _ hname hcomma _ ih =>
      refine .token hname rfl (.comma hcomma (ih.mono ?_))
      rintro _ rfl
      exact (wordsNames_bare_cons _ _).symm
  | parameterListNone _ => exact .feeds (.done rfl)
  | parameterList _ _ ih => exact ih
  | bodyBlock ht _ ih => exact .mark ht rfl (ih.mono fun _ ⟨u, hu, hws⟩ => ⟨u, hu, hws ▸ rfl⟩)
  | bodyExpr _ _ ih => exact ih
  | exprTier _ _ ih => exact ih
  | exprAssign _ ht _ hassign ihtarget ihvalue =>
      exact .bind ihtarget fun u hu => .mark ht rfl
        (ihvalue.mono fun v hv => spells_assignment hassign hu hv)
  | tierChain _ _ ihleft ih => exact .bind ihleft fun u hu => ih.mono fun v hv => hv u hu
  | operandsEnd _ => exact .done fun u hu => (List.append_nil u).symm ▸ hu
  | operandsMore hop hmem _ _ ihright ih =>
      refine .token hop (kept_of_mem_tierOperators hmem) (.bind ihright fun v hv => ih.mono ?_)
      intro w hw u hu
      have hnode := hw _ (spells_tierNode hu hv)
      rwa [List.append_assoc] at hnode
  | tierUnary hop hkind _ ih =>
      refine .token hop ?_ (ih.mono fun u hu => ⟨u, hu, rfl⟩)
      obtain h | h := hkind <;> rw [h] <;> rfl
  | tierCall _ _ _ _ ihprimary ih => exact .bind ihprimary fun u hu => ih.mono fun v hv => hv u hu
  | suffixesEnd _ => exact .done fun u hu => (List.append_nil u).symm ▸ hu
  | suffixesCall ht _ hclosing _ ihargs ih =>
      refine .mark ht rfl (.bind ihargs fun v hv => .token hclosing rfl (ih.mono ?_))
      intro w hw u hu
      have hcall := hw _ ⟨u, v, hu, hv, rfl⟩
      simpa using hcall
  | suffixesGet ht hname _ ih =>
      refine .mark ht rfl (.token hname rfl (ih.mono ?_))
      intro w hw u hu
      have hget := hw _ ⟨u, hu, rfl⟩
      simpa using hget
  | @suffixesAccess _ _ _ _ a _ _ _ _ _ _ ht hobject hbracket _ hclosing _ iha ih =>
      obtain ⟨object, bracket, first, firstColon, second, secondColon, third⟩ := a
      subst hobject hbracket
      refine .token ht rfl (.bind iha ?_)
      rintro _ ⟨v₁, v₂, v₃, hv₁, hv₂, hv₃, rfl⟩
      refine .mark hclosing rfl (ih.mono ?_)
      intro w hw u hu
      have haccess := hw _ ⟨u, v₁, v₂, v₃, hu, hv₁, hv₂, hv₃, rfl⟩
      simpa using haccess
  | primaryConstant ht hc => exact .constant ht hc (.done rfl)
  | primaryVar ht => exact .token ht rfl (.done rfl)
  | primaryThis ht => exact .token ht rfl (.done rfl)
  | primaryGrouping ht _ hclosing ih =>
      exact .mark ht rfl (.bind ih fun u hu => .mark hclosing rfl (.done ⟨u, hu, rfl⟩))
  | primaryList ht _ hclosing ih =>
      exact .mark ht rfl (.bind ih fun u hu => .token hclosing rfl (.done ⟨u, hu, rfl⟩))
  | primaryDict ht _ hclosing ih =>
      exact .mark ht rfl (.bind ih fun u hu => .token hclosing rfl (.done ⟨u, hu, rfl⟩))
  | @primaryFunction _ _ _ _ f _ ht hname _ ih =>
      obtain ⟨_, ps, b⟩ := f
      subst hname
      exact .mark ht rfl (ih.mono fun u hu => ⟨u, hu, rfl⟩)
  | primarySuper ht hdot hname =>
      exact .super ht hdot (.mark hdot rfl (.token hname rfl (.done rfl)))
  | primarySuperInit ht hmid => exact .superInit ht hmid (.feeds (.done rfl))
  | argumentsLast _ _ _ ih => exact ih.mono fun u hu => ⟨u, [], hu, rfl, (List.append_nil u).symm⟩
  | argumentsTrailing _ _ hcomma _ ih =>
      exact .bind ih fun u hu => .comma hcomma (.feeds (.done ⟨u, [], hu, rfl, rfl⟩))
  | argumentsMore _ _ hcomma _ _ ihe ihes =>
      exact .bind ihe fun u hu => .comma hcomma (ihes.mono fun v hv => ⟨u, v, hu, hv, rfl⟩)
  | argumentListNone _ => exact .feeds (.done rfl)
  | argumentList _ _ ih => exact ih
  | entriesEnd _ => exact .feeds (.done rfl)
  | entriesLast _ _ hcolon _ _ ihkey ihvalue =>
      exact .bind ihkey fun u hu => .mark hcolon rfl
        (ihvalue.mono fun v hv => ⟨u, v, [], hu, hv, rfl, by simp⟩)
  | entriesMore _ _ hcolon _ hcomma _ ihkey ihvalue ihkvs =>
      exact .bind ihkey fun u hu => .mark hcolon rfl (.bind ihvalue fun v hv =>
        .comma hcomma (ihkvs.mono fun w hw => ⟨u, v, w, hu, hv, hw, rfl⟩))
  | componentNone _ => exact .feeds (.done rfl)
  | componentMissing => exact .done rfl
  | component _ _ _ _ ih => exact ih
  | slice _ hcolon _ ihsecond ihthird =>
      exact .bind ihsecond fun v₂ hv₂ => .token hcolon rfl
        (ihthird.mono fun v₃ hv₃ => ⟨v₂, v₃, hv₂, hv₃, rfl⟩)
  | sliceShort _ _ ih => exact ih.mono fun u hu => ⟨u, [], hu, rfl, (List.append_nil u).symm⟩
  | accessSlice hcolon hfirst hfirstColon _ ih =>
      refine .token hcolon rfl (ih.mono ?_)
      rintro _ ⟨v₂, v₃, hv₂, hv₃, rfl⟩
      exact ⟨[], v₂, v₃, hfirst ▸ rfl, hv₂, hv₃, by rw [hfirstColon]; rfl⟩
  | accessFirstSlice _ _ hcolon hfirst hfirstColon _ ihfirst ih =>
      refine .bind ihfirst fun v₁ hv₁ => .token hcolon rfl (ih.mono ?_)
      rintro _ ⟨v₂, v₃, hv₂, hv₃, rfl⟩
      exact ⟨v₁, v₂, v₃, hfirst ▸ hv₁, hv₂, hv₃, by rw [hfirstColon]; rfl⟩
  | accessIndex _ _ _ ih =>
      exact ih.mono fun u hu => ⟨u, [], [], hu, rfl, rfl, (List.append_nil u).symm⟩

/-! ## Programs -/

/-- A genuine token is no end marker, so the tokens before the end are those in front of the marker
    that was added. -/
theorem beforeEnd_append_eof {ts : List Token} (h : ∀ t ∈ ts, t.Genuine) (line : Nat) :
    beforeEnd (ts ++ [.plain .eof "" line]) = ts := by
  unfold beforeEnd
  rw [List.takeWhile_append_of_pos]
  · exact List.append_nil ts
  · intro t ht
    simpa using (h t ht).kind_ne_eof

/-- The words of an accepted program are spelled by the tokens it is read from. -/
theorem spells_of_reads {ts : List Token} {program : Program} (hts : Lawful ok ts)
    (h : Reads false ts (.program program) []) : spellsLines ok program (spokenWords ts) := by
  obtain ⟨u, hu, hwords, _⟩ := h.covers hts
  rw [hwords, show spokenWords [] = [] from rfl, List.append_nil]
  exact hu

/-- The tokens of a source whose classes have their methods in order. -/
theorem lawful_of_classesInOrder {ts : List Token} {line : Nat} (hgenuine : ∀ t ∈ ts, t.Genuine)
    (h : ClassesInOrder (ts ++ [.plain .eof "" line])) : Lawful StaticsLast ts := by
  refine ⟨hgenuine, ?_⟩
  intro l keyword after name super ms rest hsuffix hkeyword hreads
  have hafter : ∀ t ∈ after, t.Genuine := fun t ht =>
    hgenuine t (hsuffix.mem (List.mem_cons_of_mem _ ht))
  have hmem : keyword :: (after ++ [Token.plain .eof "" line])
      ∈ (ts ++ [Token.plain .eof "" line]).tails := by
    obtain ⟨front, hfront⟩ := hsuffix
    exact (List.mem_tails _ _).mpr ⟨front, by rw [← hfront]; simp⟩
  rw [← beforeEnd_append_eof hafter line] at hreads
  exact classMembers_of_reads hkeyword hreads ▸ h _ hmem

/-- **A parsed program says what its tokens say.** The words of the program, in the order of its
    tree, are those of the tokens of the source, without separators and with `super(` written as
    `super.init(`. The classes of the source have their methods of instances first, as the tree
    has. -/
theorem program_words_eq_tokens {source : String} {program : Program}
    (hparse : parse (tokenize source).1 = .ok program)
    (hclasses : ClassesInOrder (tokenize source).1) :
    program.words .bare = spokenWords (tokenize source).1 := by
  obtain ⟨ts, line, htokens, hgenuine⟩ := tokenize_eq source
  rw [htokens] at hparse hclasses ⊢
  have hreads := Iff.mp parse_eq_ok_iff hparse
  rw [beforeEnd_append_eof hgenuine] at hreads
  have hspells := spells_of_reads (lawful_of_classesInOrder hgenuine hclasses) hreads
  have heof : spokenWords (ts ++ [.plain .eof "" line]) = spokenWords ts := by
    simp [spokenWords, contentWords, TokenKind.separates, Token.plain]
  rw [heof, Program.words, ← spellsLines_eq program hspells]

/-- A class with a method of each sort, `super(…)`, and commas before closing brackets. -/
theorem program_words_eq_tokens_class :
    ∃ program,
      parse (tokenize "class A < B \x7b init(x) super(x,)\n class of(x) [x,] \x7d").1 = .ok program
        ∧ program.words .bare
          = spokenWords (tokenize "class A < B \x7b init(x) super(x,)\n class of(x) [x,] \x7d").1 :=
  Exists.imp (fun _ h => ⟨h, program_words_eq_tokens h (by decide +kernel)⟩)
    (exists_eq_ok (by decide +kernel))

end Script
