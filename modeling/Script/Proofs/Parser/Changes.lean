import Script.Proofs.Parser.Formed

/-!
# `Proofs.Parser.Changes` — readings of a changed list of tokens

Where does a statement end? The parser looks past line feeds, so this is decided by tokens that
may be far behind the statement. A *change* of token lists (`Change`) leaves alone whatever the
parser looks at: after any line feeds the same token comes first, what follows `return` is of the
same kind, and where the tokens end nothing is put that a statement would take in.

What is read from a list of tokens is read from every change of it (`Reads.change`). Where more of
a statement has to follow a phrase, the tokens do not end there, so only phrases that may end a
statement meet what was put behind the end.
-/

namespace Script

/-- Kinds of tokens that a statement in front of them may take in. -/
def TokenKind.goesOn (kind : TokenKind) : Bool :=
  kind.absorbed || kind == .kwElif || kind == .kwElse

theorem ends_of_not_goesOn {kind : TokenKind} (h : kind.goesOn = false) :
    kind.opensSuffix = false ∧ ∀ n, kind ∉ tierOperators n := by
  simp only [TokenKind.goesOn, Bool.or_eq_false_iff] at h
  have habsorbed := h.1.1
  constructor
  · cases hsuffix : kind.opensSuffix with
    | false => rfl
    | true =>
        rw [absorbed_of_opensSuffix hsuffix] at habsorbed
        cases habsorbed
  · intro n hn
    rw [absorbed_of_mem_tierOperators hn] at habsorbed
    cases habsorbed

/-- Phrases that never end a statement: more of it follows. -/
def Phrase.isInner : Phrase → Bool
  | .loopVariables _ | .superClass _ | .members _ | .parameters _ _ | .parameterList _
  | .arguments _ _ _ | .argumentList _ _ | .entries _ | .component _ | .slice _ | .access _ => true
  | _ => false

/-- A change of token lists that leaves alone what the parser looks at. -/
structure Change (T : List Token → List Token → Prop) : Prop where
  /-- The same token comes first, and the change goes on behind it. -/
  token : ∀ {ts ts' t mid}, T ts ts' → afterFeeds ts = t :: mid →
    ∃ mid', afterFeeds ts' = t :: mid' ∧ T (t :: mid) (t :: mid') ∧ T mid mid'
      ∧ (t.kind = .kwReturn → mid ≠ [] → headKind mid' = headKind mid)
  /-- A line feed in front stays a line feed. -/
  feed : ∀ {t mid ts'}, T (t :: mid) ts' → t.kind = .newline →
    ∃ t' mid', ts' = t' :: mid' ∧ t'.kind = .newline ∧ T mid mid'
  /-- Behind the last token nothing is put that a statement would take in. -/
  last : ∀ {ts ts'}, T ts ts' → afterFeeds ts = [] → (nextKind ts').goesOn = false

/-! ## What is left behind a phrase -/

theorem Reads.feeds_ne_nil {l : Bool} {ts rest : List Token} {ph : Phrase} (h : Reads l ts ph rest)
    (hph : ph.least = 1) : afterFeeds ts ≠ [] := by
  induction h with
  | _ => simp_all [Phrase.least, Eats]

theorem Reads.feeds_ne_nil_of_rest {l : Bool} {ts rest : List Token} {ph : Phrase}
    (h : Reads l ts ph rest) (hrest : afterFeeds rest ≠ []) : afterFeeds ts ≠ [] := by
  induction h with
  | programEnd => exact absurd rfl hrest
  | _ => simp_all [Eats]

/-- Nothing is left behind a program. -/
theorem Reads.program_rest {l : Bool} {ts rest : List Token} {ss : List Stmt}
    (h : Reads l ts (.program ss) rest) : rest = [] := by
  induction ss generalizing ts with
  | nil =>
      cases h with
      | programEnd => rfl
  | cons s ss ih =>
      cases h with
      | programMore _ _ _ hss => exact ih hss

theorem ne_nil_of_feeds {ts : List Token} (h : afterFeeds ts ≠ []) : ts ≠ [] := by
  rintro rfl
  exact h rfl

/-- What has to be left behind a phrase: tokens, and not only line feeds if it is an inner one. -/
def Remains : Bool → List Token → Prop
  | true, rest => afterFeeds rest ≠ []
  | false, rest => rest ≠ []

namespace Remains

variable {inner : Bool} {l : Bool} {ts rest : List Token} {ph : Phrase} {t : Token} {k : TokenKind}

theorem of_feeds (h : afterFeeds rest ≠ []) : Remains inner rest := by
  cases inner with
  | true => exact h
  | false => exact ne_nil_of_feeds h

theorem of_eats (h : Eats k ts t rest) : Remains inner ts := of_feeds (by simp [h.1])

theorem ne_nil (h : Remains inner rest) : rest ≠ [] := by
  cases inner with
  | true => exact ne_nil_of_feeds h
  | false => exact h

/-- What is read next is left behind. -/
theorem of_reads (h : Reads l ts ph rest) (hrest : Remains false rest) : Remains false ts := by
  have hlength := h.length_le
  have hpos := List.length_pos_iff.mpr hrest
  exact List.length_pos_iff.mp (by omega)

end Remains

/-! ## What the parser looks at -/

namespace Change

variable {T : List Token → List Token → Prop} {ts ts' mid : List Token} {t : Token}
  {k : TokenKind}

theorem eats (hT : Change T) (hts : T ts ts') (h : Eats k ts t mid) :
    ∃ mid', Eats k ts' t mid' ∧ T mid mid' := by
  obtain ⟨mid', hfeeds, -, hmid, -⟩ := hT.token hts h.1
  exact ⟨mid', ⟨hfeeds, h.2⟩, hmid⟩

theorem feeds (hT : Change T) (hts : T ts ts') (h : afterFeeds ts ≠ []) :
    T (afterFeeds ts) (afterFeeds ts') := by
  obtain ⟨t, mid, hcons⟩ := List.exists_cons_of_ne_nil h
  obtain ⟨mid', hfeeds, hfront, -⟩ := hT.token hts hcons
  rwa [hcons, hfeeds]

theorem nextKind_eq (hT : Change T) (hts : T ts ts') (h : afterFeeds ts ≠ []) :
    nextKind ts' = nextKind ts := by
  obtain ⟨t, mid, hcons⟩ := List.exists_cons_of_ne_nil h
  obtain ⟨mid', hfeeds, -⟩ := hT.token hts hcons
  simp [nextKind, hcons, hfeeds, headKind]

theorem ne_nil (hT : Change T) (hts : T ts ts') (h : afterFeeds ts ≠ []) : afterFeeds ts' ≠ [] := by
  obtain ⟨t, mid, hcons⟩ := List.exists_cons_of_ne_nil h
  obtain ⟨mid', hfeeds, -⟩ := hT.token hts hcons
  simp [hfeeds]

/-- A token that was there is still there. -/
theorem hits (hT : Change T) (hts : T ts ts') (hfeeds : afterFeeds ts ≠ [])
    (h : nextKind ts = k) : nextKind ts' = k := by
  rwa [hT.nextKind_eq hts hfeeds]

/-- What holds of the next kind, and of all kinds that are not taken in, still holds of it. -/
theorem stays (hT : Change T) (hts : T ts ts') {P : TokenKind → Prop} (h : P (nextKind ts))
    (hP : ∀ kind, kind.goesOn = false → P kind) : P (nextKind ts') := by
  by_cases hfeeds : afterFeeds ts = []
  · exact hP _ (hT.last hts hfeeds)
  · rwa [hT.nextKind_eq hts hfeeds]

/-- A token that would be taken in and was not there is still not there. -/
theorem misses (hT : Change T) (hts : T ts ts') (hk : k.goesOn = true) (h : nextKind ts ≠ k) :
    nextKind ts' ≠ k := by
  refine hT.stays (P := (· ≠ k)) hts h ?_
  rintro kind hkind rfl
  rw [hkind] at hk
  cases hk

/-- A token that was not there before others is still not there. -/
theorem avoids (hT : Change T) (hts : T ts ts') (hfeeds : afterFeeds ts ≠ [])
    (h : nextKind ts ≠ k) : nextKind ts' ≠ k := by
  rwa [hT.nextKind_eq hts hfeeds]

theorem misses_suffix (hT : Change T) (hts : T ts ts') (h : (nextKind ts).opensSuffix = false) :
    (nextKind ts').opensSuffix = false :=
  hT.stays (P := (·.opensSuffix = false)) hts h fun _ hkind =>
    (ends_of_not_goesOn hkind).1

theorem misses_operators (hT : Change T) (hts : T ts ts') {n : Nat}
    (h : nextKind ts ∉ tierOperators n) : nextKind ts' ∉ tierOperators n :=
  hT.stays (P := (· ∉ tierOperators n)) hts h fun _ hkind => (ends_of_not_goesOn hkind).2 n

end Change

/-! ## Readings -/

variable {T : List Token → List Token → Prop}

/-- **What is read from tokens is read from a change of them.** The tokens that are left behind are
    changed in the same way. -/
theorem Reads.change (hT : Change T) {l : Bool} {ts rest ts' : List Token} {ph : Phrase}
    (h : Reads l ts ph rest) (hts : T ts ts') (hrest : Remains ph.isInner rest) :
    ∃ rest', Reads l ts' ph rest' ∧ T rest rest' := by
  induction h generalizing ts' with
  | programEnd => exact absurd rfl hrest
  | programMore _ _ _ hss _ _ => exact absurd hss.program_rest hrest
  -- blocks
  | blockEnd ht =>
      obtain ⟨_, ht', h₁⟩ := hT.eats hts ht
      exact ⟨_, .blockEnd ht', h₁⟩
  | blockMore hk hfeeds hs hss ihs ihss =>
      obtain ⟨_, hs', h₁⟩ := ihs (hT.feeds hts hfeeds) (.of_reads hss hrest)
      obtain ⟨_, hss', h₂⟩ := ihss h₁ hrest
      exact ⟨_, .blockMore (hT.avoids hts hfeeds hk) (hT.ne_nil hts hfeeds) hs' hss', h₂⟩
  | braced ht hss ihss =>
      obtain ⟨_, ht', h₁⟩ := hT.eats hts ht
      obtain ⟨_, hss', h₂⟩ := ihss h₁ hrest
      exact ⟨_, .braced ht' hss', h₂⟩
  -- statements
  | exprStmt hk he ihe =>
      obtain ⟨_, he', h₁⟩ := ihe hts hrest
      have hnext := hT.nextKind_eq hts (he.feeds_ne_nil rfl)
      exact ⟨_, .exprStmt (by rwa [hnext]) he', h₁⟩
  | classStmt ht htext ihtext =>
      obtain ⟨_, ht', h₁⟩ := hT.eats hts ht
      obtain ⟨_, htext', h₂⟩ := ihtext h₁ hrest
      exact ⟨_, .classStmt ht' htext', h₂⟩
  | functionStmt ht hf ihf =>
      obtain ⟨_, ht', h₁⟩ := hT.eats hts ht
      obtain ⟨_, hf', h₂⟩ := ihf h₁ hrest
      exact ⟨_, .functionStmt ht' hf', h₂⟩
  | letStmt ht hs ihs =>
      obtain ⟨_, ht', h₁⟩ := hT.eats hts ht
      obtain ⟨_, hs', h₂⟩ := ihs h₁ hrest
      exact ⟨_, .letStmt ht' hs', h₂⟩
  | forInStmt ht hk hnames hin he hs ihnames ihe ihs =>
      obtain ⟨_, ht', h₁⟩ := hT.eats hts ht
      have hfeeds := Remains.of_reads hnames (.of_eats hin)
      obtain ⟨_, hnames', h₂⟩ := ihnames (hT.feeds h₁ hfeeds) (.of_eats hin)
      obtain ⟨_, hin', h₃⟩ := hT.eats h₂ hin
      obtain ⟨_, he', h₄⟩ := ihe h₃ (.of_reads hs hrest)
      obtain ⟨_, hs', h₅⟩ := ihs h₄ hrest
      exact ⟨_, .forInStmt ht' (hT.hits h₁ hfeeds hk) hnames' hin' he' hs', h₅⟩
  | forStmt ht hk hi hc hsemicolon he hs ihi ihc ihe ihs =>
      obtain ⟨_, ht', h₁⟩ := hT.eats hts ht
      obtain ⟨_, hi', h₂⟩ := ihi h₁ (.of_reads hc (.of_eats hsemicolon))
      obtain ⟨_, hc', h₃⟩ := ihc h₂ (.of_eats hsemicolon)
      obtain ⟨_, hsemicolon', h₄⟩ := hT.eats h₃ hsemicolon
      obtain ⟨_, he', h₅⟩ := ihe h₄ (.of_reads hs hrest)
      obtain ⟨_, hs', h₆⟩ := ihs h₅ hrest
      have hk' := hT.avoids h₁ (hi.feeds_ne_nil rfl) hk
      exact ⟨_, .forStmt ht' hk' hi' hc' hsemicolon' he' hs', h₆⟩
  | tryStmt ht hs hcatch hname hs' ihs ihs' =>
      obtain ⟨_, ht', h₁⟩ := hT.eats hts ht
      obtain ⟨_, hbody, h₂⟩ := ihs h₁ (.of_eats hcatch)
      obtain ⟨_, hcatch', h₃⟩ := hT.eats h₂ hcatch
      obtain ⟨_, hname', h₄⟩ := hT.eats h₃ hname
      obtain ⟨_, hhandler, h₅⟩ := ihs' h₄ hrest
      exact ⟨_, .tryStmt ht' hbody hcatch' hname' hhandler, h₅⟩
  | ifStmt ht hc hss hbs hk ihc ihss ihbs =>
      obtain ⟨_, ht', h₁⟩ := hT.eats hts ht
      obtain ⟨_, hc', h₂⟩ := ihc h₁ (.of_reads hss (.of_reads hbs hrest))
      obtain ⟨_, hss', h₃⟩ := ihss h₂ (.of_reads hbs hrest)
      obtain ⟨_, hbs', h₄⟩ := ihbs h₃ hrest
      exact ⟨_, .ifStmt ht' hc' hss' hbs' (hT.misses h₄ rfl hk), h₄⟩
  | ifElseStmt ht hc hss hbs helse hss' ihc ihss ihbs ihss' =>
      obtain ⟨_, ht', h₁⟩ := hT.eats hts ht
      obtain ⟨_, hc', h₂⟩ := ihc h₁ (.of_reads hss (.of_reads hbs (.of_eats helse)))
      obtain ⟨_, hthen, h₃⟩ := ihss h₂ (.of_reads hbs (.of_eats helse))
      obtain ⟨_, hbs', h₄⟩ := ihbs h₃ (.of_eats helse)
      obtain ⟨_, helse', h₅⟩ := hT.eats h₄ helse
      obtain ⟨_, hotherwise, h₆⟩ := ihss' h₅ hrest
      exact ⟨_, .ifElseStmt ht' hc' hthen hbs' helse' hotherwise, h₆⟩
  | returnStmt ht hk =>
      obtain ⟨mid', hfeeds, -, h₁, hhead⟩ := hT.token hts ht.1
      refine ⟨_, .returnStmt ⟨hfeeds, ht.2⟩ ?_, h₁⟩
      rwa [hhead ht.2 hrest]
  | returnValueStmt ht hk he ihe =>
      have hmid := Remains.of_reads he hrest
      obtain ⟨mid', hfeeds, -, h₁, hhead⟩ := hT.token hts ht.1
      obtain ⟨_, he', h₂⟩ := ihe h₁ hrest
      refine ⟨_, .returnValueStmt ⟨hfeeds, ht.2⟩ ?_ he', h₂⟩
      rwa [hhead ht.2 hmid]
  | breakStmt ht =>
      obtain ⟨_, ht', h₁⟩ := hT.eats hts ht
      exact ⟨_, .breakStmt ht', h₁⟩
  | continueStmt ht =>
      obtain ⟨_, ht', h₁⟩ := hT.eats hts ht
      exact ⟨_, .continueStmt ht', h₁⟩
  | whileStmt ht hc hs ihc ihs =>
      obtain ⟨_, ht', h₁⟩ := hT.eats hts ht
      obtain ⟨_, hc', h₂⟩ := ihc h₁ (.of_reads hs hrest)
      obtain ⟨_, hs', h₃⟩ := ihs h₂ hrest
      exact ⟨_, .whileStmt ht' hc' hs', h₃⟩
  | blockStmt ht hss ihss =>
      obtain ⟨_, ht', h₁⟩ := hT.eats hts ht
      obtain ⟨_, hss', h₂⟩ := ihss h₁ hrest
      exact ⟨_, .blockStmt ht' hss', h₂⟩
  -- parts of statements
  | binding hname ht he ihe =>
      obtain ⟨_, hname', h₁⟩ := hT.eats hts hname
      obtain ⟨_, ht', h₂⟩ := hT.eats h₁ ht
      obtain ⟨_, he', h₃⟩ := ihe h₂ hrest
      exact ⟨_, .binding hname' ht' he', h₃⟩
  | bindingBare hname hk =>
      obtain ⟨_, hname', h₁⟩ := hT.eats hts hname
      exact ⟨_, .bindingBare hname' (hT.misses h₁ rfl hk), h₁⟩
  | initializerNone ht =>
      obtain ⟨_, ht', h₁⟩ := hT.eats hts ht
      exact ⟨_, .initializerNone ht', h₁⟩
  | initializerLet ht hs hsemicolon ihs =>
      obtain ⟨_, ht', h₁⟩ := hT.eats hts ht
      obtain ⟨_, hs', h₂⟩ := ihs h₁ (.of_eats hsemicolon)
      obtain ⟨_, hsemicolon', h₃⟩ := hT.eats h₂ hsemicolon
      exact ⟨_, .initializerLet ht' hs' hsemicolon', h₃⟩
  | loopVariablesEnd hk =>
      exact ⟨_, .loopVariablesEnd (hT.avoids hts hrest hk), hts⟩
  | loopVariablesMore hname hk hnames ihnames =>
      obtain ⟨_, hname', h₁⟩ := hT.eats hts hname
      obtain ⟨_, hnames', h₂⟩ := ihnames h₁ hrest
      have hk' := hT.avoids h₁ (hnames.feeds_ne_nil_of_rest hrest) hk
      exact ⟨_, .loopVariablesMore hname' hk' hnames', h₂⟩
  | loopVariablesComma hname hcomma hnames ihnames =>
      obtain ⟨_, hname', h₁⟩ := hT.eats hts hname
      obtain ⟨_, hcomma', h₂⟩ := hT.eats h₁ hcomma
      obtain ⟨_, hnames', h₃⟩ := ihnames h₂ hrest
      exact ⟨_, .loopVariablesComma hname' hcomma' hnames', h₃⟩
  | elifsEnd hk => exact ⟨_, .elifsEnd (hT.misses hts rfl hk), hts⟩
  | elifsMore ht hc hss hbs ihc ihss ihbs =>
      obtain ⟨_, ht', h₁⟩ := hT.eats hts ht
      obtain ⟨_, hc', h₂⟩ := ihc h₁ (.of_reads hss (.of_reads hbs hrest))
      obtain ⟨_, hss', h₃⟩ := ihss h₂ (.of_reads hbs hrest)
      obtain ⟨_, hbs', h₄⟩ := ihbs h₃ hrest
      exact ⟨_, .elifsMore ht' hc' hss' hbs', h₄⟩
  -- classes
  | superClassNone hk => exact ⟨_, .superClassNone (hT.avoids hts hrest hk), hts⟩
  | superClass ht hname =>
      obtain ⟨_, ht', h₁⟩ := hT.eats hts ht
      obtain ⟨_, hname', h₂⟩ := hT.eats h₁ hname
      exact ⟨_, .superClass ht' hname', h₂⟩
  | membersEnd hk =>
      exact ⟨_, .membersEnd (hT.hits hts hrest.ne_nil hk), hT.feeds hts hrest.ne_nil⟩
  | membersMissing => exact absurd rfl hrest
  | membersMethod hk hne hk' hf hms ihf ihms =>
      have hfeeds := hf.feeds_ne_nil rfl
      obtain ⟨_, hf', h₁⟩ := ihf hts (.of_reads hms hrest.ne_nil)
      obtain ⟨_, hms', h₂⟩ := ihms h₁ hrest
      have hne' := ne_nil_of_feeds (hT.ne_nil hts hfeeds)
      have hbrace := hT.avoids hts hfeeds hk
      exact ⟨_, .membersMethod hbrace hne' (hT.avoids hts hfeeds hk') hf' hms', h₂⟩
  | membersStatic ht hf hms ihf ihms =>
      obtain ⟨_, ht', h₁⟩ := hT.eats hts ht
      obtain ⟨_, hf', h₂⟩ := ihf h₁ (.of_reads hms hrest.ne_nil)
      obtain ⟨_, hms', h₃⟩ := ihms h₂ hrest
      exact ⟨_, .membersStatic ht' hf' hms', h₃⟩
  | classText hname hsuper hopening hms hclosing ihsuper ihms =>
      obtain ⟨_, hname', h₁⟩ := hT.eats hts hname
      obtain ⟨_, hsuper', h₂⟩ := ihsuper h₁ (.of_eats hopening)
      obtain ⟨_, hopening', h₃⟩ := hT.eats h₂ hopening
      obtain ⟨_, hms', h₄⟩ := ihms h₃ (.of_eats hclosing)
      obtain ⟨_, hclosing', h₅⟩ := hT.eats h₄ hclosing
      exact ⟨_, .classText hname' hsuper' hopening' hms' hclosing', h₅⟩
  -- functions
  | named hname hf hfunction ihfunction =>
      obtain ⟨_, hname', h₁⟩ := hT.eats hts hname
      obtain ⟨_, hfunction', h₂⟩ := ihfunction h₁ hrest
      exact ⟨_, .named hname' hf hfunction', h₂⟩
  | function hopening hps hclosing hb ihps ihb =>
      obtain ⟨_, hopening', h₁⟩ := hT.eats hts hopening
      obtain ⟨_, hps', h₂⟩ := ihps h₁ (.of_eats hclosing)
      obtain ⟨_, hclosing', h₃⟩ := hT.eats h₂ hclosing
      obtain ⟨_, hb', h₄⟩ := ihb h₃ hrest
      exact ⟨_, .function hopening' hps' hclosing' hb', h₄⟩
  | parametersLast hn hname hk =>
      obtain ⟨_, hname', h₁⟩ := hT.eats hts hname
      exact ⟨_, .parametersLast hn hname' (hT.avoids h₁ hrest hk), h₁⟩
  | parametersMore hn hname hcomma hps ihps =>
      obtain ⟨_, hname', h₁⟩ := hT.eats hts hname
      obtain ⟨_, hcomma', h₂⟩ := hT.eats h₁ hcomma
      obtain ⟨_, hps', h₃⟩ := ihps h₂ hrest
      exact ⟨_, .parametersMore hn hname' hcomma' hps', h₃⟩
  | parameterListNone hk =>
      exact ⟨_, .parameterListNone (hT.hits hts hrest.ne_nil hk), hT.feeds hts hrest.ne_nil⟩
  | parameterList hk hps ihps =>
      obtain ⟨_, hps', h₁⟩ := ihps hts hrest
      exact ⟨_, .parameterList (hT.avoids hts (hps.feeds_ne_nil rfl) hk) hps', h₁⟩
  | bodyBlock ht hss ihss =>
      obtain ⟨_, ht', h₁⟩ := hT.eats hts ht
      obtain ⟨_, hss', h₂⟩ := ihss h₁ hrest
      exact ⟨_, .bodyBlock ht' hss', h₂⟩
  | bodyExpr hk he ihe =>
      obtain ⟨_, he', h₁⟩ := ihe hts hrest
      exact ⟨_, .bodyExpr (hT.avoids hts (he.feeds_ne_nil rfl) hk) he', h₁⟩
  -- expressions
  | exprTier he hk ihe =>
      obtain ⟨_, he', h₁⟩ := ihe hts hrest
      exact ⟨_, .exprTier he' (hT.misses h₁ rfl hk), h₁⟩
  | exprAssign htarget ht hvalue he ihtarget ihvalue =>
      obtain ⟨_, htarget', h₁⟩ := ihtarget hts (.of_eats ht)
      obtain ⟨_, ht', h₂⟩ := hT.eats h₁ ht
      obtain ⟨_, hvalue', h₃⟩ := ihvalue h₂ hrest
      exact ⟨_, .exprAssign htarget' ht' hvalue' he, h₃⟩
  | tierChain hleft he ihleft ihe =>
      obtain ⟨_, hleft', h₁⟩ := ihleft hts (.of_reads he hrest)
      obtain ⟨_, he', h₂⟩ := ihe h₁ hrest
      exact ⟨_, .tierChain hleft' he', h₂⟩
  | operandsEnd hk => exact ⟨_, .operandsEnd (hT.misses_operators hts hk), hts⟩
  | operandsMore hop hmem hright he ihright ihe =>
      obtain ⟨_, hop', h₁⟩ := hT.eats hts hop
      obtain ⟨_, hright', h₂⟩ := ihright h₁ (.of_reads he hrest)
      obtain ⟨_, he', h₃⟩ := ihe h₂ hrest
      exact ⟨_, .operandsMore hop' hmem hright' he', h₃⟩
  | tierUnary hop hkind he ihe =>
      obtain ⟨_, hop', h₁⟩ := hT.eats hts hop
      obtain ⟨_, he', h₂⟩ := ihe h₁ hrest
      exact ⟨_, .tierUnary hop' hkind he', h₂⟩
  | tierCall hnot hminus hprimary he ihprimary ihe =>
      have hfeeds := hprimary.feeds_ne_nil rfl
      obtain ⟨_, hprimary', h₁⟩ := ihprimary hts (.of_reads he hrest)
      obtain ⟨_, he', h₂⟩ := ihe h₁ hrest
      have hnot' := hT.avoids hts hfeeds hnot
      exact ⟨_, .tierCall hnot' (hT.avoids hts hfeeds hminus) hprimary' he', h₂⟩
  | suffixesEnd hk => exact ⟨_, .suffixesEnd (hT.misses_suffix hts hk), hts⟩
  | suffixesCall ht hargs hclosing he ihargs ihe =>
      obtain ⟨_, ht', h₁⟩ := hT.eats hts ht
      obtain ⟨_, hargs', h₂⟩ := ihargs h₁ (.of_eats hclosing)
      obtain ⟨_, hclosing', h₃⟩ := hT.eats h₂ hclosing
      obtain ⟨_, he', h₄⟩ := ihe h₃ hrest
      exact ⟨_, .suffixesCall ht' hargs' hclosing' he', h₄⟩
  | suffixesGet ht hname he ihe =>
      obtain ⟨_, ht', h₁⟩ := hT.eats hts ht
      obtain ⟨_, hname', h₂⟩ := hT.eats h₁ hname
      obtain ⟨_, he', h₃⟩ := ihe h₂ hrest
      exact ⟨_, .suffixesGet ht' hname' he', h₃⟩
  | suffixesAccess ht hobject hbracket ha hclosing he iha ihe =>
      obtain ⟨_, ht', h₁⟩ := hT.eats hts ht
      obtain ⟨_, ha', h₂⟩ := iha h₁ (.of_eats hclosing)
      obtain ⟨_, hclosing', h₃⟩ := hT.eats h₂ hclosing
      obtain ⟨_, he', h₄⟩ := ihe h₃ hrest
      exact ⟨_, .suffixesAccess ht' hobject hbracket ha' hclosing' he', h₄⟩
  -- operands
  | primaryConstant ht hc =>
      obtain ⟨_, ht', h₁⟩ := hT.eats hts ht
      exact ⟨_, .primaryConstant ht' hc, h₁⟩
  | primaryVar ht =>
      obtain ⟨_, ht', h₁⟩ := hT.eats hts ht
      exact ⟨_, .primaryVar ht', h₁⟩
  | primaryThis ht =>
      obtain ⟨_, ht', h₁⟩ := hT.eats hts ht
      exact ⟨_, .primaryThis ht', h₁⟩
  | primaryGrouping ht he hclosing ihe =>
      obtain ⟨_, ht', h₁⟩ := hT.eats hts ht
      obtain ⟨_, he', h₂⟩ := ihe h₁ (.of_eats hclosing)
      obtain ⟨_, hclosing', h₃⟩ := hT.eats h₂ hclosing
      exact ⟨_, .primaryGrouping ht' he' hclosing', h₃⟩
  | primaryList ht hes hclosing ihes =>
      obtain ⟨_, ht', h₁⟩ := hT.eats hts ht
      obtain ⟨_, hes', h₂⟩ := ihes h₁ (.of_eats hclosing)
      obtain ⟨_, hclosing', h₃⟩ := hT.eats h₂ hclosing
      exact ⟨_, .primaryList ht' hes' hclosing', h₃⟩
  | primaryDict ht hkvs hclosing ihkvs =>
      obtain ⟨_, ht', h₁⟩ := hT.eats hts ht
      obtain ⟨_, hkvs', h₂⟩ := ihkvs h₁ (.of_eats hclosing)
      obtain ⟨_, hclosing', h₃⟩ := hT.eats h₂ hclosing
      exact ⟨_, .primaryDict ht' hkvs' hclosing', h₃⟩
  | primaryFunction ht hf hfunction ihfunction =>
      obtain ⟨_, ht', h₁⟩ := hT.eats hts ht
      obtain ⟨_, hfunction', h₂⟩ := ihfunction h₁ hrest
      exact ⟨_, .primaryFunction ht' hf hfunction', h₂⟩
  | primarySuper ht hdot hname =>
      obtain ⟨_, ht', h₁⟩ := hT.eats hts ht
      obtain ⟨_, hdot', h₂⟩ := hT.eats h₁ hdot
      obtain ⟨_, hname', h₃⟩ := hT.eats h₂ hname
      exact ⟨_, .primarySuper ht' hdot' hname', h₃⟩
  | primarySuperInit ht hk =>
      obtain ⟨_, ht', h₁⟩ := hT.eats hts ht
      exact ⟨_, .primarySuperInit ht' (hT.hits h₁ hrest hk), hT.feeds h₁ hrest⟩
  -- lists of expressions
  | argumentsLast hn he hk ihe =>
      obtain ⟨_, he', h₁⟩ := ihe hts hrest.ne_nil
      exact ⟨_, .argumentsLast hn he' (hT.avoids h₁ hrest hk), h₁⟩
  | argumentsTrailing hn he hcomma hk ihe =>
      obtain ⟨_, he', h₁⟩ := ihe hts (.of_eats hcomma)
      obtain ⟨_, hcomma', h₂⟩ := hT.eats h₁ hcomma
      have hk' := hT.hits h₂ hrest.ne_nil hk
      exact ⟨_, .argumentsTrailing hn he' hcomma' hk', hT.feeds h₂ hrest.ne_nil⟩
  | argumentsMore hn he hcomma hk hes ihe ihes =>
      obtain ⟨_, he', h₁⟩ := ihe hts (.of_eats hcomma)
      obtain ⟨_, hcomma', h₂⟩ := hT.eats h₁ hcomma
      obtain ⟨_, hes', h₃⟩ := ihes h₂ hrest
      have hk' := hT.avoids h₂ (hes.feeds_ne_nil rfl) hk
      exact ⟨_, .argumentsMore hn he' hcomma' hk' hes', h₃⟩
  | argumentListNone hk =>
      exact ⟨_, .argumentListNone (hT.hits hts hrest.ne_nil hk), hT.feeds hts hrest.ne_nil⟩
  | argumentList hk hes ihes =>
      obtain ⟨_, hes', h₁⟩ := ihes hts hrest
      exact ⟨_, .argumentList (hT.avoids hts (hes.feeds_ne_nil rfl) hk) hes', h₁⟩
  | entriesEnd hk =>
      exact ⟨_, .entriesEnd (hT.hits hts hrest.ne_nil hk), hT.feeds hts hrest.ne_nil⟩
  | entriesLast hk hkey hcolon hvalue hcomma ihkey ihvalue =>
      obtain ⟨_, hkey', h₁⟩ := ihkey hts (.of_eats hcolon)
      obtain ⟨_, hcolon', h₂⟩ := hT.eats h₁ hcolon
      obtain ⟨_, hvalue', h₃⟩ := ihvalue h₂ hrest.ne_nil
      have hk' := hT.avoids hts (hkey.feeds_ne_nil rfl) hk
      exact ⟨_, .entriesLast hk' hkey' hcolon' hvalue' (hT.avoids h₃ hrest hcomma), h₃⟩
  | entriesMore hk hkey hcolon hvalue hcomma hkvs ihkey ihvalue ihkvs =>
      obtain ⟨_, hkey', h₁⟩ := ihkey hts (.of_eats hcolon)
      obtain ⟨_, hcolon', h₂⟩ := hT.eats h₁ hcolon
      obtain ⟨_, hvalue', h₃⟩ := ihvalue h₂ (.of_eats hcomma)
      obtain ⟨_, hcomma', h₄⟩ := hT.eats h₃ hcomma
      obtain ⟨_, hkvs', h₅⟩ := ihkvs h₄ hrest
      have hk' := hT.avoids hts (hkey.feeds_ne_nil rfl) hk
      exact ⟨_, .entriesMore hk' hkey' hcolon' hvalue' hcomma' hkvs', h₅⟩
  -- indices and slices
  | componentNone hk =>
      have hfeeds := hrest.ne_nil
      exact ⟨_, .componentNone (by rwa [hT.nextKind_eq hts hfeeds]), hT.feeds hts hfeeds⟩
  | componentMissing => exact absurd rfl hrest
  | component hcolon hbracket hne he ihe =>
      have hfeeds := he.feeds_ne_nil rfl
      obtain ⟨_, he', h₁⟩ := ihe hts hrest.ne_nil
      have hne' := ne_nil_of_feeds (hT.ne_nil hts hfeeds)
      have hcolon' := hT.avoids hts hfeeds hcolon
      exact ⟨_, .component hcolon' (hT.avoids hts hfeeds hbracket) hne' he', h₁⟩
  | slice hsecond hcolon hthird ihsecond ihthird =>
      obtain ⟨_, hsecond', h₁⟩ := ihsecond hts (.of_eats hcolon)
      obtain ⟨_, hcolon', h₂⟩ := hT.eats h₁ hcolon
      obtain ⟨_, hthird', h₃⟩ := ihthird h₂ hrest
      exact ⟨_, .slice hsecond' hcolon' hthird', h₃⟩
  | sliceShort hsecond hk ihsecond =>
      obtain ⟨_, hsecond', h₁⟩ := ihsecond hts hrest
      exact ⟨_, .sliceShort hsecond' (hT.avoids h₁ hrest hk), h₁⟩
  | accessSlice hcolon hfirst hfirstColon ha iha =>
      obtain ⟨_, hcolon', h₁⟩ := hT.eats hts hcolon
      obtain ⟨_, ha', h₂⟩ := iha h₁ hrest
      exact ⟨_, .accessSlice hcolon' hfirst hfirstColon ha', h₂⟩
  | accessFirstSlice hk he hcolon hfirst hfirstColon ha ihe iha =>
      obtain ⟨_, he', h₁⟩ := ihe hts (.of_eats hcolon)
      obtain ⟨_, hcolon', h₂⟩ := hT.eats h₁ hcolon
      obtain ⟨_, ha', h₃⟩ := iha h₂ hrest
      have hk' := hT.avoids hts (he.feeds_ne_nil rfl) hk
      exact ⟨_, .accessFirstSlice hk' he' hcolon' hfirst hfirstColon ha', h₃⟩
  | accessIndex hk he hcolon ihe =>
      obtain ⟨_, he', h₁⟩ := ihe hts hrest.ne_nil
      have hk' := hT.avoids hts (he.feeds_ne_nil rfl) hk
      exact ⟨_, .accessIndex hk' he' (hT.avoids h₁ hrest hcolon), h₁⟩

/-- Where a program ends, a change may go on with more statements. -/
theorem Reads.program_change (hT : Change T) {l : Bool} {ts ts' : List Token}
    {program more : List Stmt} (h : Reads l ts (.program program) []) (hts : T ts ts')
    (hmore : ∀ {ts ts'}, T ts ts' → afterFeeds ts = [] → Reads l ts' (.program more) []) :
    Reads l ts' (.program (program ++ more)) [] := by
  induction program generalizing ts ts' with
  | nil =>
      cases h with
      | programEnd hend => exact hmore hts hend
  | cons s program ih =>
      cases h with
      | programMore hfeeds hs hfeed hprogram =>
          obtain ⟨rest, hs', hrest⟩ := hs.change hT (hT.feeds hts hfeeds) (List.cons_ne_nil _ _)
          obtain ⟨feed', mid', rfl, hfeed', hmid⟩ := hT.feed hrest hfeed
          exact .programMore (hT.ne_nil hts hfeeds) hs' hfeed' (ih hprogram hmid)

end Script
