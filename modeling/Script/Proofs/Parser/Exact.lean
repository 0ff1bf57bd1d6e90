import Script.Parser.Cursor
import Script.Proofs.Parser.Reads

/-!
# `Proofs.Parser.Exact` — parsers and the relations they decide

A parser that succeeds moves the cursor, keeps what is open around it, and at most adds reports.
`Exact d p R` says so of `p`, and that on fewer than `d` tokens the successes of `p` without a
report are exactly the relation `R`. The bound is there because productions nest and repeat: a
parser that is built over some levels, and goes some rounds, is complete on short lists only.

There is a rule for each way in which the productions are put together. The relation of a composite
parser is composed in the same way, so that a production is compared with the rules of the grammar
without opening the parser monad again.
-/

namespace Script

open TokenReader

/-- What is read: inside a loop or not, from some tokens, a value, with the tokens after it. -/
abbrev Reading (α : Type) := Bool → List Token → α → List Token → Prop

variable {α β : Type} {d e : Nat} {p q : ParseM α} {f : α → ParseM β} {R R' R₁ R₂ : Reading α}
  {S : α → Reading β} {k : TokenKind} {fault : ParserFault}

/-! ## Tokens in front -/

theorem afterFeeds_length_le (ts : List Token) : (afterFeeds ts).length ≤ ts.length :=
  (List.dropWhile_suffix _).length_le

@[simp] theorem afterFeeds_afterFeeds (ts : List Token) :
    afterFeeds (afterFeeds ts) = afterFeeds ts := by
  unfold afterFeeds
  induction ts with
  | nil => rfl
  | cons t ts ih =>
      rw [List.dropWhile_cons]
      split
      · exact ih
      · rename_i hk
        rw [List.dropWhile_cons, if_neg hk]

theorem afterFeeds_newline {t : Token} {ts : List Token} (h : t.kind = .newline) :
    afterFeeds (t :: ts) = afterFeeds ts := by
  simp [afterFeeds, h]

@[simp] theorem nextKind_afterFeeds (ts : List Token) : nextKind (afterFeeds ts) = nextKind ts := by
  simp [nextKind]

@[simp] theorem eats_afterFeeds {ts rest : List Token} {t : Token} :
    Eats k (afterFeeds ts) t rest ↔ Eats k ts t rest := by
  simp [Eats]

theorem Eats.nextKind {ts rest : List Token} {t : Token} (h : Eats k ts t rest) :
    nextKind ts = k := by
  rw [Script.nextKind, h.1]
  exact h.2

/-- To ask something of the kind of the next token, if there is one, is to ask it of `nextKind`,
    provided that it holds at the end. -/
theorem forall_next {Q : TokenKind → Prop} {ts : List Token} (heof : Q .eof) :
    (∀ t mid, afterFeeds ts = t :: mid → Q t.kind) ↔ Q (nextKind ts) := by
  unfold nextKind
  cases afterFeeds ts with
  | nil => simpa [headKind] using heof
  | cons t mid => simp [headKind]

/-- If no line feed stands in front, the token that is taken is the first one. -/
theorem eats_cons {t t' : Token} {mid rest : List Token} (ht : t.kind ≠ .newline) :
    Eats k (t :: mid) t' rest ↔ t = t' ∧ mid = rest ∧ t.kind = k := by
  rw [Eats, afterFeeds, List.dropWhile_cons_of_neg (by simpa using ht), List.cons.injEq]
  constructor
  · rintro ⟨⟨rfl, rfl⟩, hk⟩
    exact ⟨rfl, rfl, hk⟩
  · rintro ⟨rfl, rfl, hk⟩
    exact ⟨⟨rfl, rfl⟩, hk⟩

/-- To take a token is to have fewer. -/
theorem Eats.length_lt {ts rest : List Token} {t : Token} (h : Eats k ts t rest) :
    rest.length < ts.length := by
  have := afterFeeds_length_le ts
  rw [h.1, List.length_cons] at this
  omega

/-- One phrase after another. -/
def Reading.andThen (R : Reading α) (S : α → Reading β) : Reading β := fun l ts b rest =>
  ∃ a mid, R l ts a mid ∧ S a l mid b rest

/-- The parser keeps the cursor but for the tokens it reads and the faults it reports. -/
def ParseM.Moves (p : ParseM α) : Prop :=
  ∀ {c a c'}, p c = .ok a c' →
    ∃ rest reports, c' = { c with rest, reported := c.reported ++ reports }

/-- On fewer than `d` tokens the parser succeeds without a report exactly as the relation says. -/
structure Exact (d : Nat) (p : ParseM α) (R : Reading α) : Prop where
  moves : p.Moves
  reads : ∀ {c a r}, c.stack.frames ≠ [] → c.rest.length < d →
    (p c = .ok a { c with rest := r } ↔ R c.stack.insideLoop c.rest a r)

namespace Exact

theorem mono (h : Exact d p R) (hd : e ≤ d) : Exact e p R :=
  ⟨h.moves, fun hs hc => h.reads hs (Nat.lt_of_lt_of_le hc hd)⟩

/-- The relation only matters on lists that are short enough. -/
theorem congr (h : Exact d p R)
    (heq : ∀ {l ts a rest}, ts.length < d → (R l ts a rest ↔ R' l ts a rest)) : Exact d p R' :=
  ⟨h.moves, fun hs hc => (h.reads hs hc).trans (heq hc)⟩

/-! ## Sequences -/

/-- Nothing is read, and the value is the given one. The relation says both. -/
theorem pure (a : α) : Exact d (pure a) (fun _ ts b rest => b = a ∧ rest = ts) where
  moves := by
    intro c b c' hrun
    obtain ⟨rfl, rfl⟩ : a = b ∧ c = c' := by simpa [Pure.pure, EStateM.pure] using hrun
    exact ⟨c.rest, [], by simp⟩
  reads := by
    intro c b rest _ _
    constructor
    · intro hrun
      obtain ⟨rfl, hc⟩ : a = b ∧ c = { c with rest } := by
        simpa [Pure.pure, EStateM.pure] using hrun
      exact ⟨rfl, by rw [hc]⟩
    · rintro ⟨rfl, rfl⟩
      rfl

/-- A parser without a success decides the empty relation. -/
theorem never (hrun : ∀ c a c', p c ≠ .ok a c') : Exact d p (fun _ _ _ _ => False) where
  moves := fun h => absurd h (hrun _ _ _)
  reads := fun _ _ => ⟨fun h => absurd h (hrun _ _ _), False.elim⟩

theorem fail (fault : ParserFault) : Exact d (ParseM.fail fault : ParseM α) fun _ _ _ _ => False :=
  never fun _ _ _ h => by cases h

theorem fail_bind (fault : ParserFault) (f : α → ParseM β) :
    Exact d (ParseM.fail fault >>= f) (fun _ _ _ _ => False) :=
  never fun _ _ _ h => by cases h

/-- With no bound left there is no list that is short enough. -/
theorem exhausted : Exact 0 (TokenReader.exhausted : ParseM α) R :=
  (Exact.fail _).congr fun h => absurd h (Nat.not_lt_zero _)

theorem raise (e : ParserError) : Exact d (TokenReader.raise e : ParseM α) fun _ _ _ _ => False :=
  never fun _ _ _ h => by cases h

/-- A sequence succeeds exactly if its first part does and then its second part from where the first
    one stopped. -/
theorem bind_ok {c : Cursor} {b : β} {c' : Cursor} :
    (p >>= f) c = .ok b c' ↔ ∃ a c₁, p c = .ok a c₁ ∧ f a c₁ = .ok b c' := by
  show EStateM.bind p f c = _ ↔ _
  unfold EStateM.bind
  cases h : p c with
  | ok a c₁ =>
      constructor
      · exact fun hrun => ⟨a, c₁, rfl, hrun⟩
      · rintro ⟨_, _, heq, hrun⟩
        cases heq
        exact hrun
  | error e c₁ => simp

/-- A report that came first is still there in the end. So a run without one has two parts without
    one. -/
theorem bind (hp : Exact d p R)
    (hlen : ∀ {l ts a mid}, R l ts a mid → ts.length < d → mid.length < e)
    (hf : ∀ a, Exact e (f a) (S a)) : Exact d (p >>= f) (R.andThen S) where
  moves := by
    intro c b c' hrun
    obtain ⟨a, c₁, h₁, h₂⟩ := bind_ok.mp hrun
    obtain ⟨mid, reports, rfl⟩ := hp.moves h₁
    obtain ⟨rest, more, rfl⟩ := (hf a).moves h₂
    exact ⟨rest, reports ++ more, by simp⟩
  reads := by
    intro c b rest hs hc
    rw [bind_ok]
    constructor
    · rintro ⟨a, c₁, h₁, h₂⟩
      obtain ⟨mid, reports, rfl⟩ := hp.moves h₁
      obtain ⟨_, more, hmore⟩ := (hf a).moves h₂
      obtain rfl : reports = [] := by
        have := congrArg (List.length ∘ Cursor.reported) hmore
        simp only [Function.comp_apply, List.length_append] at this
        exact List.length_eq_zero_iff.mp (by omega)
      simp only [List.append_nil] at h₁ h₂
      have hmid := (hp.reads hs hc).mp h₁
      have hrest := (hf a).reads (c := { c with rest := mid }) (a := b) (r := rest) hs
        (hlen hmid hc)
      exact ⟨a, mid, hmid, hrest.mp h₂⟩
    · rintro ⟨a, mid, hR, hS⟩
      refine ⟨a, { c with rest := mid }, (hp.reads hs hc).mpr hR, ?_⟩
      exact ((hf a).reads (c := { c with rest := mid }) hs (hlen hR hc)).mpr hS

/-- A value made from what is read. -/
theorem map (h : Exact d p R) (f : α → β) :
    Exact d (p >>= fun a => Pure.pure (f a)) (fun l ts b rest => ∃ a, R l ts a rest ∧ b = f a)
    where
  moves := by
    intro c b c' hrun
    obtain ⟨a, c₁, h₁, h₂⟩ := bind_ok.mp hrun
    obtain ⟨rfl, rfl⟩ : f a = b ∧ c₁ = c' := by simpa [Pure.pure, EStateM.pure] using h₂
    exact h.moves h₁
  reads := by
    intro c b rest hs hc
    rw [bind_ok]
    constructor
    · rintro ⟨a, c₁, h₁, h₂⟩
      obtain ⟨rfl, rfl⟩ : f a = b ∧ c₁ = { c with rest } := by
        simpa [Pure.pure, EStateM.pure] using h₂
      exact ⟨a, (h.reads hs hc).mp h₁, rfl⟩
    · rintro ⟨a, hR, rfl⟩
      exact ⟨a, { c with rest }, (h.reads hs hc).mpr hR, rfl⟩

/-! ## Reading tokens -/

/-- What looks past line feeds either takes a token, and then reads less, or stays. -/
theorem dispatch {accept : Token → Option (ParseM α)} {T : Token → Reading α}
    (hd : d ≤ e + 1) (haccept : ∀ t p, accept t = some p → Exact e p (T t)) (hq : Exact d q R) :
    Exact d (ParseM.dispatch accept q) (fun l ts a rest =>
      (∃ t mid, afterFeeds ts = t :: mid ∧ (accept t).isSome ∧ T t l mid a rest)
        ∨ (∀ t mid, afterFeeds ts = t :: mid → accept t = none) ∧ R l ts a rest) where
  moves := by
    intro c a c' hrun
    unfold ParseM.dispatch at hrun
    split at hrun
    · rename_i t mid hfeeds
      split at hrun
      · rename_i p hp
        obtain ⟨rest, reports, rfl⟩ := (haccept t p hp).moves hrun
        exact ⟨rest, reports, rfl⟩
      · exact hq.moves hrun
    · exact hq.moves hrun
  reads := by
    intro c a rest hs hc
    unfold ParseM.dispatch
    split
    · rename_i t mid hfeeds
      change afterFeeds c.rest = t :: mid at hfeeds
      -- One token fewer is left, so the parser behind it may have one level less.
      have hmid : mid.length < e := by
        have := afterFeeds_length_le c.rest
        rw [hfeeds, List.length_cons] at this
        omega
      split
      · rename_i p hp
        rw [(haccept t p hp).reads (c := { c with rest := mid }) hs hmid]
        constructor
        · exact fun h => .inl ⟨t, mid, hfeeds, by simp [hp], h⟩
        · rintro (⟨t', mie, heq, _, h⟩ | ⟨hnone, _⟩)
          · cases hfeeds.symm.trans heq
            exact h
          · rw [hnone t mid hfeeds] at hp
            cases hp
      · rename_i hnone
        rw [hq.reads hs hc]
        simp [hfeeds, hnone]
    · rename_i hfeeds
      change afterFeeds c.rest = [] at hfeeds
      rw [hq.reads hs hc]
      simp [hfeeds]

/-- The expected token is taken, or there is no success. -/
theorem expect : Exact d (TokenReader.expect k fault) (fun _ ts t mid => Eats k ts t mid) := by
  refine (Exact.dispatch (T := fun t _ ts t' rest => t' = t ∧ rest = ts ∧ t.kind = k)
    (Nat.le_succ d) ?_ (Exact.fail fault)).congr ?_
  · intro t p hp
    split at hp
    · rename_i hk
      cases hp
      exact (Exact.pure t).congr (by simp [hk])
    · cases hp
  · intro l ts t rest _
    simp only [Option.isSome_ite, and_false, or_false]
    constructor
    · rintro ⟨_, _, hfeeds, hk, rfl, rfl, _⟩
      exact ⟨hfeeds, hk⟩
    · rintro ⟨hfeeds, hk⟩
      exact ⟨t, rest, hfeeds, hk, rfl, rfl, hk⟩

/-- Behind a token that is read there is one token less. -/
theorem expect_bind_succ {f : Token → ParseM β} {S : Token → Reading β}
    (hf : ∀ t, Exact d (f t) (S t)) :
    Exact (d + 1) (TokenReader.expect k fault >>= f)
      (fun l ts b rest => ∃ t mid, Eats k ts t mid ∧ S t l mid b rest) :=
  Exact.bind expect (fun h hts => by have := Eats.length_lt h; omega) hf

/-- What follows an expected token is read from the tokens behind it. -/
theorem expect_bind {f : Token → ParseM β} {S : Token → Reading β}
    (hf : ∀ t, Exact d (f t) (S t)) :
    Exact d (TokenReader.expect k fault >>= f)
      (fun l ts b rest => ∃ t mid, Eats k ts t mid ∧ S t l mid b rest) :=
  (expect_bind_succ hf).mono (Nat.le_succ d)

/-- What follows a choice may be taken into the choice, so that each way can be looked at alone. -/
theorem dispatch_bind (accept : Token → Option (ParseM α)) :
    (TokenReader.dispatch accept q >>= f)
      = TokenReader.dispatch (fun t => (accept t).map (· >>= f)) (q >>= f) := by
  funext c
  show EStateM.bind (ParseM.dispatch accept q) f c = ParseM.dispatch _ _ c
  cases hfeeds : c.pastNewlines with
  | nil =>
      simp only [ParseM.dispatch, EStateM.bind, hfeeds]
      rfl
  | cons t rest =>
      simp only [ParseM.dispatch, EStateM.bind, hfeeds]
      cases accept t <;> rfl

/-- A token of one of some kinds may be there. Behind it one token less is left, so a smaller bound
    is enough. -/
theorem eatAny_bind {kinds : List TokenKind} {f : Option Token → ParseM β} {S : Token → Reading β}
    {R : Reading β} (hd : d ≤ e + 1) (heof : .eof ∉ kinds)
    (hsome : ∀ t, Exact e (f (some t)) (S t)) (hnone : Exact d (f none) R) :
    Exact d (eatAny? kinds >>= f) (fun l ts b rest =>
      (∃ t mid, Eats t.kind ts t mid ∧ t.kind ∈ kinds ∧ S t l mid b rest)
        ∨ nextKind ts ∉ kinds ∧ R l ts b rest) := by
  rw [eatAny?, dispatch_bind]
  refine (Exact.dispatch (T := S) hd ?_ hnone).congr ?_
  · intro t p hp
    split at hp
    · cases hp
      exact hsome t
    · cases hp
  · intro l ts b rest _
    simp only [Eats, nextKind]
    cases hfeeds : afterFeeds ts with
    | nil => simp [headKind, heof]
    | cons t mid => simp [headKind]

/-- The same for a single kind, where the two cases are told apart by the kind of the next token. -/
theorem eat_bind_of_le {f : Option Token → ParseM β} {S : Token → Reading β} {R : Reading β}
    (hd : d ≤ e + 1) (heof : .eof ≠ k) (hsome : ∀ t, Exact e (f (some t)) (S t))
    (hnone : Exact d (f none) R) :
    Exact d (eat? k >>= f) (fun l ts b rest =>
      (∃ t mid, Eats k ts t mid ∧ S t l mid b rest) ∨ nextKind ts ≠ k ∧ R l ts b rest) := by
  refine (eatAny_bind hd (by simpa using heof) hsome hnone).congr ?_
  intro l ts b rest _
  simp only [List.mem_singleton]
  constructor
  · rintro (⟨t, mid, ht, rfl, h⟩ | h)
    · exact .inl ⟨t, mid, ht, h⟩
    · exact .inr h
  · rintro (⟨t, mid, ht, h⟩ | h)
    · exact .inl ⟨t, mid, ⟨ht.1, rfl⟩, ht.2, h⟩
    · exact .inr h

theorem eat_bind_succ {f : Option Token → ParseM β} {S : Token → Reading β} {R : Reading β}
    (heof : .eof ≠ k) (hsome : ∀ t, Exact d (f (some t)) (S t)) (hnone : Exact (d + 1) (f none) R) :
    Exact (d + 1) (eat? k >>= f) (fun l ts b rest =>
      (∃ t mid, Eats k ts t mid ∧ S t l mid b rest) ∨ nextKind ts ≠ k ∧ R l ts b rest) :=
  eat_bind_of_le (Nat.le_refl _) heof hsome hnone

theorem eat_bind {f : Option Token → ParseM β} {S : Token → Reading β} {R : Reading β}
    (heof : .eof ≠ k) (hsome : ∀ t, Exact d (f (some t)) (S t)) (hnone : Exact d (f none) R) :
    Exact d (eat? k >>= f) (fun l ts b rest =>
      (∃ t mid, Eats k ts t mid ∧ S t l mid b rest) ∨ nextKind ts ≠ k ∧ R l ts b rest) :=
  eat_bind_of_le (Nat.le_succ d) heof hsome hnone

theorem ifEat_succ {p q : ParseM β} {R₁ R₂ : Reading β} (heof : .eof ≠ k) (h₁ : Exact d p R₁)
    (h₂ : Exact (d + 1) q R₂) :
    Exact (d + 1) (eat? k >>= fun t => if t.isSome = true then p else q) (fun l ts b rest =>
      (∃ t mid, Eats k ts t mid ∧ R₁ l mid b rest) ∨ nextKind ts ≠ k ∧ R₂ l ts b rest) :=
  eat_bind_succ heof (fun _ => by simpa using h₁) (by simpa using h₂)

theorem ifEat {p q : ParseM β} {R₁ R₂ : Reading β} (heof : .eof ≠ k) (h₁ : Exact d p R₁)
    (h₂ : Exact d q R₂) :
    Exact d (eat? k >>= fun t => if t.isSome = true then p else q) (fun l ts b rest =>
      (∃ t mid, Eats k ts t mid ∧ R₁ l mid b rest) ∨ nextKind ts ≠ k ∧ R₂ l ts b rest) :=
  eat_bind heof (fun _ => by simpa using h₁) (by simpa using h₂)

theorem unlessEat {p q : ParseM β} {R₁ R₂ : Reading β} (heof : .eof ≠ k) (h₁ : Exact d p R₁)
    (h₂ : Exact d q R₂) :
    Exact d (eat? k >>= fun t => if t.isNone = true then q else p) (fun l ts b rest =>
      (∃ t mid, Eats k ts t mid ∧ R₁ l mid b rest) ∨ nextKind ts ≠ k ∧ R₂ l ts b rest) :=
  eat_bind heof (fun _ => by simpa using h₁) (by simpa using h₂)

/-- A parser that looks at the tokens, drops some in front if they are so, and chooses. -/
theorem choose {P : List Token → Prop} [DecidablePred P] {s : List Token → List Token}
    {p₁ p₂ : ParseM α} (hle : ∀ ts, (s ts).length ≤ ts.length)
    (heq : ∀ c, p c = if P c.rest then p₁ { c with rest := s c.rest } else p₂ c)
    (h₁ : Exact d p₁ R₁) (h₂ : Exact d p₂ R₂) :
    Exact d p (fun l ts a rest => P ts ∧ R₁ l (s ts) a rest ∨ ¬ P ts ∧ R₂ l ts a rest) where
  moves := by
    intro c a c' hrun
    rw [heq] at hrun
    split at hrun
    · obtain ⟨rest, reports, rfl⟩ := h₁.moves hrun
      exact ⟨rest, reports, rfl⟩
    · exact h₂.moves hrun
  reads := by
    intro c a rest hs hc
    rw [heq]
    by_cases hP : P c.rest
    · have hread := h₁.reads (c := { c with rest := s c.rest }) (a := a) (r := rest) hs
        (Nat.lt_of_le_of_lt (hle c.rest) hc)
      simpa [hP] using hread
    · simpa [hP] using h₂.reads hs hc

/-- A look at the next token decides, and where it is of the kind the line feeds are skipped. -/
theorem ifNext {p q : ParseM β} {R₁ R₂ : Reading β} (h₁ : Exact d p R₁) (h₂ : Exact d q R₂) :
    Exact d (nextIs k >>= fun b => if b = true then p else q) (fun l ts b rest =>
      nextKind ts = k ∧ R₁ l (afterFeeds ts) b rest ∨ nextKind ts ≠ k ∧ R₂ l ts b rest) := by
  refine choose (P := fun ts => nextKind ts = k) afterFeeds_length_le ?_ h₁ h₂
  intro c
  show EStateM.bind (ParseM.nextIs k) _ c = _
  have hkind : c.nextKind = nextKind c.rest := rfl
  unfold EStateM.bind ParseM.nextIs
  rw [hkind]
  by_cases h : nextKind c.rest = k
  · simp only [if_pos h]
    rfl
  · simp [if_neg h]

/-- Whether there are tokens left decides. -/
theorem ifEnd {p q : ParseM β} {R₁ R₂ : Reading β} (h₁ : Exact d p R₁) (h₂ : Exact d q R₂) :
    Exact d (atEnd >>= fun b => if b = true then p else q) (fun l ts b rest =>
      ts = [] ∧ R₁ l ts b rest ∨ ts ≠ [] ∧ R₂ l ts b rest) := by
  refine choose (P := fun ts => ts = []) (s := id) (fun _ => Nat.le_refl _) ?_ h₁ h₂
  intro c
  show (if c.rest.isEmpty = true then p else q) c = _
  by_cases hrest : c.rest = []
  · rw [if_pos hrest, if_pos (List.isEmpty_iff.mpr hrest)]
    rfl
  · rw [if_neg hrest, if_neg (by simpa using hrest)]

theorem skipNewlines_bind {f : Unit → ParseM β} {R : Reading β} (h : Exact d (f ()) R) :
    Exact d (skipNewlines >>= f) (fun l ts b rest => R l (afterFeeds ts) b rest) := by
  refine (choose (P := fun _ => True) afterFeeds_length_le ?_ h h).congr (by simp)
  intro c
  rw [if_pos trivial]
  rfl

/-- A line feed has to be there, and what follows is read behind it. -/
theorem expectNewline_bind {f : Unit → ParseM β} {R : Reading β} (h : Exact d (f ()) R) :
    Exact d (expectNewline >>= f) (fun l ts b rest =>
      ∃ feed mid, ts = feed :: mid ∧ feed.kind = .newline ∧ R l mid b rest) := by
  refine (choose (P := fun ts => headKind ts = .newline) (s := List.tail) (by simp) ?_ h
    (Exact.fail .expectedNewline)).congr ?_
  · intro c
    show EStateM.bind ParseM.expectNewline _ c = _
    cases hrest : c.rest with
    | nil => simp [EStateM.bind, ParseM.expectNewline, hrest, headKind, ParseM.fail]
    | cons t mid =>
        by_cases hk : t.kind = .newline <;>
          simp [EStateM.bind, ParseM.expectNewline, hrest, headKind, ParseM.fail, hk]
  · intro l ts b rest _
    cases ts with
    | nil => simp [headKind]
    | cons t mid =>
        simp only [headKind, List.tail_cons, and_false, or_false, List.cons.injEq]
        constructor
        · exact fun h => ⟨t, mid, ⟨rfl, rfl⟩, h⟩
        · rintro ⟨_, _, ⟨rfl, rfl⟩, h⟩
          exact h

/-! ## Loops and functions -/

/-- A parser that runs another one with more open around it, and closes that afterwards. -/
theorem within {p' : ParseM α} {w : CallStack → CallStack} {l : Bool} (h : Exact d p R)
    (hw : ∀ s, s.frames ≠ [] → (w s).frames ≠ [] ∧ (w s).insideLoop = l)
    (hok : ∀ {c a c'}, p { c with stack := w c.stack } = .ok a c' → c'.stack = w c.stack →
      p' c = .ok a { c' with stack := c.stack })
    (herror : ∀ {c e c'}, p { c with stack := w c.stack } = .error e c' → ∀ a c₁, p' c ≠ .ok a c₁) :
    Exact d p' (fun _ ts a rest => R l ts a rest) := by
  have hrun : ∀ {c a c'}, p' c = .ok a c' →
      ∃ rest reports, c' = { c with rest, reported := c.reported ++ reports }
        ∧ p { c with stack := w c.stack }
          = .ok a { c with rest, stack := w c.stack, reported := c.reported ++ reports } := by
    intro c a c' hrun
    cases hp : p { c with stack := w c.stack } with
    | error e c₁ => exact absurd hrun (herror hp a c')
    | ok b c₁ =>
        obtain ⟨rest, reports, rfl⟩ := h.moves hp
        have heq := (hok hp rfl).symm.trans hrun
        cases heq
        exact ⟨rest, reports, rfl, rfl⟩
  constructor
  · intro c a c' h'
    obtain ⟨rest, reports, hc, _⟩ := hrun h'
    exact ⟨rest, reports, hc⟩
  · intro c a rest hs hc
    obtain ⟨hframes, hl⟩ := hw c.stack hs
    have hreads := h.reads (c := { c with stack := w c.stack }) (a := a) (r := rest) hframes hc
    rw [← hl, ← hreads]
    constructor
    · intro h'
      obtain ⟨_, reports, heq, hp⟩ := hrun h'
      have hreports : c.reported = c.reported ++ reports := congrArg Cursor.reported heq
      have hrest : rest = _ := congrArg Cursor.rest heq
      rw [hp, ← hreports, hrest]
    · intro hp
      rw [hok hp rfl]

/-- Inside of a loop the flag is set, whatever it was around. -/
theorem inLoop (h : Exact d p R) :
    Exact d (ParseM.inLoop p) (fun _ ts a rest => R true ts a rest) := by
  refine h.within (w := CallStack.enterLoop) ?_ ?_ ?_
  · intro s hs
    refine ⟨?_, CallStack.insideLoop_enterLoop hs⟩
    unfold CallStack.enterLoop CallStack.mapLoops
    split <;> simp_all
  · intro c a c' hp hstack
    simp only [ParseM.inLoop, hp, hstack, CallStack.leaveLoop_enterLoop]
  · intro c e c' hp a c₁
    simp [ParseM.inLoop, hp]

/-- Inside of a function the flag is not set: loops around the function are none of its own. -/
theorem inFunction (h : Exact d p R) (name : String) :
    Exact d (ParseM.inFunction name p) (fun _ ts a rest => R false ts a rest) := by
  refine h.within (w := fun s => s.enter name) ?_ ?_ ?_
  · intro s hs
    exact ⟨by simp [CallStack.enter], CallStack.insideLoop_enter s name⟩
  · intro c a c' hp hstack
    simp only [ParseM.inFunction, hp, hstack, CallStack.leave_enter]
  · intro c e c' hp a c₁
    simp only [ParseM.inFunction, hp]
    cases c'.stack.leave name <;> simp [ParseM.fail]

end Exact

end Script
