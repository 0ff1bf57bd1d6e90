import Script.Proofs.Parser.Exits
import Script.Proofs.Tree.Nodes

/-!
# `Proofs.Parser.Formed` — the trees that the parser builds

Every node of an accepted program is formed (`Node.Formed`). The proof is by induction on the rules
of the grammar. Beside its nodes, a phrase says what it begins with and what it does not leave
behind: an expression takes in whatever may go on with it, so no such token follows.
-/

namespace Script

/-- The end of a tier: no suffix follows, and no operator of the tiers below `k`. -/
def TierEnds (k : Nat) (next : TokenKind) : Prop :=
  next.opensSuffix = false ∧ ∀ j < k, next ∉ tierOperators j

/-- An operand that is formed and followed by a token of the kind `next`. -/
structure OperandRead (e : Expr) (next : TokenKind) : Prop where
  nodes : AllFormed e.nodes
  assignment : e.isAssignment = false
  ends : e.isOpen = true → next.absorbed = false

/-- A target that is formed and followed by a token of the kind `next`. -/
structure TargetRead (e : Expr) (next : TokenKind) : Prop where
  nodes : AllFormed e.nodes
  target : e.isTarget = true
  ends : e.isOpen = true → next.absorbed = false

/-- What a phrase that is read from `ts` up to `rest` is like. -/
def Phrase.Formed (ts rest : List Token) : Phrase → Prop
  | .program ss | .block ss =>
    AllFormed (nodesLines ss) ∧ SettledLines ss ∧ ∀ s ∈ ss.head?, s.firstKind = (nextKind ts).lead
  | .braced ss => AllFormed (.stmts ss :: nodesLines ss)
  | .statement s =>
    AllFormed s.nodes ∧ s.firstKind = (nextKind ts).lead
      ∧ (s.endsOpen = true → (nextKind rest).absorbed = false)
  | .binding s =>
    AllFormed s.nodes ∧ s.isDeclaration = true
      ∧ (s.endsOpen = true → (nextKind rest).absorbed = false)
  | .initializer s => AllFormed (nodesStmt? s) ∧ ∀ s' ∈ s, s'.isDeclaration = true
  | .loopVariables names =>
    (∀ t ∈ names, t.isName = true) ∧ (nextKind ts = .identifier → names ≠ [])
  | .elifs bs => AllFormed (nodesElifs bs)
  | .superClass name => ∀ t ∈ name, t.isName = true
  | .members ms => ∀ m ∈ ms, AllFormed m.function.nodes ∧ m.function.name.isSome = true
  | .classText name super ms =>
    name.isName = true ∧ (∀ t ∈ super, t.isName = true)
      ∧ ∀ m ∈ ms, AllFormed m.function.nodes ∧ m.function.name.isSome = true
  | .named f =>
    AllFormed f.nodes ∧ f.name.isSome = true
      ∧ (f.isBrief = true → (nextKind rest).absorbed = false)
  | .function f =>
    ((∀ t ∈ f.name, t.isName = true) → AllFormed f.nodes)
      ∧ (f.isBrief = true → (nextKind rest).absorbed = false)
  | .parameters n names => (∀ t ∈ names, t.isName = true) ∧ n + names.length ≤ maxParameters
  | .parameterList names => (∀ t ∈ names, t.isName = true) ∧ names.length ≤ maxParameters
  | .body b =>
    AllFormed b.nodes
      ∧ ∀ e, b = .expression e → e.firstKind ≠ .leftBrace ∧ (nextKind rest).absorbed = false
  | .expression e =>
    AllFormed e.nodes ∧ e.firstKind = (nextKind ts).lead ∧ (nextKind rest).absorbed = false
  | .tier k e =>
    OperandRead e (nextKind rest) ∧ e.firstKind = (nextKind ts).lead ∧ TierEnds k (nextKind rest)
      ∧ (k = 0 → e.isTerm = true)
  | .operands k left e =>
    OperandRead left (nextKind ts) → TierEnds k (nextKind ts) →
      OperandRead e (nextKind rest) ∧ e.firstKind = left.firstKind
        ∧ TierEnds (k + 1) (nextKind rest)
  | .suffixes target e =>
    TargetRead target (nextKind ts) →
      TargetRead e (nextKind rest) ∧ e.firstKind = target.firstKind
        ∧ (nextKind rest).opensSuffix = false
  | .primary e => TargetRead e (nextKind rest) ∧ e.firstKind = (nextKind ts).lead
  | .arguments closing n es =>
    AllFormed (nodesList es) ∧ (closing = .rightParen → n + es.length ≤ maxParameters)
  | .argumentList closing es =>
    AllFormed (nodesList es) ∧ (closing = .rightParen → es.length ≤ maxParameters)
  | .entries kvs => AllFormed (nodesEntries kvs)
  | .component e => AllFormed (nodes? e)
  | .slice a =>
    AllFormed (nodes? a.second ++ nodes? a.third) ∧ a.firstColon.isSome = true
      ∧ (a.secondColon = none → a.third = none) ∧ ∀ t ∈ a.secondColon, t.kind = .colon
  | .access a =>
    AllFormed (nodes? a.first ++ (nodes? a.second ++ nodes? a.third))
      ∧ (a.object.TargetFormed → a.bracket.kind = .leftBracket → a.Formed)

/-- What an expression takes in is a suffix, an assignment or an operator of some tier. -/
theorem absorbed_eq {kind : TokenKind} :
    kind.absorbed = (kind.opensSuffix || kind == .equal || (List.range 7).any
      fun k => (tierOperators k).contains kind) := by
  cases kind <;> rfl

theorem absorbed_lead (kind : TokenKind) : kind.lead.absorbed = kind.absorbed := by
  cases kind <;> rfl

/-- What begins with a token that is not taken in is not taken in. -/
theorem absorbed_of_lead {first kind : TokenKind} (h : first = kind.lead)
    (hkind : kind.absorbed = false) : first.absorbed = false := by
  rw [h, absorbed_lead]
  exact hkind

theorem opensStatement_lead (kind : TokenKind) :
    kind.lead.opensStatement = kind.opensStatement := by
  cases kind <;> rfl

theorem lead_eq_leftBrace {kind : TokenKind} : kind.lead = .leftBrace ↔ kind = .leftBrace := by
  cases kind <;> decide

theorem Eats.lead {kind : TokenKind} {ts rest : List Token} {t : Token} (h : Eats kind ts t rest) :
    kind.lead = (Script.nextKind ts).lead := by
  rw [h.nextKind]

/-- The word of a constant begins what its token begins, since numbers and strings have the same
    lead. -/
theorem lead_constant {t : Token} {c : Constant} (h : t.constant? = some c) :
    c.word.kind.lead = t.kind.lead := by
  unfold Token.constant? at h
  split at h
  -- What a number or string token stands for is up to its literal, and they have the same lead.
  case h_1 hkind =>
    rw [hkind]
    split at h <;> cases h <;> rfl
  case h_2 hkind =>
    rw [hkind]
    split at h <;> cases h <;> rfl
  case h_3 hkind =>
    cases h
    rw [hkind]
    rfl
  case h_4 hkind =>
    cases h
    rw [hkind]
    rfl
  case h_5 hkind =>
    cases h
    rw [hkind]
    rfl
  case h_6 => cases h

/-- Every operator of a tier is taken in by the expression in front of it. -/
theorem absorbed_of_mem_tierOperators {k : Nat} {kind : TokenKind} (h : kind ∈ tierOperators k) :
    kind.absorbed = true := by
  unfold tierOperators at h
  split at h <;> revert kind <;> decide

theorem absorbed_of_opensSuffix {kind : TokenKind} (h : kind.opensSuffix = true) :
    kind.absorbed = true := by
  cases kind <;> first | rfl | cases h

/-- After the last tier only `=` could go on. -/
theorem TierEnds.absorbed {next : TokenKind} (h : TierEnds 7 next) (hequal : next ≠ .equal) :
    next.absorbed = false := by
  rw [absorbed_eq]
  simp only [Bool.or_eq_false_iff, beq_eq_false_iff_ne, List.any_eq_false, List.mem_range,
    List.contains_iff_mem]
  exact ⟨⟨h.1, hequal⟩, h.2⟩

/-- What is followed by a token that it could take in does not end with one that takes it in. -/
theorem TargetRead.formed {e : Expr} {next : TokenKind} (h : TargetRead e next)
    (hnext : next.absorbed = true) : e.TargetFormed := by
  refine ⟨h.target, ?_⟩
  cases hopen : e.isOpen with
  | false => rfl
  | true =>
      rw [h.ends hopen] at hnext
      cases hnext

/-- The same for an operand. -/
theorem OperandRead.closed {e : Expr} {next : TokenKind} (h : OperandRead e next)
    (hnext : next.absorbed = true) : e.isOpen = false := by
  cases hopen : e.isOpen with
  | false => rfl
  | true =>
      rw [h.ends hopen] at hnext
      cases hnext

theorem Expr.isTerm_of_isTarget {e : Expr} (h : e.isTarget = true) : e.isTerm = true := by
  cases e <;> first | rfl | cases h

theorem Expr.isAssignment_of_isTerm {e : Expr} (h : e.isTerm = true) : e.isAssignment = false := by
  cases e <;> first | rfl | cases h

/-- An operation with formed operands. -/
theorem operandRead_tierNode {k : Nat} {left right : Expr} {op : Token} {next : TokenKind}
    (hop : op.kind ∈ tierOperators k) (hleft : OperandRead left op.kind)
    (hright : OperandRead right next) : OperandRead (tierNode k left op right) next := by
  have hclosed := hleft.closed (absorbed_of_mem_tierOperators hop)
  have hoperands : OperandsFormed left right := ⟨hleft.assignment, hclosed, hright.assignment⟩
  unfold tierNode
  split
  · rename_i hk
    refine ⟨?_, rfl, hright.ends⟩
    simp only [Expr.nodes, AllFormed, List.forall_mem_cons, List.forall_mem_append]
    exact ⟨⟨⟨k, hk, hop⟩, hoperands⟩, hleft.nodes, hright.nodes⟩
  · rename_i hk
    refine ⟨?_, rfl, hright.ends⟩
    simp only [Expr.nodes, AllFormed, List.forall_mem_cons, List.forall_mem_append]
    exact ⟨⟨⟨k, by omega, hop⟩, hoperands⟩, hleft.nodes, hright.nodes⟩

theorem firstKind_tierNode {k : Nat} {left right : Expr} {op : Token} :
    (tierNode k left op right).firstKind = left.firstKind := by
  unfold tierNode
  split <;> rfl

/-- The root of an access is one of its parts, found by going down from object to object. -/
theorem allFormed_accessRoot {e : Expr} (h : AllFormed e.nodes) : AllFormed e.accessRoot.nodes := by
  fun_induction Expr.accessRoot e with
  | case1 object _ _ _ _ _ _ ih =>
      simp only [Expr.nodes, Access.nodes, AllFormed, List.forall_mem_cons,
        List.forall_mem_append] at h
      exact ih h.2.2.1
  | case2 e _ => exact h

/-- An assignment to a formed target. -/
theorem formed_assignment {target value e : Expr} (h : Grammar.assignment? target value = some e)
    (htarget : AllFormed target.nodes) (hvalue : AllFormed value.nodes) :
    AllFormed e.nodes ∧ e.firstKind = target.firstKind := by
  cases target with
  | var name =>
      cases h
      simp only [Expr.nodes, AllFormed, List.forall_mem_cons, List.forall_mem_append] at htarget ⊢
      exact ⟨⟨htarget.1, hvalue, nofun⟩, rfl⟩
  | get object name =>
      cases h
      simp only [Expr.nodes, AllFormed, List.forall_mem_cons, List.forall_mem_append] at htarget ⊢
      exact ⟨⟨htarget.1, htarget.2, hvalue, nofun⟩, rfl⟩
  | access a =>
      have hroot := allFormed_accessRoot htarget
      simp only [Expr.nodes, AllFormed, List.forall_mem_cons] at htarget
      unfold Grammar.assignment? at h
      split at h
      · rename_i name hname
        cases h
        simp only [Expr.nodes, AllFormed, List.forall_mem_cons, List.forall_mem_append]
        exact ⟨⟨hname, hvalue, htarget.2⟩, by cases a; rfl⟩
      · rename_i object name hname
        cases h
        rw [hname] at hroot
        simp only [Expr.nodes, AllFormed, List.forall_mem_cons, List.forall_mem_append] at hroot ⊢
        exact ⟨⟨hname, hroot.2, hvalue, htarget.2⟩, by cases a; rfl⟩
      · cases h
  | _ => cases h

theorem Eats.isName {ts rest : List Token} {t : Token} (h : Eats .identifier ts t rest) :
    t.isName = true := by
  simp [Token.isName, h.2]

/-- A statement may be put in front if it does not take in what the next one begins with. -/
theorem settledLines_cons {s : Stmt} {ss : List Stmt} (hss : SettledLines ss)
    (h : ∀ s' ∈ ss.head?, s.endsOpen = true → s'.firstKind.absorbed = false) :
    SettledLines (s :: ss) := by
  cases ss with
  | nil => trivial
  | cons s' ss => exact ⟨h s' rfl, hss⟩

theorem nextKind_newline {t : Token} {ts : List Token} (h : t.kind = .newline) :
    nextKind (t :: ts) = nextKind ts := by
  simp [nextKind, afterFeeds, h]

/-- The nodes of methods are the nodes of each of them. -/
theorem allFormed_nodesMethods {ds : List FunctionDecl} :
    AllFormed (nodesMethods ds) ↔ ∀ d ∈ ds, AllFormed d.nodes := by
  induction ds with
  | nil => simp [nodesMethods, AllFormed]
  | cons d ds ih => simp only [nodesMethods, AllFormed, List.forall_mem_append, ih,
      List.forall_mem_cons]

theorem mem_select {isStatic : Bool} {ms : List Member} {d : FunctionDecl}
    (h : d ∈ Member.select isStatic ms) : ∃ m ∈ ms, m.function = d := by
  simp only [Member.select, List.mem_map, List.mem_filter] at h
  obtain ⟨m, ⟨hm, _⟩, rfl⟩ := h
  exact ⟨m, hm, rfl⟩

/-- A class with formed methods. -/
theorem formed_ofMembers {name : Token} {super : Option Token} {ms : List Member}
    (hname : name.isName = true) (hsuper : ∀ t ∈ super, t.isName = true)
    (hms : ∀ m ∈ ms, AllFormed m.function.nodes ∧ m.function.name.isSome = true) :
    AllFormed (ClassDecl.ofMembers name super ms).nodes := by
  have hselect : ∀ isStatic, ∀ d ∈ Member.select isStatic ms,
      AllFormed d.nodes ∧ d.name.isSome = true := by
    intro isStatic d hd
    obtain ⟨m, hm, rfl⟩ := mem_select hd
    exact hms m hm
  simp only [ClassDecl.ofMembers, ClassDecl.nodes, AllFormed, List.forall_mem_cons,
    List.forall_mem_append]
  exact ⟨⟨hname, hsuper, fun d hd => (hselect _ d hd).2, fun d hd => (hselect _ d hd).2⟩,
    allFormed_nodesMethods.mpr fun d hd => (hselect _ d hd).1,
    allFormed_nodesMethods.mpr fun d hd => (hselect _ d hd).1⟩

/-- **What the grammar reads is formed.** -/
theorem Reads.formed {l : Bool} {ts rest : List Token} {ph : Phrase} (h : Reads l ts ph rest) :
    ph.Formed ts rest := by
  -- On the reading. A phrase also tells what it begins with, which the line in front of it needs to
  -- know, and, if it could go on, what does not follow it.
  induction h with
  | programEnd _ => exact ⟨nofun, trivial, nofun⟩
  | programMore _ _ hfeed _ ihs ihss =>
      obtain ⟨hs, hfirst, hends⟩ := ihs
      obtain ⟨hss, hsettled, hnext⟩ := ihss
      simp only [Phrase.Formed, nodesLines, AllFormed, List.forall_mem_append]
      refine ⟨⟨hs, hss⟩, settledLines_cons hsettled fun s' hs' hopen => ?_, ?_⟩
      · refine absorbed_of_lead (hnext s' hs') ?_
        rw [← nextKind_newline hfeed]
        exact hends hopen
      · simpa using hfirst
  | blockEnd _ => exact ⟨nofun, trivial, nofun⟩
  | blockMore _ _ _ _ ihs ihss =>
      obtain ⟨hs, hfirst, hends⟩ := ihs
      obtain ⟨hss, hsettled, hnext⟩ := ihss
      simp only [Phrase.Formed, nodesLines, AllFormed, List.forall_mem_append]
      refine ⟨⟨hs, hss⟩, settledLines_cons hsettled fun s' hs' hopen => ?_, ?_⟩
      · exact absorbed_of_lead (hnext s' hs') (hends hopen)
      · simpa using hfirst
  | braced _ _ ih => exact List.forall_mem_cons.mpr ⟨ih.2.1, ih.1⟩
  | @exprStmt _ _ e _ hopens _ ih =>
      obtain ⟨he, hfirst, hends⟩ := ih
      have hopens' : e.firstKind.opensStatement = false := by
        rw [hfirst, opensStatement_lead]
        exact hopens
      exact ⟨List.forall_mem_cons.mpr ⟨hopens', he⟩, hfirst, fun _ => hends⟩
  | classStmt ht _ ih =>
      obtain ⟨hname, hsuper, hms⟩ := ih
      exact ⟨List.forall_mem_cons.mpr ⟨trivial, formed_ofMembers hname hsuper hms⟩,
        ht.lead, nofun⟩
  | functionStmt ht _ ih =>
      obtain ⟨hf, hname, hends⟩ := ih
      exact ⟨List.forall_mem_cons.mpr ⟨hname, hf⟩, ht.lead, hends⟩
  | @letStmt _ _ _ _ s _ ht _ ih =>
      obtain ⟨hs, hdeclares, hends⟩ := ih
      refine ⟨hs, ?_, hends⟩
      cases s with
      | declare name initializer => exact ht.lead
      | _ => cases hdeclares
  | forInStmt ht hnext _ _ _ _ ihnames ihe ihs =>
      obtain ⟨hnames, hne⟩ := ihnames
      obtain ⟨he, -, hafter⟩ := ihe
      obtain ⟨hs, hfirst, hends⟩ := ihs
      simp only [nextKind_afterFeeds] at hne
      simp only [Phrase.Formed, Stmt.nodes, AllFormed, List.forall_mem_cons, List.forall_mem_append]
      exact ⟨⟨⟨ht.2, hnames, hne hnext, absorbed_of_lead hfirst hafter⟩, he, hs⟩,
        ht.2.trans ht.lead, hends⟩
  | forStmt ht _ _ _ _ _ _ ihi ihc ihe ihs =>
      obtain ⟨hi, hdeclares⟩ := ihi
      obtain ⟨hc, -, -⟩ := ihc
      obtain ⟨he, -, hafter⟩ := ihe
      obtain ⟨hs, hfirst, hends⟩ := ihs
      simp only [Phrase.Formed, Stmt.nodes, AllFormed, List.forall_mem_cons, List.forall_mem_append]
      exact ⟨⟨⟨ht.2, hdeclares, absorbed_of_lead hfirst hafter⟩, hi, hc, he, hs⟩,
        ht.2.trans ht.lead, hends⟩
  | tryStmt ht _ _ hname _ ihs ihs' =>
      obtain ⟨hs, -, -⟩ := ihs
      obtain ⟨hs', -, hends⟩ := ihs'
      simp only [Phrase.Formed, Stmt.nodes, AllFormed, List.forall_mem_cons, List.forall_mem_append]
      exact ⟨⟨hname.isName, hs, hs'⟩, ht.lead, hends⟩
  | ifStmt ht _ _ _ _ ihc ihss ihbs =>
      simp only [Phrase.Formed, Stmt.nodes, AllFormed, List.forall_mem_cons, List.forall_mem_append]
      obtain ⟨hsettled, hss⟩ := List.forall_mem_cons.mp ihss
      exact ⟨⟨ht.2, ihc.1, hsettled, hss, ihbs, nofun⟩, ht.2.trans ht.lead, nofun⟩
  | ifElseStmt ht _ _ _ _ _ ihc ihss ihbs ihss' =>
      simp only [Phrase.Formed, Stmt.nodes, AllFormed, List.forall_mem_cons, List.forall_mem_append]
      obtain ⟨hsettled, hss⟩ := List.forall_mem_cons.mp ihss
      exact ⟨⟨ht.2, ihc.1, hsettled, hss, ihbs, ihss'⟩, ht.2.trans ht.lead, nofun⟩
  | returnStmt ht _ => exact ⟨List.forall_mem_cons.mpr ⟨ht.2, nofun⟩, ht.2.trans ht.lead, nofun⟩
  | returnValueStmt ht _ _ ih =>
      exact ⟨List.forall_mem_cons.mpr ⟨ht.2, ih.1⟩, ht.2.trans ht.lead, fun _ => ih.2.2⟩
  | breakStmt ht => exact ⟨List.forall_mem_cons.mpr ⟨ht.2, nofun⟩, ht.2.trans ht.lead, nofun⟩
  | continueStmt ht => exact ⟨List.forall_mem_cons.mpr ⟨ht.2, nofun⟩, ht.2.trans ht.lead, nofun⟩
  | whileStmt ht _ _ ihc ihs =>
      obtain ⟨hc, -, hafter⟩ := ihc
      obtain ⟨hs, hfirst, hends⟩ := ihs
      simp only [Phrase.Formed, Stmt.nodes, AllFormed, List.forall_mem_cons, List.forall_mem_append]
      exact ⟨⟨⟨ht.2, absorbed_of_lead hfirst hafter⟩, hc, hs⟩, ht.2.trans ht.lead, hends⟩
  | blockStmt ht _ ih =>
      obtain ⟨hss, hsettled, -⟩ := ih
      simp only [Phrase.Formed, Stmt.nodes, AllFormed, List.forall_mem_cons]
      exact ⟨⟨trivial, hsettled, hss⟩, ht.lead, nofun⟩
  | binding hname _ _ ih =>
      exact ⟨List.forall_mem_cons.mpr ⟨hname.isName, ih.1⟩, rfl, fun _ => ih.2.2⟩
  | bindingBare hname _ => exact ⟨List.forall_mem_cons.mpr ⟨hname.isName, nofun⟩, rfl, nofun⟩
  | initializerNone _ => exact ⟨nofun, nofun⟩
  | initializerLet _ _ _ ih => exact ⟨ih.1, fun _ hs => Option.some.inj hs ▸ ih.2.1⟩
  | loopVariablesEnd hnext => exact ⟨nofun, fun h => absurd h hnext⟩
  | loopVariablesMore hname _ _ ih =>
      exact ⟨List.forall_mem_cons.mpr ⟨hname.isName, ih.1⟩, fun _ => nofun⟩
  | loopVariablesComma hname _ _ ih =>
      exact ⟨List.forall_mem_cons.mpr ⟨hname.isName, ih.1⟩, fun _ => nofun⟩
  | elifsEnd _ => exact nofun
  | elifsMore _ _ _ _ ihc ihss ihbs =>
      obtain ⟨hsettled, hss⟩ := List.forall_mem_cons.mp ihss
      simp only [Phrase.Formed, nodesElifs, AllFormed, List.forall_mem_cons, List.forall_mem_append]
      exact ⟨ihc.1, hsettled, hss, ihbs⟩
  | superClassNone _ => exact nofun
  | superClass _ hname => exact fun _ ht => Option.some.inj ht ▸ hname.isName
  | membersEnd _ => exact nofun
  | membersMissing => exact nofun
  | membersMethod _ _ _ _ _ ihf ihms => exact List.forall_mem_cons.mpr ⟨⟨ihf.1, ihf.2.1⟩, ihms⟩
  | membersStatic _ _ _ ihf ihms => exact List.forall_mem_cons.mpr ⟨⟨ihf.1, ihf.2.1⟩, ihms⟩
  | classText hname _ _ _ _ ihsuper ihms => exact ⟨hname.isName, ihsuper, ihms⟩
  | named hname hf _ ih =>
      obtain ⟨hnodes, hends⟩ := ih
      refine ⟨hnodes ?_, by rw [hf]; rfl, hends⟩
      rw [hf]
      exact fun _ ht => Option.some.inj ht ▸ hname.isName
  | @function _ _ _ _ ps _ _ _ b _ name _ _ _ _ ihps ihb =>
      refine ⟨fun hname => ?_, ?_⟩
      · exact List.forall_mem_cons.mpr ⟨⟨hname, ihps.1, ihps.2, fun e he => (ihb.2 e he).1⟩, ihb.1⟩
      · cases b with
        | block ss => exact nofun
        | expression e => exact fun _ => (ihb.2 e rfl).2
  | parametersLast hn hname _ => exact ⟨List.forall_mem_cons.mpr ⟨hname.isName, nofun⟩, hn⟩
  | parametersMore _ hname _ _ ih =>
      refine ⟨List.forall_mem_cons.mpr ⟨hname.isName, ih.1⟩, ?_⟩
      have := ih.2
      simp only [List.length_cons]
      omega
  | parameterListNone _ => exact ⟨nofun, Nat.zero_le _⟩
  | parameterList _ _ ih => exact ⟨ih.1, by simpa using ih.2⟩
  | bodyBlock _ _ ih => exact ⟨List.forall_mem_cons.mpr ⟨ih.2.1, ih.1⟩, nofun⟩
  | bodyExpr hnext _ ih =>
      refine ⟨ih.1, ?_⟩
      rintro e ⟨⟩
      exact ⟨fun h => hnext (lead_eq_leftBrace.mp (ih.2.1.symm.trans h)), ih.2.2⟩
  | exprTier _ hnext ih => exact ⟨ih.1.nodes, ih.2.1, ih.2.2.1.absorbed hnext⟩
  | exprAssign _ _ _ hassign ihtarget ihvalue =>
      obtain ⟨hnodes, hfirst⟩ := formed_assignment hassign ihtarget.1.nodes ihvalue.1
      exact ⟨hnodes, hfirst.trans ihtarget.2.1, ihvalue.2.2⟩
  | tierChain _ _ ihleft ih =>
      obtain ⟨hleft, hfirst, hends, -⟩ := ihleft
      obtain ⟨he, hfirst', hends'⟩ := ih hleft hends
      exact ⟨he, hfirst'.trans hfirst, hends', nofun⟩
  | operandsEnd hnext =>
      refine fun hleft hends => ⟨hleft, rfl, hends.1, fun j hj => ?_⟩
      obtain hj | rfl := Nat.lt_succ_iff_lt_or_eq.mp hj
      · exact hends.2 j hj
      · exact hnext
  | operandsMore hop hmem _ _ ihright ih =>
      intro hleft hends
      obtain ⟨hright, -, hends', -⟩ := ihright
      rw [hop.nextKind] at hleft
      obtain ⟨he, hfirst, hends''⟩ := ih (operandRead_tierNode hmem hleft hright) hends'
      exact ⟨he, hfirst.trans firstKind_tierNode, hends''⟩
  | @tierUnary _ _ op _ _ _ hop hkind _ ih =>
      obtain ⟨he, -, hends, hterm⟩ := ih
      have hlead : op.kind = op.kind.lead := by
        obtain h | h := hkind <;> rw [h] <;> rfl
      exact ⟨⟨List.forall_mem_cons.mpr ⟨⟨hkind, hterm rfl⟩, he.nodes⟩, rfl, he.ends⟩,
        hlead.trans hop.lead, hends, fun _ => rfl⟩
  | tierCall _ _ _ _ ihprimary ih =>
      obtain ⟨he₀, hfirst⟩ := ihprimary
      obtain ⟨he, hfirst', hsuffix⟩ := ih he₀
      have hterm := Expr.isTerm_of_isTarget he.target
      exact ⟨⟨he.nodes, Expr.isAssignment_of_isTerm hterm, he.ends⟩, hfirst'.trans hfirst,
        ⟨hsuffix, nofun⟩, fun _ => hterm⟩
  | suffixesEnd hnext => exact fun htarget => ⟨htarget, rfl, hnext⟩
  | suffixesCall ht _ hclosing _ ihargs ih =>
      intro htarget
      have hformed := htarget.formed (ht.nextKind ▸ rfl)
      have hcall := ih ⟨?_, rfl, nofun⟩
      · exact hcall
      · simp only [Expr.nodes, AllFormed, List.forall_mem_cons, List.forall_mem_append]
        exact ⟨⟨hclosing.2, hformed, ihargs.2 rfl⟩, htarget.nodes, ihargs.1⟩
  | suffixesGet ht hname _ ih =>
      intro htarget
      have hformed := htarget.formed (ht.nextKind ▸ rfl)
      exact ih ⟨List.forall_mem_cons.mpr ⟨⟨hformed, hname.isName⟩, htarget.nodes⟩, rfl, nofun⟩
  | @suffixesAccess _ _ _ _ a _ _ _ _ _ _ ht hobject hbracket _ _ _ iha ih =>
      intro htarget
      have hformed := htarget.formed (ht.nextKind ▸ rfl)
      obtain ⟨hparts, haccess⟩ := iha
      have haccess := haccess (hobject ▸ hformed) (hbracket ▸ ht.2)
      obtain ⟨object, bracket, first, firstColon, second, secondColon, third⟩ := a
      subst hobject
      have hcall := ih ⟨?_, rfl, nofun⟩
      · exact hcall
      · simp only [Expr.nodes, Access.nodes, AllFormed, List.forall_mem_cons,
          List.forall_mem_append] at hparts ⊢
        exact ⟨trivial, haccess, htarget.nodes, hparts⟩
  | primaryConstant ht hc =>
      exact ⟨⟨List.forall_mem_cons.mpr ⟨trivial, nofun⟩, rfl, nofun⟩,
        (lead_constant hc).trans ht.lead⟩
  | primaryVar ht =>
      exact ⟨⟨List.forall_mem_cons.mpr ⟨ht.isName, nofun⟩, rfl, nofun⟩, ht.2.trans ht.lead⟩
  | primaryThis ht =>
      exact ⟨⟨List.forall_mem_cons.mpr ⟨ht.2, nofun⟩, rfl, nofun⟩, ht.2.trans ht.lead⟩
  | primaryGrouping ht _ _ ih =>
      exact ⟨⟨List.forall_mem_cons.mpr ⟨trivial, ih.1⟩, rfl, nofun⟩, ht.lead⟩
  | primaryList ht _ hclosing ih =>
      exact ⟨⟨List.forall_mem_cons.mpr ⟨hclosing.2, ih.1⟩, rfl, nofun⟩, ht.lead⟩
  | primaryDict ht _ hclosing ih =>
      exact ⟨⟨List.forall_mem_cons.mpr ⟨hclosing.2, ih⟩, rfl, nofun⟩, ht.lead⟩
  | primaryFunction ht hname _ ih =>
      obtain ⟨hnodes, hends⟩ := ih
      refine ⟨⟨List.forall_mem_cons.mpr ⟨hname, hnodes ?_⟩, rfl, hends⟩, ht.lead⟩
      rw [hname]
      exact nofun
  | primarySuper ht _ hname =>
      exact ⟨⟨List.forall_mem_cons.mpr ⟨⟨ht.2, hname.isName⟩, nofun⟩, rfl, nofun⟩,
        ht.2.trans ht.lead⟩
  | primarySuperInit ht _ =>
      exact ⟨⟨List.forall_mem_cons.mpr ⟨⟨ht.2, rfl⟩, nofun⟩, rfl, nofun⟩, ht.2.trans ht.lead⟩
  | argumentsLast hn _ _ ih => exact ⟨List.forall_mem_append.mpr ⟨ih.1, nofun⟩, hn⟩
  | argumentsTrailing hn _ _ _ ih => exact ⟨List.forall_mem_append.mpr ⟨ih.1, nofun⟩, hn⟩
  | argumentsMore _ _ _ _ _ ihe ihes =>
      refine ⟨List.forall_mem_append.mpr ⟨ihe.1, ihes.1⟩, fun hclosing => ?_⟩
      have := ihes.2 hclosing
      simp only [List.length_cons]
      omega
  | argumentListNone _ => exact ⟨nofun, fun _ => Nat.zero_le _⟩
  | argumentList _ _ ih => exact ⟨ih.1, by simpa using ih.2⟩
  | entriesEnd _ => exact nofun
  | entriesLast _ _ _ _ _ ihkey ihvalue =>
      simp only [Phrase.Formed, nodesEntries, AllFormed, List.forall_mem_append]
      exact ⟨ihkey.1, ihvalue.1, nofun⟩
  | entriesMore _ _ _ _ _ _ ihkey ihvalue ihkvs =>
      simp only [Phrase.Formed, nodesEntries, AllFormed, List.forall_mem_append]
      exact ⟨ihkey.1, ihvalue.1, ihkvs⟩
  | componentNone _ => exact nofun
  | componentMissing => exact nofun
  | component _ _ _ _ ih => exact ih.1
  | slice _ hcolon _ ihsecond ihthird =>
      exact ⟨List.forall_mem_append.mpr ⟨ihsecond, ihthird⟩, rfl, nofun,
        fun _ ht => Option.some.inj ht ▸ hcolon.2⟩
  | sliceShort _ _ ih => exact ⟨List.forall_mem_append.mpr ⟨ih, nofun⟩, rfl, fun _ => rfl, nofun⟩
  | accessSlice hcolon hfirst hfirstColon _ ih =>
      obtain ⟨hparts, hsome, hshort, hsecondColon⟩ := ih
      refine ⟨by simpa [hfirst, nodes?] using hparts, fun hobject hbracket => ?_⟩
      refine ⟨hobject, hbracket, fun h => ?_, hshort, ?_, hsecondColon⟩
      · rw [h] at hsome
        cases hsome
      · rw [hfirstColon]
        exact fun _ ht => Option.some.inj ht ▸ hcolon.2
  | accessFirstSlice _ _ hcolon hfirst hfirstColon _ ihfirst ih =>
      obtain ⟨hparts, hsome, hshort, hsecondColon⟩ := ih
      refine ⟨?_, fun hobject hbracket => ?_⟩
      · rw [hfirst]
        exact List.forall_mem_append.mpr ⟨ihfirst.1, hparts⟩
      · refine ⟨hobject, hbracket, fun h => ?_, hshort, ?_, hsecondColon⟩
        · rw [h] at hsome
          cases hsome
        · rw [hfirstColon]
          exact fun _ ht => Option.some.inj ht ▸ hcolon.2
  | accessIndex _ _ _ ih =>
      refine ⟨List.forall_mem_append.mpr ⟨ih.1, nofun⟩, fun hobject hbracket => ?_⟩
      exact ⟨hobject, hbracket, fun _ => ⟨rfl, rfl, rfl⟩, fun _ => rfl, nofun, nofun⟩

end Script
