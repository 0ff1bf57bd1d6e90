import Script.Proofs.Tree.Nodes
import Script.Proofs.Tree.Spelling

/-!
# `Proofs.Tree.Parts` — the parts of a spelled tree

What holds of all words that spell a tree holds of the words of every part of it (`Stmt.parts`,
`partsLines`). The words of a part need not stand side by side in the text of the tree: a class may
have its methods in another order, and the object of an assignment to an element is in the tree
twice but in the text once.
-/

namespace Script

variable {ok : List Bool → Prop} {P : Word → Prop}

/-- The words of a part. Statements that follow each other have no words of their own. -/
def Node.words : Node → List Word
  | .expr e => e.words .bare
  | .access a => a.words .bare
  | .function d => d.words .bare
  | .stmt s => s.words .bare
  | .stmts _ => []
  | .cls d => d.words .bare

/-- `P` holds of the words `ws` of a tree and of the words of its parts `ns`; the parts of the
    expressions among them are there as well. -/
structure Parts (P : Word → Prop) (ns : List Node) (ws : List Word) : Prop where
  words : ∀ w ∈ ws, P w
  inner : ∀ n ∈ ns, ∀ w ∈ n.words, P w
  nodes : ∀ e, .expr e ∈ ns → e.nodes ⊆ ns

namespace Parts

variable {ns ns' : List Node} {us vs ws : List Word}

theorem nil : Parts P [] [] := ⟨nofun, nofun, nofun⟩

/-- The parts of two trees, with the words of the second behind those of the first. -/
theorem append (h : Parts P ns us) (h' : Parts P ns' vs) : Parts P (ns ++ ns') (us ++ vs) where
  words := List.forall_mem_append.mpr ⟨h.words, h'.words⟩
  inner := List.forall_mem_append.mpr ⟨h.inner, h'.inner⟩
  nodes e he := (List.mem_append.mp he).elim
    (fun he => List.subset_append_of_subset_left _ (h.nodes e he))
    (fun he => List.subset_append_of_subset_right _ (h'.nodes e he))

/-- Only the words of the tree are other ones. -/
theorem of_words (h : Parts P ns us) (hws : ∀ w ∈ ws, P w) : Parts P ns ws := { h with words := hws }

theorem cons (h : Parts P ns us) {w : Word} (hw : P w) : Parts P ns (w :: us) :=
  h.of_words (List.forall_mem_cons.mpr ⟨hw, h.words⟩)

theorem concat (h : Parts P ns us) {w : Word} (hw : P w) : Parts P ns (us ++ [w]) :=
  h.of_words (List.forall_mem_append.mpr ⟨h.words, List.forall_mem_singleton.mpr hw⟩)

/-- A part that is no expression. -/
theorem node (h : Parts P ns ws) {n : Node} (hn : ∀ e, n ≠ .expr e) (hwords : n.words ⊆ ws) :
    Parts P (n :: ns) ws where
  words := h.words
  inner := List.forall_mem_cons.mpr ⟨fun w hw => h.words w (hwords hw), h.inner⟩
  nodes e he := List.subset_cons_of_subset _
    (h.nodes e ((List.mem_cons.mp he).resolve_left fun heq => hn e heq.symm))

/-- Statements that follow each other are a part without words of its own. -/
theorem stmts (h : Parts P ns ws) (ss : List Stmt) : Parts P (.stmts ss :: ns) ws :=
  h.node nofun (List.nil_subset _)

theorem access {a : Access} (h : Parts P ns (a.words .bare)) :
    Parts P (.access a :: ns) (a.words .bare) :=
  h.node nofun (List.Subset.refl _)

theorem function {d : FunctionDecl} (h : Parts P ns (d.words .bare)) :
    Parts P (.function d :: ns) (d.words .bare) :=
  h.node nofun (List.Subset.refl _)

theorem stmt {s : Stmt} (h : Parts P ns (s.words .bare)) :
    Parts P (.stmt s :: ns) (s.words .bare) :=
  h.node nofun (List.Subset.refl _)

theorem cls {d : ClassDecl} (h : Parts P ns (d.words .bare)) :
    Parts P (.cls d :: ns) (d.words .bare) :=
  h.node nofun (List.Subset.refl _)

/-- An expression and the parts under it. -/
theorem expr {e : Expr} (h : Parts P ns (e.words .bare)) (he : e.nodes = .expr e :: ns) :
    Parts P e.nodes (e.words .bare) where
  words := h.words
  inner := by
    rw [he]
    exact List.forall_mem_cons.mpr ⟨h.words, h.inner⟩
  nodes e' he' := by
    rw [he] at he' ⊢
    obtain heq | he' := List.mem_cons.mp he'
    · cases heq
      rw [he]
      exact List.Subset.refl _
    · exact List.subset_cons_of_subset _ (h.nodes e' he')

/-- More parts that are already there change nothing. -/
theorem more (h : Parts P ns ws) (hns : ns' ⊆ ns) : Parts P (ns' ++ ns) ws where
  words := h.words
  inner := List.forall_mem_append.mpr ⟨fun n hn => h.inner n (hns hn), h.inner⟩
  nodes e he := List.subset_append_of_subset_right _
    (h.nodes e ((List.mem_append.mp he).elim (fun he => hns he) id))

/-- Parts between braces. -/
theorem braced (h : (∀ w ∈ ws, P w) → Parts P ns us) (hws : ∀ w ∈ wordsBraced .bare ws, P w) :
    Parts P ns (wordsBraced .bare us) := by
  simp only [wordsBraced, Style.bare, List.nil_append, List.forall_mem_cons,
    List.forall_mem_append] at hws
  exact ((h hws.2.1).concat hws.2.2.1).cons hws.1

end Parts

/-- An expression is among its own parts. -/
theorem Expr.mem_nodes : ∀ e : Expr, .expr e ∈ e.nodes
  | .list _ _ | .dict _ _ | .assign _ _ _ | .access _ | .binary _ _ _ | .call _ _ _ | .get _ _
  | .set _ _ _ _ | .super _ _ | .grouping _ | .literal _ | .logical _ _ _ | .this _ | .unary _ _
  | .var _ | .function _ => List.mem_cons_self

/-- The root of an access is one of its parts. -/
theorem Expr.accessRoot_mem_nodes : ∀ e : Expr, .expr e.accessRoot ∈ e.nodes
  | .access ⟨object, _, _, _, _, _, _⟩ =>
    List.mem_cons_of_mem _ (List.mem_cons_of_mem _
      (List.mem_append_left _ object.accessRoot_mem_nodes))
  | .list _ _ | .dict _ _ | .assign _ _ _ | .binary _ _ _ | .call _ _ _ | .get _ _
  | .set _ _ _ _ | .super _ _ | .grouping _ | .literal _ | .logical _ _ _ | .this _ | .unary _ _
  | .var _ | .function _ => List.mem_cons_self

/-- The object of an assignment to an element is among the parts of the access. -/
theorem Parts.object_subset {a : Access} {object : Expr} {name : Token} {ws : List Word}
    (h : Parts P a.nodes ws) (hroot : (Expr.access a).accessRoot = .get object name) :
    object.nodes ⊆ a.nodes := by
  have hmem := (Expr.access a).accessRoot_mem_nodes
  rw [hroot] at hmem
  have hget : .expr (.get object name) ∈ a.nodes := (List.mem_cons.mp hmem).resolve_left nofun
  exact (List.cons_subset.mp (h.nodes _ hget)).2

/-- An optional part of an access behind its colon. -/
theorem Parts.behind {t : Option Token} {e : Option Expr} {v : List Word}
    (hmissing : t = none → e = none)
    (hparts : (∀ w ∈ v, P w) → Parts P (nodes? e) (words? .bare e))
    (hv : ∀ w ∈ wordsBehind t v, P w) :
    Parts P (nodes? e) (wordsBehind t (words? .bare e)) := by
  cases t with
  | none =>
      obtain rfl := hmissing rfl
      exact .nil
  | some t =>
      obtain ⟨ht, hv⟩ := List.forall_mem_cons.mp hv
      exact (hparts hv).cons ht

/-- What holds of mixed words holds of the words of each method. -/
theorem Mixes.forall_mem {order : List Bool} {us vs : List (List Word)} {ws : List Word}
    (h : Mixes order us vs ws) (hws : ∀ w ∈ ws, P w) :
    (∀ u ∈ us, ∀ w ∈ u, P w) ∧ ∀ v ∈ vs, ∀ w ∈ v, P w := by
  induction h with
  | nil => exact ⟨nofun, nofun⟩
  | method _ ih =>
      obtain ⟨hu, hws⟩ := List.forall_mem_append.mp hws
      exact ⟨List.forall_mem_cons.mpr ⟨hu, (ih hws).1⟩, (ih hws).2⟩
  | static _ ih =>
      obtain ⟨hv, hws⟩ := List.forall_mem_append.mp (List.forall_mem_cons.mp hws).2
      exact ⟨(ih hws).1, List.forall_mem_cons.mpr ⟨hv, (ih hws).2⟩⟩

mutual

/-- The parts of an expression. The words that it is spelled by are taken apart as its constructor
    says, and the parts below have theirs by induction. -/
theorem Expr.parts : ∀ (e : Expr) {ws : List Word}, e.Spells ok ws → AllFormed e.nodes →
    (∀ w ∈ ws, P w) → Parts P e.nodes (e.words .bare)
  | .list es _, _, ⟨_, hu, rfl⟩, hf, hP => by
    simp only [List.forall_mem_append, List.forall_mem_cons] at hP
    have hes := partsList es hu (List.forall_mem_cons.mp hf).2 hP.2.1
    exact ((hes.concat hP.2.2.1).cons hP.1).expr rfl
  | .dict kvs _, _, ⟨_, hu, rfl⟩, hf, hP => by
    simp only [List.forall_mem_append, List.forall_mem_cons] at hP
    have hkvs := partsEntries kvs hu (List.forall_mem_cons.mp hf).2 hP.2.1
    exact ((hkvs.concat hP.2.2.1).cons hP.1).expr rfl
  | .assign _ value none, _, ⟨_, hv, rfl⟩, hf, hP => by
    simp only [List.forall_mem_cons] at hP
    have hvalue := value.parts hv (List.forall_mem_append.mp (List.forall_mem_cons.mp hf).2).1 hP.2.2
    exact ((hvalue.append .nil).of_words (List.forall_mem_cons.mpr
      ⟨hP.1, List.forall_mem_cons.mpr ⟨hP.2.1, hvalue.words⟩⟩)).expr rfl
  | .assign _ value (some a), _, ⟨_, _, hu, hv, rfl⟩, hf, hP => by
    simp only [List.forall_mem_append, List.forall_mem_cons] at hP
    obtain ⟨hfv, hfa⟩ := List.forall_mem_append.mp (List.forall_mem_cons.mp hf).2
    have hvalue := value.parts hv hfv hP.2.2
    have ha := a.parts hu hfa hP.1
    exact ((hvalue.append ha).of_words
      (List.forall_mem_append.mpr ⟨ha.words, (hvalue.cons hP.2.1).words⟩)).expr rfl
  | .access a, _, h, hf, hP => (a.parts h (List.forall_mem_cons.mp hf).2 hP).expr rfl
  | .binary left _ right, _, ⟨_, _, hu, hv, rfl⟩, hf, hP => by
    simp only [List.forall_mem_append, List.forall_mem_cons] at hP
    obtain ⟨hfl, hfr⟩ := List.forall_mem_append.mp (List.forall_mem_cons.mp hf).2
    exact ((left.parts hu hfl hP.1).append ((right.parts hv hfr hP.2.2).cons hP.2.1)).expr rfl
  | .call callee _ es, _, ⟨_, _, hu, hv, rfl⟩, hf, hP => by
    simp only [List.forall_mem_append, List.forall_mem_cons] at hP
    obtain ⟨hfc, hfe⟩ := List.forall_mem_append.mp (List.forall_mem_cons.mp hf).2
    have hes := partsList es hv hfe hP.2.2.1
    exact ((callee.parts hu hfc hP.1).append ((hes.concat hP.2.2.2.1).cons hP.2.1)).expr rfl
  | .get object _, _, ⟨_, hu, rfl⟩, hf, hP => by
    obtain ⟨hu', hname⟩ := List.forall_mem_append.mp hP
    have hobject := object.parts hu (List.forall_mem_cons.mp hf).2 hu'
    exact (hobject.of_words (List.forall_mem_append.mpr ⟨hobject.words, hname⟩)).expr rfl
  | .set object _ value none, _, ⟨_, _, hu, hv, rfl⟩, hf, hP => by
    simp only [List.forall_mem_append, List.forall_mem_cons] at hP
    obtain ⟨hfo, hfv⟩ := List.forall_mem_append.mp (List.forall_mem_cons.mp hf).2
    have hobject := object.parts hu hfo hP.1
    have hvalue := value.parts hv (List.forall_mem_append.mp hfv).1 hP.2.2.2.2
    have hbehind := ((hvalue.cons hP.2.2.2.1).cons hP.2.2.1).cons hP.2.1
    exact ((hobject.append (hvalue.append .nil)).of_words
      (List.forall_mem_append.mpr ⟨hobject.words, hbehind.words⟩)).expr rfl
  | .set object _ value (some a), _, ⟨_, _, hu, hv, rfl⟩, hf, hP => by
    simp only [List.forall_mem_append, List.forall_mem_cons] at hP
    obtain ⟨hroot, hf⟩ := List.forall_mem_cons.mp hf
    obtain ⟨-, hf⟩ := List.forall_mem_append.mp hf
    obtain ⟨hfv, hfa⟩ := List.forall_mem_append.mp hf
    have hvalue := value.parts hv hfv hP.2.2
    have ha := a.parts hu hfa hP.1
    -- The object is a node of its own, but it is spelled as a part of the access.
    have hobject := (hvalue.append ha).more
      (List.subset_append_of_subset_right _ (ha.object_subset hroot))
    exact (hobject.of_words
      (List.forall_mem_append.mpr ⟨ha.words, (hvalue.cons hP.2.1).words⟩)).expr rfl
  | .super _ _, _, rfl, _, hP => (Parts.nil.of_words hP).expr rfl
  | .grouping inner, _, ⟨_, hu, rfl⟩, hf, hP => by
    simp only [List.forall_mem_append, List.forall_mem_cons] at hP
    have hinner := inner.parts hu (List.forall_mem_cons.mp hf).2 hP.2.1
    exact ((hinner.concat hP.2.2.1).cons hP.1).expr rfl
  | .literal _, _, rfl, _, hP => (Parts.nil.of_words hP).expr rfl
  | .logical left _ right, _, ⟨_, _, hu, hv, rfl⟩, hf, hP => by
    simp only [List.forall_mem_append, List.forall_mem_cons] at hP
    obtain ⟨hfl, hfr⟩ := List.forall_mem_append.mp (List.forall_mem_cons.mp hf).2
    exact ((left.parts hu hfl hP.1).append ((right.parts hv hfr hP.2.2).cons hP.2.1)).expr rfl
  | .this _, _, rfl, _, hP => (Parts.nil.of_words hP).expr rfl
  | .unary _ operand, _, ⟨_, hu, rfl⟩, hf, hP => by
    obtain ⟨hoperator, hP⟩ := List.forall_mem_cons.mp hP
    exact ((operand.parts hu (List.forall_mem_cons.mp hf).2 hP).cons hoperator).expr rfl
  | .var _, _, rfl, _, hP => (Parts.nil.of_words hP).expr rfl
  | .function d, _, ⟨_, hu, rfl⟩, hf, hP => by
    obtain ⟨hkeyword, hP⟩ := List.forall_mem_cons.mp hP
    exact ((d.parts hu (List.forall_mem_cons.mp hf).2 hP).cons hkeyword).expr rfl

/-- Elements and arguments, one after the other. -/
theorem partsList : ∀ (es : List Expr) {ws : List Word}, spellsList ok es ws →
    AllFormed (nodesList es) → (∀ w ∈ ws, P w) → Parts P (nodesList es) (wordsList .bare es)
  | [], _, rfl, _, _ => .nil
  | e :: es, _, ⟨_, _, hu, hv, rfl⟩, hf, hP => by
    obtain ⟨hfe, hfes⟩ := List.forall_mem_append.mp hf
    obtain ⟨hPe, hPes⟩ := List.forall_mem_append.mp hP
    rw [wordsList_bare_cons]
    exact (e.parts hu hfe hPe).append (partsList es hv hfes hPes)

/-- The entries of a dictionary, each with its key and its value. -/
theorem partsEntries : ∀ (kvs : List (Expr × Expr)) {ws : List Word}, spellsEntries ok kvs ws →
    AllFormed (nodesEntries kvs) → (∀ w ∈ ws, P w) →
    Parts P (nodesEntries kvs) (wordsEntries .bare kvs)
  | [], _, rfl, _, _ => .nil
  | (key, value) :: kvs, _, ⟨_, _, _, hu, hv, hw, rfl⟩, hf, hP => by
    simp only [List.forall_mem_append, List.forall_mem_cons] at hP
    obtain ⟨hfk, hf⟩ := List.forall_mem_append.mp hf
    obtain ⟨hfv, hfkvs⟩ := List.forall_mem_append.mp hf
    rw [wordsEntries_bare_cons]
    exact (key.parts hu hfk hP.1).append
      (((value.parts hv hfv hP.2.2.1).append (partsEntries kvs hw hfkvs hP.2.2.2)).cons hP.2.1)

/-- The object of an access and the parts between its brackets, each of which may be missing. -/
theorem Access.parts : ∀ (a : Access) {ws : List Word}, a.Spells ok ws → AllFormed a.nodes →
    (∀ w ∈ ws, P w) → Parts P a.nodes (a.words .bare)
  | ⟨object, _, first, firstColon, second, secondColon, third⟩, _,
      ⟨_, _, _, _, hu, hv₁, hv₂, hv₃, rfl⟩, hf, hP => by
    simp only [List.forall_mem_append, List.forall_mem_cons] at hP
    obtain ⟨ha, hf⟩ := List.forall_mem_cons.mp hf
    obtain ⟨hfo, hf⟩ := List.forall_mem_append.mp hf
    obtain ⟨hff, hf⟩ := List.forall_mem_append.mp hf
    obtain ⟨hfs, hft⟩ := List.forall_mem_append.mp hf
    obtain ⟨hPo, hbracket, hPf, hPs, hPt, hright, -⟩ := hP
    have hobject := object.parts hu hfo hPo
    have hfirst := parts? first hv₁ hff hPf
    have hsecond := Parts.behind (fun h => (ha.index h).2.1) (parts? second hv₂ hfs) hPs
    have hthird := Parts.behind ha.short (parts? third hv₃ hft) hPt
    have hinner := hfirst.append (hsecond.append (hthird.concat hright))
    exact (hobject.append (hinner.cons hbracket)).access

theorem parts? : ∀ (e : Option Expr) {ws : List Word}, spells? ok e ws → AllFormed (nodes? e) →
    (∀ w ∈ ws, P w) → Parts P (nodes? e) (words? .bare e)
  | none, _, rfl, _, _ => .nil
  | some e, _, h, hf, hP => e.parts h hf hP

/-- A function has the words of its name, its parameters and its body. -/
theorem FunctionDecl.parts : ∀ (d : FunctionDecl) {ws : List Word}, d.Spells ok ws →
    AllFormed d.nodes → (∀ w ∈ ws, P w) → Parts P d.nodes (d.words .bare)
  | ⟨_, _, body⟩, _, ⟨_, hu, rfl⟩, hf, hP => by
    simp only [List.forall_mem_append, List.forall_mem_cons] at hP
    obtain ⟨hname, hparen, hparameters, hclose, hu'⟩ := hP
    have hbody := (body.parts hu (List.forall_mem_cons.mp hf).2 hu').cons hclose
    exact (hbody.of_words (List.forall_mem_append.mpr ⟨hname, List.forall_mem_cons.mpr
      ⟨hparen, List.forall_mem_append.mpr ⟨hparameters, hbody.words⟩⟩⟩)).function

theorem FunctionBody.parts : ∀ (b : FunctionBody) {ws : List Word}, b.Spells ok ws →
    AllFormed b.nodes → (∀ w ∈ ws, P w) → Parts P b.nodes (b.words .bare)
  | .block ss, _, ⟨_, hu, rfl⟩, hf, hP =>
    (Parts.braced (partsLines ss hu (List.forall_mem_cons.mp hf).2) hP).stmts ss
  | .expression e, _, h, hf, hP => e.parts h hf hP

/-- The same for statements, mutual with expressions through the bodies of functions. -/
theorem Stmt.parts : ∀ (s : Stmt) {ws : List Word}, s.Spells ok ws → AllFormed s.nodes →
    (∀ w ∈ ws, P w) → Parts P s.nodes (s.words .bare)
  | .expr e, _, h, hf, hP => (e.parts h (List.forall_mem_cons.mp hf).2 hP).stmt
  | .tryCatch body _ handler, _, ⟨_, _, hu, hv, rfl⟩, hf, hP => by
    simp only [List.forall_mem_append, List.forall_mem_cons] at hP
    obtain ⟨hfb, hfh⟩ := List.forall_mem_append.mp (List.forall_mem_cons.mp hf).2
    have hbody := body.parts hu hfb hP.2.1
    have hhandler := ((handler.parts hv hfh hP.2.2.2.2).cons hP.2.2.2.1).cons hP.2.2.1
    exact ((hbody.append hhandler).cons hP.1).stmt
  | .forLoop _ initializer condition increment body, _, ⟨_, _, _, _, hu, hv₁, hv₂, hv₃, rfl⟩, hf,
      hP => by
    simp only [List.forall_mem_append, List.forall_mem_cons] at hP
    obtain ⟨hfi, hf⟩ := List.forall_mem_append.mp (List.forall_mem_cons.mp hf).2
    obtain ⟨hfc, hf⟩ := List.forall_mem_append.mp hf
    obtain ⟨hfn, hfb⟩ := List.forall_mem_append.mp hf
    obtain ⟨hkeyword, hPi, hfirst, hPc, hsecond, hPn, hPb⟩ := hP
    have hrest := (increment.parts hv₂ hfn hPn).append (body.parts hv₃ hfb hPb)
    have hcondition := (condition.parts hv₁ hfc hPc).append (hrest.cons hsecond)
    exact (((partsStmt? initializer hu hfi hPi).append (hcondition.cons hfirst)).cons hkeyword).stmt
  | .forIn _ _ collection body, _, ⟨_, _, hu, hv, rfl⟩, hf, hP => by
    simp only [List.forall_mem_append, List.forall_mem_cons] at hP
    obtain ⟨hfc, hfb⟩ := List.forall_mem_append.mp (List.forall_mem_cons.mp hf).2
    obtain ⟨hkeyword, hnames, hin, hPc, hPb⟩ := hP
    have hrest := ((collection.parts hu hfc hPc).append (body.parts hv hfb hPb)).cons hin
    exact (hrest.of_words (List.forall_mem_cons.mpr
      ⟨hkeyword, List.forall_mem_append.mpr ⟨hnames, hrest.words⟩⟩)).stmt
  | .declare _ none, _, rfl, _, hP => (Parts.nil.of_words hP).stmt
  | .declare _ (some e), _, ⟨_, hu, rfl⟩, hf, hP => by
    simp only [List.forall_mem_cons] at hP
    have he := e.parts hu (List.forall_mem_cons.mp hf).2 hP.2.2.2
    exact (((he.cons hP.2.2.1).cons hP.2.1).cons hP.1).stmt
  | .block ss, _, ⟨_, hu, rfl⟩, hf, hP => by
    obtain ⟨-, hf⟩ := List.forall_mem_cons.mp hf
    have hlines := Parts.braced (partsLines ss hu (List.forall_mem_cons.mp hf).2) hP
    exact (hlines.stmts ss).stmt
  | .whileLoop _ condition body, _, ⟨_, _, hu, hv, rfl⟩, hf, hP => by
    simp only [List.forall_mem_append, List.forall_mem_cons] at hP
    obtain ⟨hfc, hfb⟩ := List.forall_mem_append.mp (List.forall_mem_cons.mp hf).2
    exact (((condition.parts hu hfc hP.2.1).append (body.parts hv hfb hP.2.2)).cons hP.1).stmt
  | .ret _ value, _, ⟨_, hu, rfl⟩, hf, hP => by
    obtain ⟨hkeyword, hP⟩ := List.forall_mem_cons.mp hP
    exact ((parts? value hu (List.forall_mem_cons.mp hf).2 hP).cons hkeyword).stmt
  | .breakLoop _, _, rfl, _, hP => (Parts.nil.of_words hP).stmt
  | .continueLoop _, _, rfl, _, hP => (Parts.nil.of_words hP).stmt
  | .ifElse _ condition ss bs ss', _, ⟨_, _, _, _, hu, hv₁, hv₂, hv₃, rfl⟩, hf, hP => by
    obtain ⟨hfc, hf⟩ := List.forall_mem_append.mp (List.forall_mem_cons.mp hf).2
    obtain ⟨hfs, hf⟩ := List.forall_mem_append.mp (List.forall_mem_cons.mp hf).2
    obtain ⟨hfb, hfe⟩ := List.forall_mem_append.mp hf
    obtain ⟨hkeyword, hP⟩ := List.forall_mem_cons.mp hP
    obtain ⟨hPc, hP⟩ := List.forall_mem_append.mp hP
    obtain ⟨hPs, hP⟩ := List.forall_mem_append.mp hP
    obtain ⟨hPb, hPe⟩ := List.forall_mem_append.mp hP
    have hbranches := (partsElifs bs hv₂ hfb hPb).append (partsElse ss' hv₃ hfe hPe)
    have hthen := ((Parts.braced (partsLines ss hv₁ hfs) hPs).append hbranches).stmts ss
    exact (((condition.parts hu hfc hPc).append hthen).cons hkeyword).stmt
  | .function d, _, ⟨_, hu, rfl⟩, hf, hP => by
    obtain ⟨hkeyword, hP⟩ := List.forall_mem_cons.mp hP
    exact ((d.parts hu (List.forall_mem_cons.mp hf).2 hP).cons hkeyword).stmt
  | .cls d, _, h, hf, hP => (d.parts h (List.forall_mem_cons.mp hf).2 hP).stmt

theorem partsStmt? : ∀ (s : Option Stmt) {ws : List Word}, spellsStmt? ok s ws →
    AllFormed (nodesStmt? s) → (∀ w ∈ ws, P w) → Parts P (nodesStmt? s) (wordsStmt? .bare s)
  | none, _, rfl, _, _ => .nil
  | some s, _, h, hf, hP => s.parts h hf hP

/-- The lines of a block or a program. -/
theorem partsLines : ∀ (ss : List Stmt) {ws : List Word}, spellsLines ok ss ws →
    AllFormed (nodesLines ss) → (∀ w ∈ ws, P w) → Parts P (nodesLines ss) (wordsLines .bare ss)
  | [], _, rfl, _, _ => .nil
  | s :: ss, _, ⟨_, _, hu, hv, rfl⟩, hf, hP => by
    obtain ⟨hfs, hfss⟩ := List.forall_mem_append.mp hf
    obtain ⟨hPs, hPss⟩ := List.forall_mem_append.mp hP
    exact (s.parts hu hfs hPs).append (partsLines ss hv hfss hPss)

theorem partsElifs : ∀ (bs : List ElifBranch) {ws : List Word}, spellsElifs ok bs ws →
    AllFormed (nodesElifs bs) → (∀ w ∈ ws, P w) → Parts P (nodesElifs bs) (wordsElifs .bare bs)
  | [], _, rfl, _, _ => .nil
  | ⟨condition, body⟩ :: bs, _, ⟨_, _, _, hu, hv, hw, rfl⟩, hf, hP => by
    obtain ⟨hfc, hf⟩ := List.forall_mem_append.mp hf
    obtain ⟨hfb, hfbs⟩ := List.forall_mem_append.mp (List.forall_mem_cons.mp hf).2
    obtain ⟨hkeyword, hP⟩ := List.forall_mem_cons.mp hP
    obtain ⟨hPc, hP⟩ := List.forall_mem_append.mp hP
    obtain ⟨hPb, hPbs⟩ := List.forall_mem_append.mp hP
    have hbody := ((Parts.braced (partsLines body hv hfb) hPb).append
      (partsElifs bs hw hfbs hPbs)).stmts body
    exact ((condition.parts hu hfc hPc).append hbody).cons hkeyword

theorem partsElse : ∀ (ss : Option (List Stmt)) {ws : List Word}, spellsElse ok ss ws →
    AllFormed (nodesElse ss) → (∀ w ∈ ws, P w) → Parts P (nodesElse ss) (wordsElse .bare ss)
  | none, _, rfl, _, _ => .nil
  | some ss, _, ⟨_, hu, rfl⟩, hf, hP => by
    obtain ⟨hkeyword, hP⟩ := List.forall_mem_cons.mp hP
    have hlines := Parts.braced (partsLines ss hu (List.forall_mem_cons.mp hf).2) hP
    exact (hlines.cons hkeyword).stmts ss

/-- The methods of a class may be mixed with its static ones in the text. Whatever holds of all the
    words holds of each sort of methods, so the order does not matter. -/
theorem ClassDecl.parts : ∀ (d : ClassDecl) {ws : List Word}, d.Spells ok ws → AllFormed d.nodes →
    (∀ w ∈ ws, P w) → Parts P d.nodes (d.words .bare)
  | ⟨_, _, methods, statics⟩, _, ⟨us, vs, _, _, hus, hvs, _, hmixes, rfl⟩, hf, hP => by
    obtain ⟨hfm, hfs⟩ := List.forall_mem_append.mp (List.forall_mem_cons.mp hf).2
    obtain ⟨hkeyword, hP⟩ := List.forall_mem_cons.mp hP
    obtain ⟨hname, hP⟩ := List.forall_mem_cons.mp hP
    obtain ⟨hsuper, hP⟩ := List.forall_mem_append.mp hP
    have hbraced := Parts.braced (fun hinner => by
      obtain ⟨hPus, hPvs⟩ := hmixes.forall_mem hinner
      have hmethods := partsMethods methods hus hfm hPus [] nofun
      exact hmethods.append (partsMethods statics hvs hfs hPvs [.mark .kwClass]
        (List.forall_mem_singleton.mpr hkeyword))) hP
    exact (hbraced.of_words (List.forall_mem_cons.mpr ⟨hkeyword, List.forall_mem_cons.mpr
      ⟨hname, List.forall_mem_append.mpr ⟨hsuper, hbraced.words⟩⟩⟩)).cls

/-- Methods of one sort, with the words that mark them in front of each. -/
theorem partsMethods : ∀ (ds : List FunctionDecl) {us : List (List Word)}, spellsEach ok ds us →
    AllFormed (nodesMethods ds) → (∀ u ∈ us, ∀ w ∈ u, P w) → ∀ mark : List Word,
    (∀ w ∈ mark, P w) → Parts P (nodesMethods ds) (wordsMethods .bare mark ds)
  | [], _, rfl, _, _, _, _ => .nil
  | d :: ds, _, ⟨_, _, hu, hvs, rfl⟩, hf, hP, mark, hmark => by
    obtain ⟨hfd, hfds⟩ := List.forall_mem_append.mp hf
    obtain ⟨hPd, hPds⟩ := List.forall_mem_cons.mp hP
    have hd := d.parts hu hfd hPd
    have hrest := hd.append (partsMethods ds hvs hfds hPds mark hmark)
    exact hrest.of_words (List.forall_mem_append.mpr ⟨hmark, hrest.words⟩)

end

end Script
