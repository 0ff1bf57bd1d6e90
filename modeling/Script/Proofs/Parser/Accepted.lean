import Script.Proofs.Parser.Flattening
import Script.Proofs.Parser.Formed
import Script.Proofs.Tree.Parts

/-!
# `Proofs.Parser.Accepted` — the parts of a program that was read from a source

Two facts are known of an accepted program: each of its parts is formed, and its words are those of
the tokens of the source. Together they say something of every part: what holds of the words of
genuine tokens holds of the words of the part.

So a program declares no name that is a reserved word (`allBind_of_compile`).
-/

namespace Script

theorem mem_withInit : ∀ {ws : List Word} {w : Word}, w ∈ withInit ws →
    w ∈ ws ∨ w = .mark .dot ∨ w = .name "init"
  | [], _, h => nomatch h
  | _ :: ws, _, h => by
    unfold withInit at h
    split at h
    · simp only [List.mem_cons] at h ⊢
      obtain rfl | rfl | rfl | h := h
      · exact .inl (.inl rfl)
      · exact .inr (.inl rfl)
      · exact .inr (.inr rfl)
      · exact (mem_withInit h).imp_left .inr
    · obtain rfl | h := List.mem_cons.mp h
      · exact .inl List.mem_cons_self
      · exact (mem_withInit h).imp_left (List.mem_cons_of_mem _)

/-- What holds of the words of tokens, and of the two words that are added to `super(`, holds of
    all that a tree keeps. -/
theorem forall_spokenWords {P : Word → Prop} {ts : List Token}
    (hts : ∀ t ∈ ts, t.kind ≠ .newline → P t.word) (hdot : P (.mark .dot))
    (hinit : P (.name "init")) : ∀ w ∈ spokenWords ts, P w := by
  intro w hw
  obtain hw | rfl | rfl := mem_withInit hw
  · obtain ⟨hmem, hseparates⟩ := List.mem_filter.mp hw
    obtain ⟨t, ht, rfl⟩ := List.mem_map.mp hmem
    refine hts t ht fun hkind => ?_
    rw [Token.word_kind, hkind] at hseparates
    cases hseparates
  · exact hdot
  · exact hinit

/-- The parts of a parsed program are formed, and their words are those of genuine tokens. -/
theorem parts_of_parse {P : Word → Prop} {source : String} {program : Program}
    (hparse : parse (tokenize source).1 = .ok program)
    (htokens : ∀ t ∈ (tokenize source).1, t.Genuine → t.kind ≠ .newline → P t.word)
    (hdot : P (.mark .dot)) (hinit : P (.name "init")) :
    AllFormed program.nodes ∧ Parts P (nodesLines program) (program.words .bare) := by
  obtain ⟨ts, line, heq, hgenuine⟩ := tokenize_eq source
  rw [heq] at hparse htokens
  have hreads := Iff.mp parse_eq_ok_iff hparse
  rw [beforeEnd_append_eof hgenuine] at hreads
  obtain ⟨hformed, hsettled, -⟩ := hreads.formed
  have hlawful : Lawful (fun _ => True) ts := ⟨hgenuine, fun _ _ _ => trivial⟩
  have hwords := forall_spokenWords
    (fun t ht => htokens t (List.mem_append_left _ ht) (hgenuine t ht)) hdot hinit
  exact ⟨List.forall_mem_cons.mpr ⟨hsettled, hformed⟩,
    partsLines program (spells_of_reads hlawful hreads) hformed hwords⟩

/-! ## Names that are declared -/

/-- The text is no reserved word. -/
abbrev Unreserved (name : String) : Prop := TokenKind.ofWord name = .identifier

/-- If the word is a name, it is no reserved word. -/
def Word.Unreserved (w : Word) : Prop :=
  w.kind = .identifier → ∃ lexeme, w = .name lexeme ∧ Script.Unreserved lexeme

theorem Token.Genuine.unreserved {t : Token} (h : t.Genuine) : t.word.Unreserved := by
  intro hkind
  cases h with
  | mark hmark =>
      obtain rfl := hkind
      cases hmark
  | name hc hcs hword => exact ⟨_, rfl, hword⟩
  | _ => cases hkind

/-- A name among the words of a part is no reserved word. -/
theorem Token.unreserved {t : Token} {ws : List Word} (hname : t.isName = true) (ht : t.word ∈ ws)
    (hws : ∀ w ∈ ws, w.Unreserved) : Script.Unreserved t.lexeme := by
  obtain ⟨lexeme, hword, hlexeme⟩ := hws t.word ht (eq_of_beq hname)
  have hmeaning := congrArg Word.meaning hword
  unfold Token.word Word.name at hmeaning
  dsimp only at hmeaning
  split at hmeaning
  · cases hmeaning
  · cases hmeaning
    exact hlexeme

theorem word_mem_wordsNames {ts : List Token} {t : Token} (ht : t ∈ ts) :
    t.word ∈ wordsNames .bare ts := by
  induction ts with
  | nil => cases ht
  | cons t' ts ih =>
      rw [wordsNames_bare_cons]
      obtain rfl | ht := List.mem_cons.mp ht
      · exact List.mem_cons_self
      · exact List.mem_cons_of_mem _ (ih ht)

/-- A function is known by a name or as `anonymous`. -/
theorem FunctionDecl.title_unreserved {d : FunctionDecl}
    (hname : ∀ t ∈ d.name, Script.Unreserved t.lexeme) : Script.Unreserved d.title := by
  unfold FunctionDecl.title
  cases h : d.name with
  | none => decide
  | some t => exact hname t h

/-- The names that a formed part declares are no reserved words if its words are not. -/
theorem Node.Formed.unreserved {n : Node} (hf : n.Formed) (hwords : ∀ w ∈ n.words, w.Unreserved) :
    ∀ x ∈ n.binders, Script.Unreserved x := by
  unfold Node.binders
  split
  · rename_i name value
    exact List.forall_mem_singleton.mpr (Token.unreserved hf List.mem_cons_self hwords)
  · rename_i d
    obtain ⟨name, parameters, body⟩ := d
    have hname : ∀ t ∈ name, Script.Unreserved t.lexeme := by
      rintro t ht
      cases ht
      exact Token.unreserved (hf.name t rfl) List.mem_cons_self hwords
    have hparameters : ∀ t ∈ parameters, Script.Unreserved t.lexeme := fun t ht =>
      Token.unreserved (hf.parameters t ht) (List.mem_append_right _ (List.mem_cons_of_mem _
        (List.mem_append_left _ (word_mem_wordsNames ht)))) hwords
    exact List.forall_mem_cons.mpr
      ⟨FunctionDecl.title_unreserved hname, List.forall_mem_map.mpr hparameters⟩
  · rename_i body name handler
    refine List.forall_mem_singleton.mpr (Token.unreserved hf ?_ hwords)
    exact List.mem_cons_of_mem _ (List.mem_append_right _ (List.mem_cons_of_mem _ List.mem_cons_self))
  · rename_i keyword identifiers collection body
    refine List.forall_mem_map.mpr fun t ht => Token.unreserved (hf.2.1 t ht) ?_ hwords
    exact List.mem_cons_of_mem _ (List.mem_append_left _ (word_mem_wordsNames ht))
  · rename_i name initializer
    refine List.forall_mem_singleton.mpr (Token.unreserved hf ?_ hwords)
    cases initializer with
    | none => exact List.mem_cons_of_mem _ List.mem_cons_self
    | some e => exact List.mem_cons_of_mem _ List.mem_cons_self
  · rename_i d
    obtain ⟨name, superClass, methods, staticMethods⟩ := d
    refine List.forall_mem_singleton.mpr (Token.unreserved hf.name ?_ hwords)
    exact List.mem_cons_of_mem _ List.mem_cons_self
  · exact List.forall_mem_nil _

/-- An accepted program declares and assigns to no name that is a reserved word. -/
theorem allBind_of_compile {source : String} {program : Program}
    (hcompile : compile source = .ok program) : AllBind Unreserved (nodesLines program) := by
  have hparse : parse (tokenize source).1 = .ok program :=
    Iff.mpr parse_eq_ok_iff (Iff.mp compile_eq_ok_iff hcompile).2
  obtain ⟨hformed, hparts⟩ := parts_of_parse hparse (fun _ _ ht _ => ht.unreserved)
    nofun fun _ => ⟨"init", rfl, by decide⟩
  exact fun n hn => (hformed n (List.mem_cons_of_mem _ hn)).unreserved (hparts.inner n hn)

end Script
