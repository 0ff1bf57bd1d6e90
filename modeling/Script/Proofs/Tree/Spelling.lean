import Script.Proofs.Tree.Words

/-!
# `Proofs.Tree.Spelling` — the ways a tree can be written

A tree does not say in which order a class has its methods: those of instances and those of the
class itself may be mixed. So a tree can be written in more than one way. `Spells ok` is the
relation between trees and lists of words in which every class has its methods in some order that is
`ok`; an order says for each method whether it belongs to the class itself. If only orders with the
methods of instances first are `ok`, the words are those of the bare style (`words_of_spells`).
-/

namespace Script

/-- The words of methods of both sorts, mixed in an order. -/
inductive Mixes : List Bool → List (List Word) → List (List Word) → List Word → Prop
  | nil : Mixes [] [] [] []
  | method {order us vs ws} {u : List Word} : Mixes order us vs ws →
      Mixes (false :: order) (u :: us) vs (u ++ ws)
  | static {order us vs ws} {v : List Word} : Mixes order us vs ws →
      Mixes (true :: order) us (v :: vs) (.mark .kwClass :: (v ++ ws))

variable (ok : List Bool → Prop)

mutual

/-- The words spell the expression. -/
def Expr.Spells : Expr → List Word → Prop
  | .list elements bracket, ws =>
    ∃ u, spellsList elements u ∧ ws = .mark .leftBracket :: (u ++ [bracket.word])
  | .dict entries brace, ws =>
    ∃ u, spellsEntries entries u ∧ ws = .mark .leftBrace :: (u ++ [brace.word])
  | .assign name value none, ws => ∃ v, value.Spells v ∧ ws = name.word :: .mark .equal :: v
  | .assign _ value (some a), ws =>
    ∃ u v, a.Spells u ∧ value.Spells v ∧ ws = u ++ .mark .equal :: v
  | .access a, ws => a.Spells ws
  | .binary left operator right, ws =>
    ∃ u v, left.Spells u ∧ right.Spells v ∧ ws = u ++ operator.word :: v
  | .call callee paren arguments, ws =>
    ∃ u v, callee.Spells u ∧ spellsList arguments v
      ∧ ws = u ++ .mark .leftParen :: (v ++ [paren.word])
  | .get object name, ws => ∃ u, object.Spells u ∧ ws = u ++ [.mark .dot, name.word]
  | .set object name value none, ws =>
    ∃ u v, object.Spells u ∧ value.Spells v
      ∧ ws = u ++ .mark .dot :: name.word :: .mark .equal :: v
  | .set _ _ value (some a), ws =>
    ∃ u v, a.Spells u ∧ value.Spells v ∧ ws = u ++ .mark .equal :: v
  | .super keyword method, ws => ws = [keyword.word, .mark .dot, method.word]
  | .grouping inner, ws =>
    ∃ u, inner.Spells u ∧ ws = .mark .leftParen :: (u ++ [.mark .rightParen])
  | .literal c, ws => ws = [c.word]
  | .logical left operator right, ws =>
    ∃ u v, left.Spells u ∧ right.Spells v ∧ ws = u ++ operator.word :: v
  | .this keyword, ws => ws = [keyword.word]
  | .unary operator operand, ws => ∃ u, operand.Spells u ∧ ws = operator.word :: u
  | .var name, ws => ws = [name.word]
  | .function d, ws => ∃ u, d.Spells u ∧ ws = .mark .kwFn :: u

/-- The words spell the expressions. -/
def spellsList : List Expr → List Word → Prop
  | [], ws => ws = []
  | e :: rest, ws => ∃ u v, e.Spells u ∧ spellsList rest v ∧ ws = u ++ v

/-- The words spell the entries of a dictionary. -/
def spellsEntries : List (Expr × Expr) → List Word → Prop
  | [], ws => ws = []
  | (key, value) :: rest, ws =>
    ∃ u v w, key.Spells u ∧ value.Spells v ∧ spellsEntries rest w
      ∧ ws = u ++ .mark .colon :: (v ++ w)

/-- The words spell the index or slice. -/
def Access.Spells : Access → List Word → Prop
  | ⟨object, bracket, first, firstColon, second, secondColon, third⟩, ws =>
    ∃ u v₁ v₂ v₃, object.Spells u ∧ spells? first v₁ ∧ spells? second v₂ ∧ spells? third v₃
      ∧ ws = u ++ bracket.word :: (v₁ ++ (wordsBehind firstColon v₂
        ++ (wordsBehind secondColon v₃ ++ [.mark .rightBracket])))

/-- The words spell the expression, if it is there. -/
def spells? : Option Expr → List Word → Prop
  | none, ws => ws = []
  | some e, ws => e.Spells ws

/-- The words spell the function from its name on. -/
def FunctionDecl.Spells : FunctionDecl → List Word → Prop
  | ⟨name, parameters, body⟩, ws =>
    ∃ u, body.Spells u ∧ ws = wordsToken? name
      ++ .mark .leftParen :: (wordsNames .bare parameters ++ .mark .rightParen :: u)

/-- The words spell what a function does. -/
def FunctionBody.Spells : FunctionBody → List Word → Prop
  | .block statements, ws => ∃ u, spellsLines statements u ∧ ws = wordsBraced .bare u
  | .expression e, ws => e.Spells ws

/-- The words spell the statement. -/
def Stmt.Spells : Stmt → List Word → Prop
  | .expr e, ws => e.Spells ws
  | .tryCatch body name handler, ws =>
    ∃ u v, body.Spells u ∧ handler.Spells v
      ∧ ws = .mark .kwTry :: (u ++ .mark .kwCatch :: name.word :: v)
  | .forLoop keyword initializer condition increment body, ws =>
    ∃ u v₁ v₂ v₃, spellsStmt? initializer u ∧ condition.Spells v₁ ∧ increment.Spells v₂
      ∧ body.Spells v₃ ∧ ws = keyword.word :: (u ++ .mark .semicolon ::
        (v₁ ++ .mark .semicolon :: (v₂ ++ v₃)))
  | .forIn keyword identifiers collection body, ws =>
    ∃ u v, collection.Spells u ∧ body.Spells v
      ∧ ws = keyword.word :: (wordsNames .bare identifiers ++ .mark .kwIn :: (u ++ v))
  | .declare name none, ws => ws = [.mark .kwLet, name.word]
  | .declare name (some e), ws =>
    ∃ u, e.Spells u ∧ ws = .mark .kwLet :: name.word :: .mark .equal :: u
  | .block statements, ws => ∃ u, spellsLines statements u ∧ ws = wordsBraced .bare u
  | .whileLoop keyword condition body, ws =>
    ∃ u v, condition.Spells u ∧ body.Spells v ∧ ws = keyword.word :: (u ++ v)
  | .ret keyword value, ws => ∃ u, spells? value u ∧ ws = keyword.word :: u
  | .breakLoop keyword, ws => ws = [keyword.word]
  | .continueLoop keyword, ws => ws = [keyword.word]
  | .ifElse keyword condition thenBranch elifs elseBranch, ws =>
    ∃ u v₁ v₂ v₃, condition.Spells u ∧ spellsLines thenBranch v₁ ∧ spellsElifs elifs v₂
      ∧ spellsElse elseBranch v₃
      ∧ ws = keyword.word :: (u ++ (wordsBraced .bare v₁ ++ (v₂ ++ v₃)))
  | .function d, ws => ∃ u, d.Spells u ∧ ws = .mark .kwFn :: u
  | .cls d, ws => d.Spells ws

/-- The words spell the statement, if it is there. -/
def spellsStmt? : Option Stmt → List Word → Prop
  | none, ws => ws = []
  | some s, ws => s.Spells ws

/-- The words spell the statements. -/
def spellsLines : List Stmt → List Word → Prop
  | [], ws => ws = []
  | s :: rest, ws => ∃ u v, s.Spells u ∧ spellsLines rest v ∧ ws = u ++ v

/-- The words spell the `elif` branches. -/
def spellsElifs : List ElifBranch → List Word → Prop
  | [], ws => ws = []
  | ⟨condition, body⟩ :: rest, ws =>
    ∃ u v w, condition.Spells u ∧ spellsLines body v ∧ spellsElifs rest w
      ∧ ws = .mark .kwElif :: (u ++ (wordsBraced .bare v ++ w))

/-- The words spell the `else` branch, if it is there. -/
def spellsElse : Option (List Stmt) → List Word → Prop
  | none, ws => ws = []
  | some statements, ws =>
    ∃ u, spellsLines statements u ∧ ws = .mark .kwElse :: wordsBraced .bare u

/-- The words spell the class with its methods in an order that is `ok`. -/
def ClassDecl.Spells : ClassDecl → List Word → Prop
  | ⟨name, superClass, methods, staticMethods⟩, ws =>
    ∃ us vs order u, spellsEach methods us ∧ spellsEach staticMethods vs ∧ ok order
      ∧ Mixes order us vs u
      ∧ ws = .mark .kwClass :: name.word :: (wordsSuper superClass ++ wordsBraced .bare u)

/-- The lists of words spell the functions. -/
def spellsEach : List FunctionDecl → List (List Word) → Prop
  | [], us => us = []
  | d :: rest, us => ∃ u vs, d.Spells u ∧ spellsEach rest vs ∧ us = u :: vs

end

/-! ## Methods of instances first -/

/-- No method of the class itself stands before a method of instances. -/
def StaticsLast (order : List Bool) : Prop := order.Pairwise fun a b => a = true → b = true

instance (order : List Bool) : Decidable (StaticsLast order) :=
  inferInstanceAs (Decidable (List.Pairwise _ order))

/-- In an order with static methods only there are no other ones. -/
theorem Mixes.eq_nil_of_all {order : List Bool} {us vs : List (List Word)} {ws : List Word}
    (h : Mixes order us vs ws) (hall : ∀ b ∈ order, b = true) : us = [] := by
  induction h with
  | nil => rfl
  | method _ _ => cases hall false List.mem_cons_self
  | static _ ih => exact ih fun b hb => hall b (List.mem_cons_of_mem _ hb)

/-- If static methods come last, the words are those of the methods of instances and then those of
    the static ones, each behind `class`. -/
theorem Mixes.eq_append {order : List Bool} {us vs : List (List Word)} {ws : List Word}
    (h : Mixes order us vs ws) (horder : StaticsLast order) :
    ws = us.flatten ++ (vs.map (Word.mark .kwClass :: ·)).flatten := by
  induction h with
  | nil => rfl
  | method _ ih =>
      rw [ih (List.pairwise_cons.mp horder).2]
      simp
  | static h ih =>
      obtain ⟨hall, horder⟩ := List.pairwise_cons.mp horder
      -- only methods of the class are left
      obtain rfl := h.eq_nil_of_all fun b hb => hall b hb rfl
      rw [ih horder]
      simp

theorem wordsNames_bare_cons (t : Token) (ts : List Token) :
    wordsNames .bare (t :: ts) = t.word :: wordsNames .bare ts := by
  cases ts <;> rfl

theorem wordsList_bare_cons (e : Expr) (es : List Expr) :
    wordsList .bare (e :: es) = e.words .bare ++ wordsList .bare es := by
  cases es with
  | nil => simp [wordsList]
  | cons e' es => simp [wordsList, Style.bare]

theorem wordsEntries_bare_cons (key value : Expr) (kvs : List (Expr × Expr)) :
    wordsEntries .bare ((key, value) :: kvs)
      = key.words .bare ++ .mark .colon :: (value.words .bare ++ wordsEntries .bare kvs) := by
  cases kvs with
  | nil => simp [wordsEntries]
  | cons kv kvs => simp [wordsEntries, Style.bare]

mutual

/-- An expression whose classes have their static methods last is spelled by its words in the bare
    style only. -/
theorem Expr.words_of_spells : ∀ (e : Expr) {ws : List Word}, e.Spells StaticsLast ws →
    ws = e.words .bare
  | .list _ _, _, ⟨_, hu, rfl⟩ => by rw [Expr.words, spellsList_eq _ hu]
  | .dict _ _, _, ⟨_, hu, rfl⟩ => by rw [Expr.words, spellsEntries_eq _ hu]
  | .assign _ value none, _, ⟨_, hv, rfl⟩ => by rw [Expr.words, value.words_of_spells hv]
  | .assign _ value (some a), _, ⟨_, _, hu, hv, rfl⟩ => by
    rw [Expr.words, a.words_of_spells hu, value.words_of_spells hv]
  | .access a, _, h => a.words_of_spells h
  | .binary left _ right, _, ⟨_, _, hu, hv, rfl⟩ => by
    rw [Expr.words, left.words_of_spells hu, right.words_of_spells hv]
  | .call callee _ _, _, ⟨_, _, hu, hv, rfl⟩ => by
    rw [Expr.words, callee.words_of_spells hu, spellsList_eq _ hv]
  | .get object _, _, ⟨_, hu, rfl⟩ => by rw [Expr.words, object.words_of_spells hu]
  | .set object _ value none, _, ⟨_, _, hu, hv, rfl⟩ => by
    rw [Expr.words, object.words_of_spells hu, value.words_of_spells hv]
  | .set _ _ value (some a), _, ⟨_, _, hu, hv, rfl⟩ => by
    rw [Expr.words, a.words_of_spells hu, value.words_of_spells hv]
  | .super _ _, _, rfl => rfl
  | .grouping inner, _, ⟨_, hu, rfl⟩ => by rw [Expr.words, inner.words_of_spells hu]
  | .literal _, _, rfl => rfl
  | .logical left _ right, _, ⟨_, _, hu, hv, rfl⟩ => by
    rw [Expr.words, left.words_of_spells hu, right.words_of_spells hv]
  | .this _, _, rfl => rfl
  | .unary _ operand, _, ⟨_, hu, rfl⟩ => by rw [Expr.words, operand.words_of_spells hu]
  | .var _, _, rfl => rfl
  | .function d, _, ⟨_, hu, rfl⟩ => by rw [Expr.words, d.words_of_spells hu]

theorem spellsList_eq : ∀ (es : List Expr) {ws : List Word}, spellsList StaticsLast es ws →
    ws = wordsList .bare es
  | [], _, rfl => rfl
  | e :: es, _, ⟨_, _, hu, hv, rfl⟩ => by
    rw [wordsList_bare_cons, e.words_of_spells hu, spellsList_eq es hv]

theorem spellsEntries_eq : ∀ (kvs : List (Expr × Expr)) {ws : List Word},
    spellsEntries StaticsLast kvs ws → ws = wordsEntries .bare kvs
  | [], _, rfl => rfl
  | (key, value) :: kvs, _, ⟨_, _, _, hu, hv, hw, rfl⟩ => by
    rw [wordsEntries_bare_cons, key.words_of_spells hu, value.words_of_spells hv,
      spellsEntries_eq kvs hw]

theorem Access.words_of_spells : ∀ (a : Access) {ws : List Word}, a.Spells StaticsLast ws →
    ws = a.words .bare
  | ⟨object, _, first, _, second, _, third⟩, _, ⟨_, _, _, _, hu, hv₁, hv₂, hv₃, rfl⟩ => by
    rw [Access.words, object.words_of_spells hu, spells?_eq first hv₁, spells?_eq second hv₂,
      spells?_eq third hv₃]

theorem spells?_eq : ∀ (e : Option Expr) {ws : List Word}, spells? StaticsLast e ws →
    ws = words? .bare e
  | none, _, rfl => rfl
  | some e, _, h => e.words_of_spells h

theorem FunctionDecl.words_of_spells : ∀ (d : FunctionDecl) {ws : List Word},
    d.Spells StaticsLast ws → ws = d.words .bare
  | ⟨_, _, body⟩, _, ⟨_, hu, rfl⟩ => by rw [FunctionDecl.words, body.words_of_spells hu]

theorem FunctionBody.words_of_spells : ∀ (b : FunctionBody) {ws : List Word},
    b.Spells StaticsLast ws → ws = b.words .bare
  | .block _, _, ⟨_, hu, rfl⟩ => by rw [FunctionBody.words, spellsLines_eq _ hu]
  | .expression e, _, h => e.words_of_spells h

/-- The same for statements. -/
theorem Stmt.words_of_spells : ∀ (s : Stmt) {ws : List Word}, s.Spells StaticsLast ws →
    ws = s.words .bare
  | .expr e, _, h => e.words_of_spells h
  | .tryCatch body _ handler, _, ⟨_, _, hu, hv, rfl⟩ => by
    rw [Stmt.words, body.words_of_spells hu, handler.words_of_spells hv]
  | .forLoop _ initializer condition increment body, _, ⟨_, _, _, _, hu, hv₁, hv₂, hv₃, rfl⟩ => by
    rw [Stmt.words, spellsStmt?_eq initializer hu, condition.words_of_spells hv₁,
      increment.words_of_spells hv₂, body.words_of_spells hv₃]
  | .forIn _ _ collection body, _, ⟨_, _, hu, hv, rfl⟩ => by
    rw [Stmt.words, collection.words_of_spells hu, body.words_of_spells hv]
  | .declare _ none, _, rfl => rfl
  | .declare _ (some e), _, ⟨_, hu, rfl⟩ => by rw [Stmt.words, e.words_of_spells hu]
  | .block _, _, ⟨_, hu, rfl⟩ => by rw [Stmt.words, spellsLines_eq _ hu]
  | .whileLoop _ condition body, _, ⟨_, _, hu, hv, rfl⟩ => by
    rw [Stmt.words, condition.words_of_spells hu, body.words_of_spells hv]
  | .ret _ value, _, ⟨_, hu, rfl⟩ => by rw [Stmt.words, spells?_eq value hu]
  | .breakLoop _, _, rfl => rfl
  | .continueLoop _, _, rfl => rfl
  | .ifElse _ condition _ _ _, _, ⟨_, _, _, _, hu, hv₁, hv₂, hv₃, rfl⟩ => by
    rw [Stmt.words, condition.words_of_spells hu, spellsLines_eq _ hv₁, spellsElifs_eq _ hv₂,
      spellsElse_eq _ hv₃]
  | .function d, _, ⟨_, hu, rfl⟩ => by rw [Stmt.words, d.words_of_spells hu]
  | .cls d, _, h => d.words_of_spells h

theorem spellsStmt?_eq : ∀ (s : Option Stmt) {ws : List Word}, spellsStmt? StaticsLast s ws →
    ws = wordsStmt? .bare s
  | none, _, rfl => rfl
  | some s, _, h => s.words_of_spells h

/-- The same for the lines of a block. -/
theorem spellsLines_eq : ∀ (ss : List Stmt) {ws : List Word}, spellsLines StaticsLast ss ws →
    ws = wordsLines .bare ss
  | [], _, rfl => rfl
  | s :: ss, _, ⟨_, _, hu, hv, rfl⟩ => by
    rw [wordsLines, s.words_of_spells hu, spellsLines_eq ss hv]
    rfl

theorem spellsElifs_eq : ∀ (bs : List ElifBranch) {ws : List Word}, spellsElifs StaticsLast bs ws →
    ws = wordsElifs .bare bs
  | [], _, rfl => rfl
  | ⟨condition, _⟩ :: bs, _, ⟨_, _, _, hu, hv, hw, rfl⟩ => by
    rw [wordsElifs, condition.words_of_spells hu, spellsLines_eq _ hv, spellsElifs_eq bs hw]

theorem spellsElse_eq : ∀ (ss : Option (List Stmt)) {ws : List Word}, spellsElse StaticsLast ss ws →
    ws = wordsElse .bare ss
  | none, _, rfl => rfl
  | some _, _, ⟨_, hu, rfl⟩ => by rw [wordsElse, spellsLines_eq _ hu]

/-- At a class the order is used: no other one than that of the bare style is left. -/
theorem ClassDecl.words_of_spells : ∀ (d : ClassDecl) {ws : List Word}, d.Spells StaticsLast ws →
    ws = d.words .bare
  | ⟨_, _, methods, staticMethods⟩, _, ⟨_, _, _, _, hus, hvs, horder, hmixes, rfl⟩ => by
    rw [ClassDecl.words, hmixes.eq_append horder, spellsEach_eq methods hus [],
      spellsEach_eq staticMethods hvs [.mark .kwClass]]
    simp

/-- Each function is spelled by its own words, so the words of all are these one after the other,
    with the mark in front. -/
theorem spellsEach_eq : ∀ (ds : List FunctionDecl) {us : List (List Word)},
    spellsEach StaticsLast ds us → ∀ mark : List Word,
      wordsMethods .bare mark ds = (us.map (mark ++ ·)).flatten
  | [], _, rfl, _ => rfl
  | d :: ds, _, ⟨_, _, hu, hvs, rfl⟩, mark => by
    rw [wordsMethods, spellsEach_eq ds hvs mark, d.words_of_spells hu]
    simp [Style.bare]

end

end Script
