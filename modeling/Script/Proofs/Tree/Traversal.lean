import Script.Tree.Source

/-!
# `Proofs.Tree.Traversal` — rebuilding trees

`map f g` rebuilds a tree from its leaves up: `f` is applied to every token that the tree keeps, and
`g` to every expression once its parts are rebuilt. Taking lines away (`unlined`), taking groupings
away (`erased`) and adding the groupings that a printed tree shows (`grouped`) are three such maps.

Two laws are proved for all maps: a map after a map is one map, if the second undoes what the first
does to expressions (`map_map`), and a map that changes no printed part changes no printed text
(`source_map`).
-/

namespace Script

variable (f : Token → Token) (g : Expr → Expr)

mutual

/-- Rebuilds an expression. -/
def Expr.map : Expr → Expr
  | .list elements bracket => g (.list (mapList elements) (f bracket))
  | .dict entries brace => g (.dict (mapEntries entries) (f brace))
  | .assign name value access => g (.assign (f name) value.map (mapAccess? access))
  | .access a => g (.access a.map)
  | .binary left operator right => g (.binary left.map (f operator) right.map)
  | .call callee paren arguments => g (.call callee.map (f paren) (mapList arguments))
  | .get object name => g (.get object.map (f name))
  | .set object name value access => g (.set object.map (f name) value.map (mapAccess? access))
  | .super keyword method => g (.super (f keyword) (f method))
  | .grouping inner => g (.grouping inner.map)
  | .literal c => g (.literal c)
  | .logical left operator right => g (.logical left.map (f operator) right.map)
  | .this keyword => g (.this (f keyword))
  | .unary operator operand => g (.unary (f operator) operand.map)
  | .var name => g (.var (f name))
  | .function d => g (.function d.map)

/-- Rebuilds expressions. -/
def mapList : List Expr → List Expr
  | [] => []
  | e :: rest => e.map :: mapList rest

/-- Rebuilds the entries of a dictionary. -/
def mapEntries : List (Expr × Expr) → List (Expr × Expr)
  | [] => []
  | (key, value) :: rest => (key.map, value.map) :: mapEntries rest

/-- Rebuilds an index or a slice. -/
def Access.map : Access → Access
  | ⟨object, bracket, first, firstColon, second, secondColon, third⟩ =>
    ⟨object.map, f bracket, map? first, firstColon.map f, map? second, secondColon.map f, map? third⟩

/-- Rebuilds an access that may be missing. -/
def mapAccess? : Option Access → Option Access
  | none => none
  | some a => some a.map

/-- Rebuilds an expression that may be missing. -/
def map? : Option Expr → Option Expr
  | none => none
  | some e => some e.map

/-- Rebuilds a function. -/
def FunctionDecl.map : FunctionDecl → FunctionDecl
  | ⟨name, parameters, body⟩ => ⟨name.map f, parameters.map f, body.map⟩

/-- Rebuilds what a function does. -/
def FunctionBody.map : FunctionBody → FunctionBody
  | .block statements => .block (mapLines statements)
  | .expression e => .expression e.map

/-- Rebuilds a statement. -/
def Stmt.map : Stmt → Stmt
  | .expr e => .expr e.map
  | .tryCatch body name handler => .tryCatch body.map (f name) handler.map
  | .forLoop keyword initializer condition increment body =>
    .forLoop (f keyword) (mapStmt? initializer) condition.map increment.map body.map
  | .forIn keyword identifiers collection body =>
    .forIn (f keyword) (identifiers.map f) collection.map body.map
  | .declare name initializer => .declare (f name) (map? initializer)
  | .block statements => .block (mapLines statements)
  | .whileLoop keyword condition body => .whileLoop (f keyword) condition.map body.map
  | .ret keyword value => .ret (f keyword) (map? value)
  | .breakLoop keyword => .breakLoop (f keyword)
  | .continueLoop keyword => .continueLoop (f keyword)
  | .ifElse keyword condition thenBranch elifs elseBranch =>
    .ifElse (f keyword) condition.map (mapLines thenBranch) (mapElifs elifs) (mapElse elseBranch)
  | .function d => .function d.map
  | .cls d => .cls d.map

/-- Rebuilds a statement that may be missing. -/
def mapStmt? : Option Stmt → Option Stmt
  | none => none
  | some s => some s.map

/-- Rebuilds statements. -/
def mapLines : List Stmt → List Stmt
  | [] => []
  | s :: rest => s.map :: mapLines rest

/-- Rebuilds `elif` branches. -/
def mapElifs : List ElifBranch → List ElifBranch
  | [] => []
  | ⟨condition, body⟩ :: rest => ⟨condition.map, mapLines body⟩ :: mapElifs rest

/-- Rebuilds an `else` branch that may be missing. -/
def mapElse : Option (List Stmt) → Option (List Stmt)
  | none => none
  | some statements => some (mapLines statements)

/-- Rebuilds a class. -/
def ClassDecl.map : ClassDecl → ClassDecl
  | ⟨name, superClass, methods, staticMethods⟩ =>
    ⟨f name, superClass.map f, mapMethods methods, mapMethods staticMethods⟩

/-- Rebuilds methods. -/
def mapMethods : List FunctionDecl → List FunctionDecl
  | [] => []
  | d :: rest => d.map :: mapMethods rest

end

variable {f g}

/-! ## A map after a map -/

section MapMap

set_option linter.unusedSectionVars false

variable {f' : Token → Token} {g' : Expr → Expr} (h : ∀ e, (g e).map f' g' = e.map f' g')
include h

mutual

/-- A map after a map is one map, which does to each token what both do. What the first one does to
    an expression the second one undoes, by `h`, so that only its own function of expressions is
    left. -/
theorem Expr.map_map : ∀ e : Expr, (e.map f g).map f' g' = e.map (f' ∘ f) g'
  | .list es _ => by simp only [Expr.map, h, mapList_mapList es, Function.comp]
  | .dict kvs _ => by simp only [Expr.map, h, mapEntries_mapEntries kvs, Function.comp]
  | .assign _ value access => by
    simp only [Expr.map, h, value.map_map, mapAccess?_mapAccess? access, Function.comp]
  | .access a => by simp only [Expr.map, h, a.map_map]
  | .binary left _ right => by simp only [Expr.map, h, left.map_map, right.map_map, Function.comp]
  | .call callee _ es => by
    simp only [Expr.map, h, callee.map_map, mapList_mapList es, Function.comp]
  | .get object _ => by simp only [Expr.map, h, object.map_map, Function.comp]
  | .set object _ value access => by
    simp only [Expr.map, h, object.map_map, value.map_map, mapAccess?_mapAccess? access,
      Function.comp]
  | .super _ _ => by simp only [Expr.map, h, Function.comp]
  | .grouping inner => by simp only [Expr.map, h, inner.map_map]
  | .literal _ => by simp only [Expr.map, h]
  | .logical left _ right => by simp only [Expr.map, h, left.map_map, right.map_map, Function.comp]
  | .this _ => by simp only [Expr.map, h, Function.comp]
  | .unary _ operand => by simp only [Expr.map, h, operand.map_map, Function.comp]
  | .var _ => by simp only [Expr.map, h, Function.comp]
  | .function d => by simp only [Expr.map, h, d.map_map]

theorem mapList_mapList : ∀ es : List Expr, mapList f' g' (mapList f g es) = mapList (f' ∘ f) g' es
  | [] => rfl
  | e :: es => by simp only [mapList, e.map_map, mapList_mapList es]

theorem mapEntries_mapEntries : ∀ kvs : List (Expr × Expr),
    mapEntries f' g' (mapEntries f g kvs) = mapEntries (f' ∘ f) g' kvs
  | [] => rfl
  | (key, value) :: kvs => by
    simp only [mapEntries, key.map_map, value.map_map, mapEntries_mapEntries kvs]

theorem Access.map_map : ∀ a : Access, (a.map f g).map f' g' = a.map (f' ∘ f) g'
  | ⟨object, _, first, _, second, _, third⟩ => by
    simp only [Access.map, object.map_map, map?_map? first, map?_map? second, map?_map? third,
      Option.map_map, Function.comp]

theorem mapAccess?_mapAccess? : ∀ a : Option Access,
    mapAccess? f' g' (mapAccess? f g a) = mapAccess? (f' ∘ f) g' a
  | none => rfl
  | some a => by simp only [mapAccess?, a.map_map]

theorem map?_map? : ∀ e : Option Expr, map? f' g' (map? f g e) = map? (f' ∘ f) g' e
  | none => rfl
  | some e => by simp only [map?, e.map_map]

theorem FunctionDecl.map_map : ∀ d : FunctionDecl, (d.map f g).map f' g' = d.map (f' ∘ f) g'
  | ⟨_, _, body⟩ => by simp only [FunctionDecl.map, body.map_map, Option.map_map, List.map_map]

theorem FunctionBody.map_map : ∀ b : FunctionBody, (b.map f g).map f' g' = b.map (f' ∘ f) g'
  | .block ss => by simp only [FunctionBody.map, mapLines_mapLines ss]
  | .expression e => by simp only [FunctionBody.map, e.map_map]

/-- The law for statements. Only the expressions in them are touched by `g`, so nothing has to be
    undone here. -/
theorem Stmt.map_map : ∀ s : Stmt, (s.map f g).map f' g' = s.map (f' ∘ f) g'
  | .expr e => by simp only [Stmt.map, e.map_map]
  | .tryCatch body _ handler => by
    simp only [Stmt.map, body.map_map, handler.map_map, Function.comp]
  | .forLoop _ initializer condition increment body => by
    simp only [Stmt.map, mapStmt?_mapStmt? initializer, condition.map_map, increment.map_map,
      body.map_map, Function.comp]
  | .forIn _ _ collection body => by
    simp only [Stmt.map, collection.map_map, body.map_map, List.map_map, Function.comp]
  | .declare _ initializer => by simp only [Stmt.map, map?_map? initializer, Function.comp]
  | .block ss => by simp only [Stmt.map, mapLines_mapLines ss]
  | .whileLoop _ condition body => by
    simp only [Stmt.map, condition.map_map, body.map_map, Function.comp]
  | .ret _ value => by simp only [Stmt.map, map?_map? value, Function.comp]
  | .breakLoop _ => rfl
  | .continueLoop _ => rfl
  | .ifElse _ condition ss bs ss' => by
    simp only [Stmt.map, condition.map_map, mapLines_mapLines ss, mapElifs_mapElifs bs,
      mapElse_mapElse ss', Function.comp]
  | .function d => by simp only [Stmt.map, d.map_map]
  | .cls d => by simp only [Stmt.map, d.map_map]

theorem mapStmt?_mapStmt? : ∀ s : Option Stmt,
    mapStmt? f' g' (mapStmt? f g s) = mapStmt? (f' ∘ f) g' s
  | none => rfl
  | some s => by simp only [mapStmt?, s.map_map]

/-- The law for the statements of a program or a block, which is the form in which whole programs
    need it. -/
theorem mapLines_mapLines : ∀ ss : List Stmt,
    mapLines f' g' (mapLines f g ss) = mapLines (f' ∘ f) g' ss
  | [] => rfl
  | s :: ss => by simp only [mapLines, s.map_map, mapLines_mapLines ss]

theorem mapElifs_mapElifs : ∀ bs : List ElifBranch,
    mapElifs f' g' (mapElifs f g bs) = mapElifs (f' ∘ f) g' bs
  | [] => rfl
  | ⟨condition, ss⟩ :: bs => by
    simp only [mapElifs, condition.map_map, mapLines_mapLines ss, mapElifs_mapElifs bs]

theorem mapElse_mapElse : ∀ ss : Option (List Stmt),
    mapElse f' g' (mapElse f g ss) = mapElse (f' ∘ f) g' ss
  | none => rfl
  | some ss => by simp only [mapElse, mapLines_mapLines ss]

theorem ClassDecl.map_map : ∀ d : ClassDecl, (d.map f g).map f' g' = d.map (f' ∘ f) g'
  | ⟨_, _, methods, staticMethods⟩ => by
    simp only [ClassDecl.map, mapMethods_mapMethods methods, mapMethods_mapMethods staticMethods,
      Option.map_map, Function.comp]

theorem mapMethods_mapMethods : ∀ ds : List FunctionDecl,
    mapMethods f' g' (mapMethods f g ds) = mapMethods (f' ∘ f) g' ds
  | [] => rfl
  | d :: ds => by simp only [mapMethods, d.map_map, mapMethods_mapMethods ds]

end

end MapMap

/-! ## Printed text -/

section SourceMap

set_option linter.unusedSectionVars false

variable (hf : ∀ t, (f t).lexeme = t.lexeme) (hg : ∀ e depth, (g e).source depth = e.source depth)
  (hparens : ∀ e, (g e).needsParens = e.needsParens)

include hparens in
/-- Whether an operand is printed in parentheses depends on its shape only, and `g` keeps that. -/
theorem Expr.needsParens_map (e : Expr) : (e.map f g).needsParens = e.needsParens := by
  cases e <;> simp only [Expr.map, hparens] <;> rfl

include hf in
/-- Names are printed as their texts, which `f` leaves as they are. -/
theorem sourceNames_map (names : List Token) : sourceNames (names.map f) = sourceNames names := by
  simp only [sourceNames, List.map_map, Function.comp_def, hf]

include hf hg hparens

mutual

/-- An expression is printed as before, if the texts of its tokens are the same and `g` does not
    show. -/
theorem Expr.source_map : ∀ (e : Expr) (depth : Nat), (e.map f g).source depth = e.source depth
  | .list es _, depth => by simp only [Expr.map, hg, Expr.source, sourceList_mapList es depth]
  | .dict kvs _, depth => by
    simp only [Expr.map, hg, Expr.source, sourceEntries_mapEntries kvs depth]
  | .assign _ value none, depth => by
    simp only [Expr.map, hg, mapAccess?, Expr.source, value.source_map depth, hf]
  | .assign _ value (some a), depth => by
    simp only [Expr.map, hg, mapAccess?, Expr.source, value.source_map depth, a.source_map depth]
  | .access a, depth => by simp only [Expr.map, hg, Expr.source, a.source_map depth]
  | .binary left _ right, depth => by
    simp only [Expr.map, hg, Expr.source, left.source_map depth, right.source_map depth,
      Expr.needsParens_map hparens, hf]
  | .call callee _ es, depth => by
    simp only [Expr.map, hg, Expr.source, callee.source_map depth, sourceList_mapList es depth]
  | .get object _, depth => by simp only [Expr.map, hg, Expr.source, object.source_map depth, hf]
  | .set object _ value none, depth => by
    simp only [Expr.map, hg, mapAccess?, Expr.source, object.source_map depth,
      value.source_map depth, hf]
  | .set object _ value (some a), depth => by
    simp only [Expr.map, hg, mapAccess?, Expr.source, value.source_map depth, a.source_map depth]
  | .super _ _, depth => by simp only [Expr.map, hg, Expr.source, hf]
  | .grouping inner, depth => by simp only [Expr.map, hg, Expr.source, inner.source_map depth]
  | .literal _, depth => by simp only [Expr.map, hg]
  | .logical left _ right, depth => by
    simp only [Expr.map, hg, Expr.source, left.source_map depth, right.source_map depth,
      Expr.needsParens_map hparens, hf]
  | .this _, depth => by simp only [Expr.map, hg, Expr.source]
  | .unary _ operand, depth => by
    simp only [Expr.map, hg, Expr.source, operand.source_map depth, Expr.needsParens_map hparens, hf]
  | .var _, depth => by simp only [Expr.map, hg, Expr.source, hf]
  | .function d, depth => by simp only [Expr.map, hg, Expr.source, d.source_map depth]

theorem sourceList_mapList : ∀ (es : List Expr) (depth : Nat),
    sourceList (mapList f g es) depth = sourceList es depth
  | [], _ => rfl
  | [e], depth => by simp only [mapList, sourceList, e.source_map depth]
  | e :: e' :: es, depth => by
    have ih := sourceList_mapList (e' :: es) depth
    simp only [mapList] at ih
    simp only [mapList, sourceList, e.source_map depth, ih]

theorem sourceEntries_mapEntries : ∀ (kvs : List (Expr × Expr)) (depth : Nat),
    sourceEntries (mapEntries f g kvs) depth = sourceEntries kvs depth
  | [], _ => rfl
  | [(key, value)], depth => by
    simp only [mapEntries, sourceEntries, key.source_map depth, value.source_map depth]
  | (key, value) :: (key', value') :: kvs, depth => by
    have ih := sourceEntries_mapEntries ((key', value') :: kvs) depth
    simp only [mapEntries] at ih
    simp only [mapEntries, sourceEntries, key.source_map depth, value.source_map depth, ih]

theorem Access.source_map : ∀ (a : Access) (depth : Nat), (a.map f g).source depth = a.source depth
  | ⟨object, _, first, firstColon, second, secondColon, third⟩, depth => by
    simp only [Access.map, Access.source, object.source_map depth, sourceOption_map? first depth,
      sourceOption_map? second depth, sourceOption_map? third depth, Option.isSome_map]

theorem sourceOption_map? : ∀ (e : Option Expr) (depth : Nat),
    sourceOption (map? f g e) depth = sourceOption e depth
  | none, _ => rfl
  | some e, depth => by simp only [map?, sourceOption, e.source_map depth]

theorem FunctionDecl.source_map : ∀ (d : FunctionDecl) (depth : Nat),
    (d.map f g).source depth = d.source depth
  | ⟨none, _, body⟩, depth => by
    simp only [FunctionDecl.map, FunctionDecl.source, body.source_map depth, sourceNames_map hf,
      Option.map_none]
  | ⟨some _, _, body⟩, depth => by
    simp only [FunctionDecl.map, FunctionDecl.source, body.source_map depth, sourceNames_map hf,
      Option.map_some, hf]

theorem FunctionBody.source_map : ∀ (b : FunctionBody) (depth : Nat),
    (b.map f g).source depth = b.source depth
  | .block ss, depth => by
    simp only [FunctionBody.map, FunctionBody.source, sourceLines_mapLines ss (depth + 1)]
  | .expression e, depth => by simp only [FunctionBody.map, FunctionBody.source, e.source_map depth]

/-- A statement is printed as before, at whatever depth it stands. -/
theorem Stmt.source_map : ∀ (s : Stmt) (depth : Nat), (s.map f g).source depth = s.source depth
  | .expr e, depth => by simp only [Stmt.map, Stmt.source, e.source_map depth]
  | .tryCatch body _ handler, depth => by
    simp only [Stmt.map, Stmt.source, body.source_map depth, handler.source_map depth, hf]
  | .forLoop _ none condition increment body, depth => by
    simp only [Stmt.map, mapStmt?, Stmt.source, condition.source_map depth,
      increment.source_map depth, body.source_map depth]
  | .forLoop _ (some s) condition increment body, depth => by
    simp only [Stmt.map, mapStmt?, Stmt.source, s.source_map depth, condition.source_map depth,
      increment.source_map depth, body.source_map depth]
  | .forIn _ _ collection body, depth => by
    simp only [Stmt.map, Stmt.source, collection.source_map depth, body.source_map depth,
      sourceNames_map hf]
  | .declare _ none, depth => by simp only [Stmt.map, map?, Stmt.source, hf]
  | .declare _ (some e), depth => by simp only [Stmt.map, map?, Stmt.source, e.source_map depth, hf]
  | .block ss, depth => by simp only [Stmt.map, Stmt.source, sourceLines_mapLines ss (depth + 1)]
  | .whileLoop _ condition body, depth => by
    simp only [Stmt.map, Stmt.source, condition.source_map depth, body.source_map depth]
  | .ret _ none, depth => by simp only [Stmt.map, map?, Stmt.source]
  | .ret _ (some e), depth => by simp only [Stmt.map, map?, Stmt.source, e.source_map depth]
  | .breakLoop _, _ => rfl
  | .continueLoop _, _ => rfl
  | .ifElse _ condition ss bs none, depth => by
    simp only [Stmt.map, mapElse, Stmt.source, condition.source_map depth,
      sourceLines_mapLines ss (depth + 1), sourceElifs_mapElifs bs depth]
  | .ifElse _ condition ss bs (some ss'), depth => by
    simp only [Stmt.map, mapElse, Stmt.source, condition.source_map depth,
      sourceLines_mapLines ss (depth + 1), sourceElifs_mapElifs bs depth,
      sourceLines_mapLines ss' (depth + 1)]
  | .function d, depth => by simp only [Stmt.map, Stmt.source, d.source_map depth]
  | .cls d, depth => by simp only [Stmt.map, Stmt.source, d.source_map depth]

/-- The statements of a program or a block are printed as before: this is how two trees get the same
    text. -/
theorem sourceLines_mapLines : ∀ (ss : List Stmt) (depth : Nat),
    sourceLines (mapLines f g ss) depth = sourceLines ss depth
  | [], _ => rfl
  | s :: ss, depth => by
    simp only [mapLines, sourceLines, s.source_map depth, sourceLines_mapLines ss depth]

theorem sourceElifs_mapElifs : ∀ (bs : List ElifBranch) (depth : Nat),
    sourceElifs (mapElifs f g bs) depth = sourceElifs bs depth
  | [], _ => rfl
  | ⟨condition, ss⟩ :: bs, depth => by
    simp only [mapElifs, sourceElifs, condition.source_map depth,
      sourceLines_mapLines ss (depth + 1), sourceElifs_mapElifs bs depth]

theorem ClassDecl.source_map : ∀ (d : ClassDecl) (depth : Nat),
    (d.map f g).source depth = d.source depth
  | ⟨_, none, methods, staticMethods⟩, depth => by
    simp only [ClassDecl.map, ClassDecl.source, sourceMethods_mapMethods methods,
      sourceMethods_mapMethods staticMethods, Option.map_none, hf]
  | ⟨_, some _, methods, staticMethods⟩, depth => by
    simp only [ClassDecl.map, ClassDecl.source, sourceMethods_mapMethods methods,
      sourceMethods_mapMethods staticMethods, Option.map_some, hf]

theorem sourceMethods_mapMethods : ∀ (ds : List FunctionDecl) (mark : String) (depth : Nat),
    sourceMethods (mapMethods f g ds) mark depth = sourceMethods ds mark depth
  | [], _, _ => rfl
  | d :: ds, mark, depth => by
    simp only [mapMethods, sourceMethods, d.source_map depth, sourceMethods_mapMethods ds mark depth]

end

end SourceMap

end Script
