import Script.Proofs.Tree.Traversal

/-!
# `Proofs.Tree.Grouping` — trees up to lines and groupings

Two programs are alike up to the lines of their tokens and up to groupings if they are the same once
both are taken away (`Program.erased`). A printed program shows the groupings of `Program.grouped`:
its own, and one around each operand of an operator that is an operation or an assignment itself.
Neither lines nor these groupings change the printed text.
-/

namespace Script

/-- The token as if it were on no line. -/
def Token.unlined (t : Token) : Token := { t with line := 0 }

/-- Takes one grouping away. -/
def Expr.ungroup : Expr → Expr
  | .grouping inner => inner
  | e => e

/-- The operand of an operator as it is printed. -/
def Expr.wrapped (e : Expr) : Expr := if e.needsParens then .grouping e else e

/-- Puts the operands of an operator into the groupings they are printed with. -/
def Expr.groupOperands : Expr → Expr
  | .binary left operator right => .binary left.wrapped operator right.wrapped
  | .logical left operator right => .logical left.wrapped operator right.wrapped
  | .unary operator operand => .unary operator operand.wrapped
  | e => e

/-- The expression with the groupings that its printed text shows. -/
abbrev Expr.grouped (e : Expr) : Expr := e.map id Expr.groupOperands

/-- The expression without the lines of its tokens and without groupings. -/
def Expr.erased (e : Expr) : Expr := e.map Token.unlined Expr.ungroup

/-- The index or slice without lines and groupings. -/
def Access.erased (a : Access) : Access := a.map Token.unlined Expr.ungroup

/-- The function without lines and groupings. -/
def FunctionDecl.erased (d : FunctionDecl) : FunctionDecl := d.map Token.unlined Expr.ungroup

/-- What a function does, without lines and groupings. -/
def FunctionBody.erased (b : FunctionBody) : FunctionBody := b.map Token.unlined Expr.ungroup

/-- The statement without lines and groupings. -/
def Stmt.erased (s : Stmt) : Stmt := s.map Token.unlined Expr.ungroup

/-- The class without lines and groupings. -/
def ClassDecl.erased (d : ClassDecl) : ClassDecl := d.map Token.unlined Expr.ungroup

/-- The program without the lines of its tokens. -/
def Program.unlined (program : Program) : Program := mapLines Token.unlined id program

/-- The program without the lines of its tokens and without groupings. -/
def Program.erased (program : Program) : Program := mapLines Token.unlined Expr.ungroup program

/-- The program with the groupings that its printed text shows. -/
def Program.grouped (program : Program) : Program := mapLines id Expr.groupOperands program

theorem Expr.map_ungroup_wrapped (f : Token → Token) (e : Expr) :
    e.wrapped.map f ungroup = e.map f ungroup := by
  unfold wrapped
  split <;> rfl

theorem Expr.map_ungroup_groupOperands (f : Token → Token) (e : Expr) :
    e.groupOperands.map f ungroup = e.map f ungroup := by
  cases e with
  | binary left operator right => simp only [groupOperands, Expr.map, map_ungroup_wrapped]
  | logical left operator right => simp only [groupOperands, Expr.map, map_ungroup_wrapped]
  | unary operator operand => simp only [groupOperands, Expr.map, map_ungroup_wrapped]
  | _ => rfl

/-- Expressions that differ in lines only are alike up to groupings. -/
theorem Expr.erased_eq_of_unlined {e e' : Expr}
    (h : e'.map Token.unlined id = e.grouped.map Token.unlined id) : e'.erased = e.erased := by
  have hunlined : ∀ e : Expr, (e.map Token.unlined id).erased = e.erased :=
    Expr.map_map fun _ => rfl
  have hgrouped : e.grouped.erased = e.erased := Expr.map_map (map_ungroup_groupOperands _) e
  rw [← hunlined e', h, hunlined, hgrouped]

/-- Groupings that are added are taken away again. -/
theorem Program.erased_grouped (program : Program) : program.grouped.erased = program.erased :=
  mapLines_mapLines (Expr.map_ungroup_groupOperands _) program

theorem Program.erased_unlined (program : Program) : program.unlined.erased = program.erased :=
  mapLines_mapLines (fun _ => rfl) program

/-- Programs that differ in lines only are alike up to groupings. -/
theorem Program.erased_eq_of_unlined {program program' : Program}
    (h : program'.unlined = program.grouped.unlined) : program'.erased = program.erased := by
  rw [← program'.erased_unlined, h, erased_unlined, erased_grouped]

theorem Expr.needsParens_groupOperands (e : Expr) : e.groupOperands.needsParens = e.needsParens := by
  cases e <;> rfl

theorem Expr.source_wrapped (e : Expr) (depth : Nat) :
    parenthesized e.wrapped.needsParens (e.wrapped.source depth)
      = parenthesized e.needsParens (e.source depth) := by
  unfold wrapped
  split
  · rename_i h
    rw [h]
    rfl
  · rfl

theorem Expr.source_groupOperands (e : Expr) (depth : Nat) :
    e.groupOperands.source depth = e.source depth := by
  cases e with
  | binary left operator right => simp only [groupOperands, Expr.source, source_wrapped]
  | logical left operator right => simp only [groupOperands, Expr.source, source_wrapped]
  | unary operator operand => simp only [groupOperands, Expr.source, source_wrapped]
  | _ => rfl

theorem Program.source_grouped (program : Program) : program.grouped.source = program.source :=
  sourceLines_mapLines (fun _ => rfl) Expr.source_groupOperands Expr.needsParens_groupOperands
    program 0

theorem Program.source_unlined (program : Program) : program.unlined.source = program.source :=
  sourceLines_mapLines (f := Token.unlined) (g := id) (fun _ => rfl) (fun _ _ => rfl) (fun _ => rfl)
    program 0

/-- Programs that differ in lines only print the same. -/
theorem Program.source_eq_of_unlined {program program' : Program}
    (h : program'.unlined = program.grouped.unlined) : program'.source = program.source := by
  rw [← program'.source_unlined, h, source_unlined, source_grouped]

end Script
