import Script.Parser.Grammar

/-!
# `Proofs.Parser.Reads` — the grammar as a relation

`Reads loop ts phrase rest` says that the tokens `ts` begin with the phrase and go on with `rest`.
A phrase is a nonterminal of the grammar together with the part of the tree it stands for, so one
relation serves all of them and one rule induction proves a fact about all of them. `loop` says
whether the place is inside a loop of the innermost function.

There is one rule for each way through a production. The rules keep what the parser looks at before
it decides, such as the kind of the token that ends a chain of suffixes; so the relation is exactly
what the parser accepts without a report, and is not a looser grammar.
-/

namespace Script

/-! ## Looking at tokens -/

/-- The tokens after any line feeds in front. -/
def afterFeeds (ts : List Token) : List Token := ts.dropWhile (·.kind == .newline)

/-- The kind of the first token. -/
def headKind : List Token → TokenKind
  | t :: _ => t.kind
  | [] => .eof

/-- The kind of the first token after any line feeds. -/
def nextKind (ts : List Token) : TokenKind := headKind (afterFeeds ts)

/-- After any line feeds `ts` begins with the token `t`, which is of the kind. -/
def Eats (kind : TokenKind) (ts : List Token) (t : Token) (rest : List Token) : Prop :=
  afterFeeds ts = t :: rest ∧ t.kind = kind

/-- Kinds that begin a statement which is no expression. -/
def TokenKind.opensStatement : TokenKind → Bool
  | .kwClass | .kwFn | .kwLet | .kwFor | .kwTry | .kwIf | .kwReturn | .kwBreak | .kwContinue
  | .kwWhile | .leftBrace => true
  | _ => false

/-- Kinds that extend the expression in front of them. -/
def TokenKind.opensSuffix : TokenKind → Bool
  | .leftParen | .dot | .leftBracket => true
  | _ => false

/-- Kinds right after `return` that say that no value follows. -/
def TokenKind.endsReturn : TokenKind → Bool
  | .newline | .rightBrace | .eof => true
  | _ => false

/-! ## Tiers of precedence

Tier `0` holds the prefix operators, and tier `k + 1` the binary operators between operands of tier
`k`. There are seven tiers of binary operators. -/

/-- The binary operators of tier `k + 1`. -/
def tierOperators : Nat → List TokenKind
  | 0 => [.caret]
  | 1 => [.slash, .percent, .star]
  | 2 => [.plus, .minus]
  | 3 => [.greater, .greaterEqual, .less, .lessEqual]
  | 4 => [.equalEqual, .bangEqual]
  | 5 => [.kwAnd]
  | 6 => [.kwOr]
  | _ => []

/-- The node for an operator of tier `k + 1`. -/
def tierNode (k : Nat) : Expr → Token → Expr → Expr := if k < 5 then .binary else .logical

/-! ## Phrases -/

/-- A nonterminal and what it stands for. -/
inductive Phrase where
  | program (statements : List Stmt)
  | statement (s : Stmt)
  /-- Statements and the closing brace. -/
  | block (statements : List Stmt)
  /-- A block with its opening brace. -/
  | braced (statements : List Stmt)
  /-- A declaration after `let`. -/
  | binding (s : Stmt)
  /-- The initializer of a counting loop and its semicolon. -/
  | initializer (s : Option Stmt)
  | loopVariables (names : List Token)
  | elifs (branches : List ElifBranch)
  | superClass (name : Option Token)
  | members (members : List Member)
  /-- A class after `class`. -/
  | classText (name : Token) (superClass : Option Token) (members : List Member)
  /-- A function from its name on. -/
  | named (f : FunctionDecl)
  /-- A function from its parameters on. -/
  | function (f : FunctionDecl)
  /-- Parameters after `count` others. -/
  | parameters (count : Nat) (names : List Token)
  | parameterList (names : List Token)
  | body (b : FunctionBody)
  | expression (e : Expr)
  | tier (k : Nat) (e : Expr)
  /-- Further operands of tier `k` behind `left`, which make up `e`. -/
  | operands (k : Nat) (left e : Expr)
  /-- Suffixes behind `target`, which make up `e`. -/
  | suffixes (target e : Expr)
  | primary (e : Expr)
  /-- Expressions after `count` others. -/
  | arguments (closing : TokenKind) (count : Nat) (es : List Expr)
  | argumentList (closing : TokenKind) (es : List Expr)
  | entries (entries : List (Expr × Expr))
  | component (e : Option Expr)
  /-- The parts of a slice after its first colon. -/
  | slice (a : Access)
  /-- An index or a slice after its opening bracket. -/
  | access (a : Access)

/-! ## The rules -/

/-- The tokens begin with the phrase and go on with the last argument. -/
inductive Reads : Bool → List Token → Phrase → List Token → Prop
  | programEnd {l ts} : afterFeeds ts = [] → Reads l ts (.program []) []
  | programMore {l ts s feed mid ss rest} : afterFeeds ts ≠ [] →
      Reads l (afterFeeds ts) (.statement s) (feed :: mid) → feed.kind = .newline →
      Reads l mid (.program ss) rest → Reads l ts (.program (s :: ss)) rest
  -- blocks
  | blockEnd {l ts t rest} : Eats .rightBrace ts t rest → Reads l ts (.block []) rest
  | blockMore {l ts s mid ss rest} : nextKind ts ≠ .rightBrace → afterFeeds ts ≠ [] →
      Reads l (afterFeeds ts) (.statement s) mid → Reads l mid (.block ss) rest →
      Reads l ts (.block (s :: ss)) rest
  | braced {l ts t mid ss rest} : Eats .leftBrace ts t mid → Reads l mid (.block ss) rest →
      Reads l ts (.braced ss) rest
  -- statements
  | exprStmt {l ts e rest} : (nextKind ts).opensStatement = false →
      Reads l ts (.expression e) rest → Reads l ts (.statement (.expr e)) rest
  | classStmt {l ts t mid name super ms rest} : Eats .kwClass ts t mid →
      Reads l mid (.classText name super ms) rest →
      Reads l ts (.statement (.cls (.ofMembers name super ms))) rest
  | functionStmt {l ts t mid f rest} : Eats .kwFn ts t mid → Reads l mid (.named f) rest →
      Reads l ts (.statement (.function f)) rest
  | letStmt {l ts t mid s rest} : Eats .kwLet ts t mid → Reads l mid (.binding s) rest →
      Reads l ts (.statement s) rest
  | forInStmt {l ts t t₁ names t₂ keyword t₃ e t₄ s rest} : Eats .kwFor ts t t₁ →
      nextKind t₁ = .identifier → Reads true (afterFeeds t₁) (.loopVariables names) t₂ →
      Eats .kwIn t₂ keyword t₃ → Reads true t₃ (.expression e) t₄ →
      Reads true t₄ (.statement s) rest → Reads l ts (.statement (.forIn t names e s)) rest
  | forStmt {l ts t t₁ i t₂ c t₃ semicolon t₄ e t₅ s rest} : Eats .kwFor ts t t₁ →
      nextKind t₁ ≠ .identifier → Reads true t₁ (.initializer i) t₂ →
      Reads true t₂ (.expression c) t₃ → Eats .semicolon t₃ semicolon t₄ →
      Reads true t₄ (.expression e) t₅ → Reads true t₅ (.statement s) rest →
      Reads l ts (.statement (.forLoop t i c e s)) rest
  | tryStmt {l ts t t₁ s t₂ keyword t₃ name t₄ s' rest} : Eats .kwTry ts t t₁ →
      Reads l t₁ (.statement s) t₂ → Eats .kwCatch t₂ keyword t₃ → Eats .identifier t₃ name t₄ →
      Reads l t₄ (.statement s') rest → Reads l ts (.statement (.tryCatch s name s')) rest
  | ifStmt {l ts t t₁ c t₂ ss t₃ bs rest} : Eats .kwIf ts t t₁ → Reads l t₁ (.expression c) t₂ →
      Reads l t₂ (.braced ss) t₃ → Reads l t₃ (.elifs bs) rest → nextKind rest ≠ .kwElse →
      Reads l ts (.statement (.ifElse t c ss bs none)) rest
  | ifElseStmt {l ts t t₁ c t₂ ss t₃ bs t₄ keyword t₅ ss' rest} : Eats .kwIf ts t t₁ →
      Reads l t₁ (.expression c) t₂ → Reads l t₂ (.braced ss) t₃ → Reads l t₃ (.elifs bs) t₄ →
      Eats .kwElse t₄ keyword t₅ → Reads l t₅ (.braced ss') rest →
      Reads l ts (.statement (.ifElse t c ss bs (some ss'))) rest
  | returnStmt {l ts t rest} : Eats .kwReturn ts t rest → (headKind rest).endsReturn = true →
      Reads l ts (.statement (.ret t none)) rest
  | returnValueStmt {l ts t mid e rest} : Eats .kwReturn ts t mid →
      (headKind mid).endsReturn = false → Reads l mid (.expression e) rest →
      Reads l ts (.statement (.ret t (some e))) rest
  | breakStmt {ts t rest} : Eats .kwBreak ts t rest →
      Reads true ts (.statement (.breakLoop t)) rest
  | continueStmt {ts t rest} : Eats .kwContinue ts t rest →
      Reads true ts (.statement (.continueLoop t)) rest
  | whileStmt {l ts t t₁ c t₂ s rest} : Eats .kwWhile ts t t₁ → Reads true t₁ (.expression c) t₂ →
      Reads true t₂ (.statement s) rest → Reads l ts (.statement (.whileLoop t c s)) rest
  | blockStmt {l ts t mid ss rest} : Eats .leftBrace ts t mid → Reads l mid (.block ss) rest →
      Reads l ts (.statement (.block ss)) rest
  -- parts of statements
  | binding {l ts name mid t mid' e rest} : Eats .identifier ts name mid → Eats .equal mid t mid' →
      Reads l mid' (.expression e) rest → Reads l ts (.binding (.declare name (some e))) rest
  | bindingBare {l ts name rest} : Eats .identifier ts name rest → nextKind rest ≠ .equal →
      Reads l ts (.binding (.declare name none)) rest
  | initializerNone {l ts t rest} : Eats .semicolon ts t rest → Reads l ts (.initializer none) rest
  | initializerLet {l ts t mid s mid' semicolon rest} : Eats .kwLet ts t mid →
      Reads l mid (.binding s) mid' → Eats .semicolon mid' semicolon rest →
      Reads l ts (.initializer (some s)) rest
  | loopVariablesEnd {l ts} : nextKind ts ≠ .identifier → Reads l ts (.loopVariables []) ts
  | loopVariablesMore {l ts name mid names rest} : Eats .identifier ts name mid →
      nextKind mid ≠ .comma → Reads l mid (.loopVariables names) rest →
      Reads l ts (.loopVariables (name :: names)) rest
  | loopVariablesComma {l ts name mid comma mid' names rest} : Eats .identifier ts name mid →
      Eats .comma mid comma mid' → Reads l mid' (.loopVariables names) rest →
      Reads l ts (.loopVariables (name :: names)) rest
  | elifsEnd {l ts} : nextKind ts ≠ .kwElif → Reads l ts (.elifs []) ts
  | elifsMore {l ts t t₁ c t₂ ss t₃ bs rest} : Eats .kwElif ts t t₁ →
      Reads l t₁ (.expression c) t₂ → Reads l t₂ (.braced ss) t₃ → Reads l t₃ (.elifs bs) rest →
      Reads l ts (.elifs (⟨c, ss⟩ :: bs)) rest
  -- classes
  | superClassNone {l ts} : nextKind ts ≠ .less → Reads l ts (.superClass none) ts
  | superClass {l ts t mid name rest} : Eats .less ts t mid → Eats .identifier mid name rest →
      Reads l ts (.superClass (some name)) rest
  | membersEnd {l ts} : nextKind ts = .rightBrace → Reads l ts (.members []) (afterFeeds ts)
  | membersMissing {l} : Reads l [] (.members []) []
  | membersMethod {l ts f mid ms rest} : nextKind ts ≠ .rightBrace → ts ≠ [] →
      nextKind ts ≠ .kwClass → Reads l ts (.named f) mid → Reads l mid (.members ms) rest →
      Reads l ts (.members (⟨false, f⟩ :: ms)) rest
  | membersStatic {l ts t mid f mid' ms rest} : Eats .kwClass ts t mid → Reads l mid (.named f) mid' →
      Reads l mid' (.members ms) rest → Reads l ts (.members (⟨true, f⟩ :: ms)) rest
  | classText {l ts name t₁ super t₂ opening t₃ ms t₄ closing rest} : Eats .identifier ts name t₁ →
      Reads l t₁ (.superClass super) t₂ → Eats .leftBrace t₂ opening t₃ →
      Reads l t₃ (.members ms) t₄ → Eats .rightBrace t₄ closing rest →
      Reads l ts (.classText name super ms) rest
  -- functions
  | named {l ts name mid f rest} : Eats .identifier ts name mid → f.name = some name →
      Reads false mid (.function f) rest → Reads l ts (.named f) rest
  | function {l ts opening t₁ ps t₂ closing t₃ b rest} {name : Option Token} :
      Eats .leftParen ts opening t₁ → Reads l t₁ (.parameterList ps) t₂ →
      Eats .rightParen t₂ closing t₃ → Reads l t₃ (.body b) rest →
      Reads l ts (.function ⟨name, ps, b⟩) rest
  | parametersLast {l ts n name rest} : n < maxParameters → Eats .identifier ts name rest →
      nextKind rest ≠ .comma → Reads l ts (.parameters n [name]) rest
  | parametersMore {l ts n name mid comma mid' ps rest} : n < maxParameters →
      Eats .identifier ts name mid → Eats .comma mid comma mid' →
      Reads l mid' (.parameters (n + 1) ps) rest → Reads l ts (.parameters n (name :: ps)) rest
  | parameterListNone {l ts} : nextKind ts = .rightParen →
      Reads l ts (.parameterList []) (afterFeeds ts)
  | parameterList {l ts ps rest} : nextKind ts ≠ .rightParen → Reads l ts (.parameters 0 ps) rest →
      Reads l ts (.parameterList ps) rest
  | bodyBlock {l ts t mid ss rest} : Eats .leftBrace ts t mid → Reads l mid (.block ss) rest →
      Reads l ts (.body (.block ss)) rest
  | bodyExpr {l ts e rest} : nextKind ts ≠ .leftBrace → Reads l ts (.expression e) rest →
      Reads l ts (.body (.expression e)) rest
  -- expressions
  | exprTier {l ts e rest} : Reads l ts (.tier 7 e) rest → nextKind rest ≠ .equal →
      Reads l ts (.expression e) rest
  | exprAssign {l ts target mid t mid' value rest e} : Reads l ts (.tier 7 target) mid →
      Eats .equal mid t mid' → Reads l mid' (.expression value) rest →
      Grammar.assignment? target value = some e → Reads l ts (.expression e) rest
  | tierChain {l ts k left mid e rest} : Reads l ts (.tier k left) mid →
      Reads l mid (.operands k left e) rest → Reads l ts (.tier (k + 1) e) rest
  | operandsEnd {l ts k e} : nextKind ts ∉ tierOperators k → Reads l ts (.operands k e e) ts
  | operandsMore {l ts k left op mid right mid' e rest} : Eats op.kind ts op mid →
      op.kind ∈ tierOperators k → Reads l mid (.tier k right) mid' →
      Reads l mid' (.operands k (tierNode k left op right) e) rest →
      Reads l ts (.operands k left e) rest
  | tierUnary {l ts op mid e rest} : Eats op.kind ts op mid → op.kind = .kwNot ∨ op.kind = .minus →
      Reads l mid (.tier 0 e) rest → Reads l ts (.tier 0 (.unary op e)) rest
  | tierCall {l ts e₀ mid e rest} : nextKind ts ≠ .kwNot → nextKind ts ≠ .minus →
      Reads l ts (.primary e₀) mid → Reads l mid (.suffixes e₀ e) rest → Reads l ts (.tier 0 e) rest
  | suffixesEnd {l ts e} : (nextKind ts).opensSuffix = false → Reads l ts (.suffixes e e) ts
  | suffixesCall {l ts t t₁ args t₂ closing t₃ e₀ e rest} : Eats .leftParen ts t t₁ →
      Reads l t₁ (.argumentList .rightParen args) t₂ → Eats .rightParen t₂ closing t₃ →
      Reads l t₃ (.suffixes (.call e₀ closing args) e) rest → Reads l ts (.suffixes e₀ e) rest
  | suffixesGet {l ts t mid name mid' e₀ e rest} : Eats .dot ts t mid →
      Eats .identifier mid name mid' → Reads l mid' (.suffixes (.get e₀ name) e) rest →
      Reads l ts (.suffixes e₀ e) rest
  | suffixesAccess {l ts t t₁ a t₂ closing t₃ e₀ e rest} : Eats .leftBracket ts t t₁ →
      a.object = e₀ → a.bracket = t → Reads l t₁ (.access a) t₂ →
      Eats .rightBracket t₂ closing t₃ → Reads l t₃ (.suffixes (.access a) e) rest →
      Reads l ts (.suffixes e₀ e) rest
  -- operands
  | primaryConstant {l ts t rest c} : Eats t.kind ts t rest → t.constant? = some c →
      Reads l ts (.primary (.literal c)) rest
  | primaryVar {l ts t rest} : Eats .identifier ts t rest → Reads l ts (.primary (.var t)) rest
  | primaryThis {l ts t rest} : Eats .kwThis ts t rest → Reads l ts (.primary (.this t)) rest
  | primaryGrouping {l ts t mid e mid' closing rest} : Eats .leftParen ts t mid →
      Reads l mid (.expression e) mid' → Eats .rightParen mid' closing rest →
      Reads l ts (.primary (.grouping e)) rest
  | primaryList {l ts t mid es mid' closing rest} : Eats .leftBracket ts t mid →
      Reads l mid (.argumentList .rightBracket es) mid' → Eats .rightBracket mid' closing rest →
      Reads l ts (.primary (.list es closing)) rest
  | primaryDict {l ts t mid entries mid' closing rest} : Eats .leftBrace ts t mid →
      Reads l mid (.entries entries) mid' → Eats .rightBrace mid' closing rest →
      Reads l ts (.primary (.dict entries closing)) rest
  | primaryFunction {l ts t mid f rest} : Eats .kwFn ts t mid → f.name = none →
      Reads false mid (.function f) rest → Reads l ts (.primary (.function f)) rest
  | primarySuper {l ts t mid dot mid' name rest} : Eats .kwSuper ts t mid → Eats .dot mid dot mid' →
      Eats .identifier mid' name rest → Reads l ts (.primary (.super t name)) rest
  | primarySuperInit {l ts t mid} : Eats .kwSuper ts t mid → nextKind mid = .leftParen →
      Reads l ts (.primary (.super t (.plain .identifier "init" t.line))) (afterFeeds mid)
  -- lists of expressions
  | argumentsLast {l ts closing n e rest} : (closing = .rightParen → n < maxParameters) →
      Reads l ts (.expression e) rest → nextKind rest ≠ .comma →
      Reads l ts (.arguments closing n [e]) rest
  | argumentsTrailing {l ts closing n e mid comma mid'} : (closing = .rightParen → n < maxParameters) →
      Reads l ts (.expression e) mid → Eats .comma mid comma mid' → nextKind mid' = closing →
      Reads l ts (.arguments closing n [e]) (afterFeeds mid')
  | argumentsMore {l ts closing n e mid comma mid' es rest} :
      (closing = .rightParen → n < maxParameters) → Reads l ts (.expression e) mid →
      Eats .comma mid comma mid' → nextKind mid' ≠ closing →
      Reads l mid' (.arguments closing (n + 1) es) rest →
      Reads l ts (.arguments closing n (e :: es)) rest
  | argumentListNone {l ts closing} : nextKind ts = closing →
      Reads l ts (.argumentList closing []) (afterFeeds ts)
  | argumentList {l ts closing es rest} : nextKind ts ≠ closing →
      Reads l ts (.arguments closing 0 es) rest → Reads l ts (.argumentList closing es) rest
  | entriesEnd {l ts} : nextKind ts = .rightBrace → Reads l ts (.entries []) (afterFeeds ts)
  | entriesLast {l ts key mid colon mid' value rest} : nextKind ts ≠ .rightBrace →
      Reads l ts (.expression key) mid → Eats .colon mid colon mid' →
      Reads l mid' (.expression value) rest → nextKind rest ≠ .comma →
      Reads l ts (.entries [(key, value)]) rest
  | entriesMore {l ts key t₁ colon t₂ value t₃ comma t₄ kvs rest} : nextKind ts ≠ .rightBrace →
      Reads l ts (.expression key) t₁ → Eats .colon t₁ colon t₂ →
      Reads l t₂ (.expression value) t₃ → Eats .comma t₃ comma t₄ →
      Reads l t₄ (.entries kvs) rest → Reads l ts (.entries ((key, value) :: kvs)) rest
  -- indices and slices
  | componentNone {l ts} : nextKind ts = .colon ∨ nextKind ts = .rightBracket →
      Reads l ts (.component none) (afterFeeds ts)
  | componentMissing {l} : Reads l [] (.component none) []
  | component {l ts e rest} : nextKind ts ≠ .colon → nextKind ts ≠ .rightBracket → ts ≠ [] →
      Reads l ts (.expression e) rest → Reads l ts (.component (some e)) rest
  | slice {l ts object bracket first colon second mid colon' mid' third rest} :
      Reads l ts (.component second) mid → Eats .colon mid colon' mid' →
      Reads l mid' (.component third) rest →
      Reads l ts (.slice ⟨object, bracket, first, some colon, second, some colon', third⟩) rest
  | sliceShort {l ts object bracket first colon second rest} :
      Reads l ts (.component second) rest → nextKind rest ≠ .colon →
      Reads l ts (.slice ⟨object, bracket, first, some colon, second, none, none⟩) rest
  | accessSlice {l ts a colon mid rest} : Eats .colon ts colon mid → a.first = none →
      a.firstColon = some colon → Reads l mid (.slice a) rest → Reads l ts (.access a) rest
  | accessFirstSlice {l ts a first mid colon mid' rest} : nextKind ts ≠ .colon →
      Reads l ts (.expression first) mid → Eats .colon mid colon mid' → a.first = some first →
      a.firstColon = some colon → Reads l mid' (.slice a) rest → Reads l ts (.access a) rest
  | accessIndex {l ts object bracket first rest} : nextKind ts ≠ .colon →
      Reads l ts (.expression first) rest → nextKind rest ≠ .colon →
      Reads l ts (.access ⟨object, bracket, some first, none, none, none, none⟩) rest

end Script
