import Script.Proofs.Evaluation.Hygiene

/-!
# `Proofs.Evaluation.Snapshot` — the rounds of a `for … in` loop

A `for … in` loop looks at its collection once, when the expression for it has been evaluated. What
it goes through then is fixed: the *rows* (`Heap.Rows`), each with a value for each name. If there
are none, because something cannot be unpacked, then `Heap.NoRows` says why.

`Rounds` is the course of the loop over given rows. It records the machine in which each run of the
body starts. The body can do what it likes, to the names too, but the scope of the loop stays there,
so each run starts with the names bound to its row (`Rounds.bound`).

The main statement is `for_in_goes_through_snapshot`.
-/

namespace Script

/-! ## Rows -/

namespace Heap

variable {h : Heap} {n : Nat} {c v : Value} {row : List Value} {rows : List (List Value)}
  {fault : Fault}

/-- A value gives a row for `n` names: itself if there is one name only, and otherwise what is in
    it, if it is a list of that length. -/
def Unpacks (h : Heap) (n : Nat) (v : Value) (row : List Value) : Prop :=
  if n = 1 then row = [v]
  else ∃ r, v = .list r ∧ row = (h.elements r).toList ∧ row.length = n

/-- Why a value gives no row for `n` names. -/
def Unfit (h : Heap) (n : Nat) (v : Value) (fault : Fault) : Prop :=
  n ≠ 1 ∧ ((∃ r, v = .list r ∧ (h.elements r).size ≠ n ∧ fault = .wrongNumberOfValues)
    ∨ (∀ r, v ≠ .list r) ∧ fault = .cannotUnpack)

/-- The rows of a list or dictionary for `n` names, as the heap is. -/
inductive Rows (h : Heap) (n : Nat) : Value → List (List Value) → Prop
  | elements {r rows} : List.Forall₂ (h.Unpacks n) (h.elements r).toList rows →
      Rows h n (.list r) rows
  | keys {r} : n = 1 → Rows h n (.dict r) ((h.dictionary r).toList.map fun e => [e.1])
  | entries {r} : n = 2 → Rows h n (.dict r) ((h.dictionary r).toList.map fun e => [e.1, e.2])

/-- Why a list or dictionary has no rows for `n` names. Of the elements of a list that cannot be
    unpacked the first one counts. -/
inductive NoRows (h : Heap) (n : Nat) : Value → Fault → Prop
  | element {r before v after fault} : (h.elements r).toList = before ++ v :: after →
      (∀ w ∈ before, ∃ row, h.Unpacks n w row) → h.Unfit n v fault → NoRows h n (.list r) fault
  | names {r} : 2 < n → NoRows h n (.dict r) .expectedIdentifiersDict

theorem unpack_of_unpacks (hn : n ≠ 1) (hv : h.Unpacks n v row) :
    Heap.rows.unpack h n v = .ok row := by
  rw [Unpacks, if_neg hn] at hv
  obtain ⟨r, rfl, rfl, hlength⟩ := hv
  exact if_pos hlength

theorem unpack_of_unfit (hv : h.Unfit n v fault) : Heap.rows.unpack h n v = .error fault := by
  obtain ⟨-, ⟨r, rfl, hsize, rfl⟩ | ⟨hlist, rfl⟩⟩ := hv
  · exact if_neg hsize
  · cases v with
    | list r => exact absurd rfl (hlist r)
    | _ => rfl

/-- A value gives a row, or there is a reason why it does not. -/
theorem unpacks_or_unfit (h : Heap) (n : Nat) (v : Value) :
    (∃ row, h.Unpacks n v row) ∨ ∃ fault, h.Unfit n v fault := by
  by_cases hn : n = 1
  · refine .inl ⟨[v], ?_⟩
    rw [Unpacks, if_pos hn]
  · cases v with
    | list r =>
        by_cases hsize : (h.elements r).size = n
        · refine .inl ⟨(h.elements r).toList, ?_⟩
          rw [Unpacks, if_neg hn]
          exact ⟨r, rfl, rfl, hsize⟩
        · exact .inr ⟨.wrongNumberOfValues, hn, .inl ⟨r, rfl, hsize, rfl⟩⟩
    | _ =>
        refine .inr ⟨.cannotUnpack, hn, .inr ⟨?_, rfl⟩⟩
        intro r he
        cases he

/-- All values of a list give rows, or a first one does not. -/
theorem unpacks_or_split (h : Heap) (n : Nat) (vs : List Value) :
    (∃ rows, List.Forall₂ (h.Unpacks n) vs rows)
      ∨ ∃ before v after fault, vs = before ++ v :: after
          ∧ (∀ w ∈ before, ∃ row, h.Unpacks n w row) ∧ h.Unfit n v fault := by
  induction vs with
  | nil => exact .inl ⟨[], .nil⟩
  | cons v vs ih =>
      obtain ⟨row, hrow⟩ | ⟨fault, hfault⟩ := h.unpacks_or_unfit n v
      · obtain ⟨rows, hrows⟩ | ⟨before, w, after, fault, rfl, hbefore, hfault⟩ := ih
        · exact .inl ⟨row :: rows, .cons hrow hrows⟩
        · refine .inr ⟨v :: before, w, after, fault, rfl, ?_, hfault⟩
          exact List.forall_mem_cons.mpr ⟨⟨row, hrow⟩, hbefore⟩
      · exact .inr ⟨[], v, vs, fault, rfl, by simp, hfault⟩

/-- If every element can be unpacked, the rows are there, one for each element in order. -/
theorem mapM_unpack (hn : n ≠ 1) {vs : List Value} (hvs : List.Forall₂ (h.Unpacks n) vs rows) :
    vs.mapM (Heap.rows.unpack h n) = .ok rows := by
  induction hvs with
  | nil => rfl
  | cons hv _ ih =>
      rw [List.mapM_cons, unpack_of_unpacks hn hv, ih]
      rfl

/-- Unpacking stops at the first element that is unfit, with its fault. -/
theorem mapM_unpack_split {before after : List Value}
    (hbefore : ∀ w ∈ before, ∃ row, h.Unpacks n w row) (hv : h.Unfit n v fault) :
    (before ++ v :: after).mapM (Heap.rows.unpack h n) = .error fault := by
  induction before with
  | nil =>
      rw [List.nil_append, List.mapM_cons, unpack_of_unfit hv]
      rfl
  | cons w before ih =>
      obtain ⟨⟨row, hrow⟩, hrest⟩ := List.forall_mem_cons.mp hbefore
      rw [List.cons_append, List.mapM_cons, unpack_of_unpacks hv.1 hrow, ih hrest]
      rfl

/-- With one name each element is a row by itself. -/
theorem map_singleton {vs : List Value} (hvs : List.Forall₂ (h.Unpacks 1) vs rows) :
    vs.map ([·]) = rows := by
  induction hvs with
  | nil => rfl
  | cons hv _ ih =>
      rw [Unpacks, if_pos rfl] at hv
      rw [List.map_cons, ih, hv]

/-- What counts as the rows of a collection is what the loop gets. -/
theorem rows_of_rows (hrows : h.Rows n c rows) : h.rows n c = .ok rows := by
  cases hrows with
  | elements hvs =>
      by_cases hn : n = 1
      · subst hn
        exact congrArg Except.ok (map_singleton hvs)
      · exact (if_neg hn).trans (mapM_unpack hn hvs)
  | keys hn =>
      subst hn
      rfl
  | entries hn =>
      subst hn
      rfl

/-- Where there are no rows the loop gets the fault that says why. -/
theorem rows_of_noRows (hrows : h.NoRows n c fault) : h.rows n c = .error fault := by
  cases hrows with
  | element hsplit hbefore hv =>
      refine (if_neg hv.1).trans ?_
      rw [hsplit]
      exact mapM_unpack_split hbefore hv
  | names hn => exact if_pos hn

/-- A list or dictionary has rows, or there is a reason why it does not. -/
theorem rows_or_noRows (hn : n ≠ 0) (hc : c.isContainer = true) :
    (∃ rows, h.Rows n c rows) ∨ ∃ fault, h.NoRows n c fault := by
  cases c with
  | list r =>
      obtain ⟨rows, hrows⟩ | ⟨before, v, after, fault, hsplit, hbefore, hv⟩ :=
        h.unpacks_or_split n (h.elements r).toList
      · exact .inl ⟨rows, .elements hrows⟩
      · exact .inr ⟨fault, .element hsplit hbefore hv⟩
  | dict r =>
      obtain rfl | rfl | htwo : n = 1 ∨ n = 2 ∨ 2 < n := by omega
      · exact .inl ⟨_, .keys rfl⟩
      · exact .inl ⟨_, .entries rfl⟩
      · exact .inr ⟨_, .names htwo⟩
  | _ => cases hc

/-- A collection has rows or a reason to have none, but not both. -/
theorem Rows.not_noRows (hrows : h.Rows n c rows) : ¬h.NoRows n c fault := by
  intro hno
  have hok := rows_of_rows hrows
  rw [rows_of_noRows hno] at hok
  cases hok

theorem Unpacks.length (hv : h.Unpacks n v row) : row.length = n := by
  unfold Unpacks at hv
  split at hv
  case isTrue hn =>
    rw [hv, hn]
    rfl
  case isFalse hn =>
    obtain ⟨r, -, -, hlength⟩ := hv
    exact hlength

theorem length_of_unpacks {vs : List Value} (hvs : List.Forall₂ (h.Unpacks n) vs rows) :
    ∀ row ∈ rows, row.length = n := by
  induction hvs with
  | nil => simp
  | cons hv _ ih => exact List.forall_mem_cons.mpr ⟨hv.length, ih⟩

/-- A row has a value for each name. -/
theorem Rows.length_of_mem (hrows : h.Rows n c rows) (hrow : row ∈ rows) : row.length = n := by
  cases hrows with
  | elements hvs => exact length_of_unpacks hvs row hrow
  | keys hn =>
      obtain ⟨e, -, rfl⟩ := List.mem_map.mp hrow
      exact hn.symm
  | entries hn =>
      obtain ⟨e, -, rfl⟩ := List.mem_map.mp hrow
      exact hn.symm

/-! ## Binding a row -/

/-- A name that is not among those declared keeps its value. -/
theorem own?_declareAll_of_notMem {inner : Ref .scope} {name : String}
    {pairs : List (String × Value)} (hname : name ∉ pairs.map (·.1)) :
    (h.declareAll inner pairs).own? inner name = h.own? inner name := by
  induction pairs generalizing h with
  | nil => rfl
  | cons pair pairs ih =>
      rw [List.map_cons, List.mem_cons, not_or] at hname
      rw [declareAll, ih hname.2, own?_declare_of_ne hname.1]

theorem declareAll_scopes_size {inner : Ref .scope} {pairs : List (String × Value)} :
    (h.declareAll inner pairs).scopes.size = h.scopes.size := by
  induction pairs generalizing h with
  | nil => rfl
  | cons pair pairs ih => rw [declareAll, ih, declare_scopes_size]

/-- After names are bound to the values of a row, each of them means what it has there. -/
theorem own?_declareAll_zip {inner : Ref .scope} {names : List String}
    (hinner : inner.index < h.scopes.size) (hnames : names.Nodup)
    (hlength : row.length = names.length) :
    List.Forall₂ (fun name v => (h.declareAll inner (names.zip row)).own? inner name = some v)
      names row := by
  induction names generalizing h row with
  | nil =>
      rw [List.length_nil, List.length_eq_zero_iff] at hlength
      subst hlength
      exact .nil
  | cons name names ih =>
      cases row with
      | nil => cases hlength
      | cons v row =>
          obtain ⟨hname, hrest⟩ := List.nodup_cons.mp hnames
          have hlength : row.length = names.length := Nat.succ.inj hlength
          refine .cons ?_ (ih ?_ hrest hlength)
          · rw [List.zip_cons_cons, declareAll, own?_declareAll_of_notMem]
            · exact own?_declare_self hinner
            · rw [List.map_fst_zip (Nat.le_of_eq hlength.symm)]
              exact hname
          · rw [declare_scopes_size]
            exact hinner

end Heap

/-- Binds the names of a loop to the values of a row. -/
def Machine.bindRow (inner : Ref .scope) (names : List String) (row : List Value) (m : Machine) :
    Machine :=
  { m with heap := m.heap.declareAll inner (names.zip row) }

/-! ## Rounds -/

/-- The course of a loop over rows, from a machine. A row is bound, and then the body runs. The loop
    goes on with the next row if the body runs on or continues, and it ends with the body otherwise.
    `starts` has the machine in which each run of the body starts. -/
inductive Rounds (body : Step RuntimeError Flow) (bind : List Value → Machine → Machine) :
    List (List Value) → Machine → List Machine → Outcome RuntimeError Flow → Prop
  | done {m} : Rounds body bind [] m [] (.ok .run m)
  | next {row rest m flow m' starts outcome} : body (bind row m) = .ok flow m' →
      flow = .run ∨ flow = .continued → Rounds body bind rest m' starts outcome →
      Rounds body bind (row :: rest) m (bind row m :: starts) outcome
  | broke {row rest m m'} : body (bind row m) = .ok .broke m' →
      Rounds body bind (row :: rest) m [bind row m] (.ok .run m')
  | returned {row rest m v m'} : body (bind row m) = .ok (.returned v) m' →
      Rounds body bind (row :: rest) m [bind row m] (.ok (.returned v) m')
  | failed {row rest m e m'} : body (bind row m) = .error e m' →
      Rounds body bind (row :: rest) m [bind row m] (.error e m')
  | unfinished {row rest m} : body (bind row m) = .outOfFuel →
      Rounds body bind (row :: rest) m [bind row m] .outOfFuel

/-- A loop over rows has a course. -/
theorem Evaluator.rounds_eachRow (ev : Evaluator) (names : List String) (body : Stmt)
    (inner : Ref .scope) (rows : List (List Value)) (m : Machine) :
    ∃ starts, Rounds (ev.statement body inner) (Machine.bindRow inner names) rows m starts
      (ev.eachRow names body inner rows m) := by
  induction rows generalizing m with
  | nil => exact ⟨[], .done⟩
  | cons row rest ih =>
      have hbind : (Step.change (·.declareAll inner (names.zip row)) : Step RuntimeError Unit) m
          = .ok () (m.bindRow inner names row) := rfl
      rw [eachRow, Step.bind_of_ok hbind]
      cases hrun : ev.statement body inner (m.bindRow inner names row) with
      | outOfFuel =>
          rw [Step.bind_apply, hrun]
          exact ⟨_, .unfinished hrun⟩
      | error e m' =>
          rw [Step.bind_of_error hrun]
          exact ⟨_, .failed hrun⟩
      | ok flow m' =>
          rw [Step.bind_of_ok hrun]
          obtain ⟨starts, hrest⟩ := ih m'
          cases flow with
          | run => exact ⟨_, .next hrun (.inl rfl) hrest⟩
          | returned v => exact ⟨_, .returned hrun⟩
          | broke => exact ⟨_, .broke hrun⟩
          | continued => exact ⟨_, .next hrun (.inr rfl) hrest⟩

namespace Rounds

variable {body : Step RuntimeError Flow} {bind : List Value → Machine → Machine}
  {rows : List (List Value)} {m : Machine} {starts : List Machine}
  {outcome : Outcome RuntimeError Flow}

/-- The body runs at most once for each row. -/
theorem length_le (hrounds : Rounds body bind rows m starts outcome) :
    starts.length ≤ rows.length := by
  induction hrounds with
  | done => exact Nat.le_refl 0
  | next _ _ _ ih => exact Nat.succ_le_succ ih
  | _ => exact Nat.succ_le_succ (Nat.zero_le _)

/-- If there is a row, the body runs at least once, with this row bound. -/
theorem starts_of_cons {row : List Value} (hrounds : Rounds body bind (row :: rows) m starts outcome) :
    ∃ rest, starts = bind row m :: rest := by
  cases hrounds <;> exact ⟨_, rfl⟩

/-- If the loop does not come to all the rows, then its last run of the body is why. -/
theorem last_of_lt (hrounds : Rounds body bind rows m starts outcome)
    (hlt : starts.length < rows.length) :
    ∃ last, starts.getLast? = some last
      ∧ ((∃ m', body last = .ok .broke m' ∧ outcome = .ok .run m')
        ∨ (∃ v m', body last = .ok (.returned v) m' ∧ outcome = .ok (.returned v) m')
        ∨ (∃ e m', body last = .error e m' ∧ outcome = .error e m')
        ∨ body last = .outOfFuel ∧ outcome = .outOfFuel) := by
  induction hrounds with
  | done => exact absurd hlt (Nat.lt_irrefl 0)
  | next _ _ hrest ih =>
      obtain ⟨last, hlast, hends⟩ := ih (Nat.lt_of_succ_lt_succ hlt)
      refine ⟨last, ?_, hends⟩
      rw [List.getLast?_cons, hlast]
      rfl
  | broke hrun => exact ⟨_, rfl, .inl ⟨_, hrun, rfl⟩⟩
  | returned hrun => exact ⟨_, rfl, .inr (.inl ⟨_, _, hrun, rfl⟩)⟩
  | failed hrun => exact ⟨_, rfl, .inr (.inr (.inl ⟨_, _, hrun, rfl⟩))⟩
  | unfinished hrun => exact ⟨_, rfl, .inr (.inr (.inr ⟨hrun, rfl⟩))⟩

/-- If whatever the body does keeps `K`, and binding a row does so too and makes `P` hold of the row
    and the machine, then `P` holds wherever the body starts. -/
theorem starts_of_kept {K : Machine → Prop} {P : List Value → Machine → Prop}
    (hbind : ∀ row ∈ rows, ∀ m, K m → K (bind row m) ∧ P row (bind row m))
    (hbody : ∀ m, K m → (body m).Leaves K) (hm : K m)
    (hrounds : Rounds body bind rows m starts outcome) :
    List.Forall₂ P (rows.take starts.length) starts := by
  induction hrounds with
  | done => exact .nil
  | next hrun _ _ ih =>
      obtain ⟨hfirst, hrest⟩ := List.forall_mem_cons.mp hbind
      have hleaves := hbody _ (hfirst _ hm).1
      rw [hrun] at hleaves
      exact .cons (hfirst _ hm).2 (ih hrest hleaves)
  | _ =>
      obtain ⟨hfirst, -⟩ := List.forall_mem_cons.mp hbind
      exact .cons (hfirst _ hm).2 .nil

end Rounds

/-! ## The statement -/

/-- The outcome after the loop is left. -/
def Outcome.leaveLoop {ε α : Type} : Outcome ε α → Outcome ε α
  | .ok a m => .ok a { m with stack := m.stack.leaveLoop }
  | .error e m => .error e { m with stack := m.stack.leaveLoop }
  | .outOfFuel => .outOfFuel

/-- The machine in which the loop starts: it has a scope for the names. -/
def Machine.enterRounds (m : Machine) (scope : Ref .scope) : Machine :=
  { m with heap := (m.heap.newScope (some scope)).2, stack := m.stack.enterLoop }

section ForIn

variable {limit fuel : Nat} {identifiers : List Token} {collection : Expr} {scope : Ref .scope}
  {m m₁ : Machine} {c : Value}

/-- A loop over something that has no rows fails at its keyword, and its body does not run. -/
theorem runStatement_forIn_of_error (keyword : Token) (body : Stmt)
    (hc : evaluate limit fuel collection scope m = .ok c m₁) {fault : Fault}
    (hrows : m₁.heap.rows identifiers.length c = .error fault) :
    runStatement limit (fuel + 1) (.forIn keyword identifiers collection body) scope m
      = .error (.atToken fault keyword) m₁ := by
  rw [runStatement_succ]
  refine (Step.bind_of_ok hc).trans ?_
  simp only [Step.bind_apply, Step.inspect, hrows]
  rfl

/-- A loop over rows is a loop with a scope of its own, counted on the call stack. -/
theorem runStatement_forIn_of_ok (keyword : Token) (body : Stmt)
    (hc : evaluate limit fuel collection scope m = .ok c m₁) {rows : List (List Value)}
    (hrows : m₁.heap.rows identifiers.length c = .ok rows) :
    runStatement limit (fuel + 1) (.forIn keyword identifiers collection body) scope m
      = ((Evaluator.withFuel limit fuel).eachRow (identifiers.map (·.lexeme)) body
          (m₁.heap.newScope (some scope)).1 rows (m₁.enterRounds scope)).leaveLoop := by
  rw [runStatement_succ]
  refine (Step.bind_of_ok hc).trans ?_
  simp only [Step.bind_apply, Step.inspect, hrows]
  rfl

/-- No body takes the scope of a loop away. -/
theorem runStatement_keeps_scope (s : Stmt) (inner : Ref .scope)
    (hm : inner.index < m.heap.scopes.size) :
    (runStatement limit fuel s inner m).Leaves fun m' => inner.index < m'.heap.scopes.size := by
  have hev := Evaluator.obeys_withFuel (Discipline.hygiene_lawful m.heap (· = inner)) limit fuel ()
  have hkept := (hev.statementHere (s := s) (fun _ _ _ _ => trivial) (.inl rfl)).scopesKept
  exact hkept.mono fun m' hm' => Nat.lt_of_lt_of_le hm hm'.size

/-- A statement that is an expression does not leave a loop. -/
theorem flow_of_runStatement_expr {e : Expr} {flow : Flow}
    (hrun : runStatement limit fuel (.expr e) scope m = .ok flow m₁) : flow = .run := by
  cases fuel with
  | zero => cases hrun
  | succ fuel =>
      rw [runStatement_succ, Evaluator.statementStep] at hrun
      obtain ⟨v, m', -, hrun⟩ := Step.exists_ok_of_bind hrun
      cases hrun
      rfl

end ForIn

/-- **A `for … in` loop goes through a snapshot.** Let a loop have at least one name and no name
    twice, and let its collection be a list or dictionary. The rows, if there are any, are taken
    from what the collection has when the expression for it has been evaluated, in the machine `m₁`.

    If there are none, because an element cannot be unpacked or because there are too many names,
    then the loop fails at its keyword in `m₁` itself: its body has not run.

    Otherwise, whatever the body does, it runs at most once for each row, and its runs start with
    the names bound to the values of the rows, in order. If it does not run for all the rows, then
    its last run has ended with `break`, with `return` or with an error, and this is how the loop
    ends, unless that run is not over within the fuel. -/
theorem for_in_goes_through_snapshot {limit fuel : Nat} (keyword : Token) (identifiers : List Token)
    {collection : Expr} (body : Stmt) {scope : Ref .scope} {m m₁ : Machine} {c : Value}
    (hne : identifiers ≠ []) (hnodup : (identifiers.map (·.lexeme)).Nodup)
    (hc : evaluate limit fuel collection scope m = .ok c m₁) (hcontainer : c.isContainer = true) :
    ((∃ fault, m₁.heap.NoRows identifiers.length c fault)
        ↔ ¬∃ rows, m₁.heap.Rows identifiers.length c rows)
      ∧ (∀ fault, m₁.heap.NoRows identifiers.length c fault →
          runStatement limit (fuel + 1) (.forIn keyword identifiers collection body) scope m
            = .error (.atToken fault keyword) m₁)
      ∧ ∀ rows, m₁.heap.Rows identifiers.length c rows →
          ∃ inner starts outcome, inner = (m₁.heap.newScope (some scope)).1
            ∧ Rounds (runStatement limit fuel body inner)
                (Machine.bindRow inner (identifiers.map (·.lexeme))) rows (m₁.enterRounds scope)
                starts outcome
            ∧ runStatement limit (fuel + 1) (.forIn keyword identifiers collection body) scope m
              = outcome.leaveLoop
            ∧ starts.length ≤ rows.length
            ∧ List.Forall₂ (fun row start => List.Forall₂
                (fun name v => start.heap.lookup inner name = some v)
                (identifiers.map (·.lexeme)) row) (rows.take starts.length) starts
            ∧ (starts.length < rows.length → ∃ last, starts.getLast? = some last
                ∧ ((∃ m', runStatement limit fuel body inner last = .ok .broke m'
                    ∧ outcome = .ok .run m')
                  ∨ (∃ v m', runStatement limit fuel body inner last = .ok (.returned v) m'
                    ∧ outcome = .ok (.returned v) m')
                  ∨ (∃ e m', runStatement limit fuel body inner last = .error e m'
                    ∧ outcome = .error e m')
                  ∨ runStatement limit fuel body inner last = .outOfFuel
                    ∧ outcome = .outOfFuel)) := by
  refine ⟨⟨?_, ?_⟩, ?_, ?_⟩
  · rintro ⟨fault, hno⟩ ⟨rows, hrows⟩
    exact hrows.not_noRows hno
  · intro hno
    have hlength : identifiers.length ≠ 0 := fun h => hne (List.length_eq_zero_iff.mp h)
    exact (Heap.rows_or_noRows hlength hcontainer).resolve_left hno
  · intro fault hno
    exact runStatement_forIn_of_error keyword body hc (Heap.rows_of_noRows hno)
  · intro rows hrows
    let inner := (m₁.heap.newScope (some scope)).1
    have hstatement := runStatement_forIn_of_ok keyword body hc (Heap.rows_of_rows hrows)
    obtain ⟨starts, hrounds⟩ := (Evaluator.withFuel limit fuel).rounds_eachRow
      (identifiers.map (·.lexeme)) body inner rows (m₁.enterRounds scope)
    refine ⟨inner, starts, _, rfl, hrounds, hstatement, hrounds.length_le, ?_, hrounds.last_of_lt⟩
    -- The names are bound anew in each round, which succeeds as long as their scope is still there.
    refine hrounds.starts_of_kept (K := fun m => inner.index < m.heap.scopes.size) ?_ ?_ ?_
    · intro row hrow m hm
      have hlength : row.length = (identifiers.map (·.lexeme)).length := by
        rw [hrows.length_of_mem hrow, List.length_map]
      refine ⟨?_, (Heap.own?_declareAll_zip hm hnodup hlength).imp fun _ _ => Heap.lookup_of_own?⟩
      exact Nat.lt_of_lt_of_eq hm Heap.declareAll_scopes_size.symm
    · exact fun m hm => runStatement_keeps_scope body inner hm
    · exact m₁.heap.newScope_lt (some scope)

/-- A loop over a list with two pairs in it, whose body gives another meaning to one of the
    names. -/
theorem for_in_goes_through_snapshot_pairs :
    let name (x : String) : Token := .plain .identifier x 1
    let h : Heap := (((Heap.empty.newList #[.string "k", .string "v"]).2.newList
      #[.string "l", .nil]).2.newList #[.list ⟨0⟩, .list ⟨1⟩]).2.newScope none |>.2
    let m : Machine := ⟨h.declare ⟨0⟩ "xs" (.list ⟨2⟩), .root, .empty⟩
    let body : Stmt := .expr (.assign (name "a") (.var (name "xs")) none)
    ∃ first second : Machine,
      (runStatement 9 8 body ⟨1⟩ first).isOk = true
        ∧ first.heap.lookup ⟨1⟩ "a" = some (.string "k")
        ∧ second.heap.lookup ⟨1⟩ "a" = some (.string "l") ∧ second.heap.lookup ⟨1⟩ "b" = some .nil
        ∧ ∃ rest outcome, Rounds (runStatement 9 8 body ⟨1⟩) (Machine.bindRow ⟨1⟩ ["a", "b"])
            [[.string "k", .string "v"], [.string "l", .nil]] (m.enterRounds ⟨0⟩)
            (first :: second :: rest) outcome
          ∧ runStatement 9 9 (.forIn (name "for") [name "a", name "b"] (.var (name "xs")) body) ⟨0⟩ m
            = outcome.leaveLoop := by
  intro name h m body
  have hc : evaluate 9 8 (.var (name "xs")) ⟨0⟩ m = .ok (.list ⟨2⟩) m := by
    have hlookup : m.heap.lookup ⟨0⟩ "xs" = some (.list ⟨2⟩) := Heap.lookup_of_own? rfl
    rw [evaluate_succ]
    show (Evaluator.meaning "xs" (name "xs") ⟨0⟩) m = _
    rw [Evaluator.meaning, Step.bind_apply]
    simp only [Step.inspect, hlookup]
    rfl
  have hrows : m.heap.Rows 2 (.list ⟨2⟩) [[.string "k", .string "v"], [.string "l", .nil]] := by
    refine .elements (.cons ?_ (.cons ?_ .nil))
    · exact ⟨⟨0⟩, rfl, rfl, rfl⟩
    · exact ⟨⟨1⟩, rfl, rfl, rfl⟩
  have hok : (runStatement 9 8 body ⟨1⟩ ((m.enterRounds ⟨0⟩).bindRow ⟨1⟩ ["a", "b"]
      [.string "k", .string "v"])).isOk = true := by
    decide +kernel
  obtain ⟨-, -, hgo⟩ := for_in_goes_through_snapshot (name "for") [name "a", name "b"] body
    (by simp) (by decide) hc rfl
  obtain ⟨inner, starts, outcome, rfl, hrounds, hout, -, hbound, -⟩ := hgo _ hrows
  -- The body runs without an error and does not leave, so there is a second round.
  have hcourse := hrounds
  cases hrounds with
  | next hrun hflow hrest =>
      obtain ⟨rest, rfl⟩ := hrest.starts_of_cons
      obtain ⟨hfirst, hbound⟩ := List.forall₂_cons.mp hbound
      obtain ⟨hsecond, -⟩ := List.forall₂_cons.mp hbound
      obtain ⟨ha, -⟩ := List.forall₂_cons.mp hfirst
      obtain ⟨ha', hsecond⟩ := List.forall₂_cons.mp hsecond
      obtain ⟨hb', -⟩ := List.forall₂_cons.mp hsecond
      exact ⟨_, _, hok, ha, ha', hb', rest, outcome, hcourse, hout⟩
  | broke hrun => cases flow_of_runStatement_expr hrun
  | returned hrun => cases flow_of_runStatement_expr hrun
  | failed hrun => cases (congrArg Outcome.isOk hrun).symm.trans hok
  | unfinished hrun => cases (congrArg Outcome.isOk hrun).symm.trans hok

end Script
