import QueryFold.Proofs.Chain.Grounding
import QueryFold.Proofs.Chain.Image

/-!
# Parameters do not leak

The lambdas of a chain have parameters, and resolution puts what they stand for in their place. No
parameter of a lambda is left free in what is built: `Chain.Discharges` lists the expressions
that are closed, for a query and for the queries that are built from the nested chains. It
excepts what is taken as it is given: the sequence of a source node, and the argument of an operator
that is no lambda over one item.

Most expressions are checked when they are resolved. The element of a grouping is not when it is
the item itself; that it is closed nevertheless is because resolution leaves no parameter that was
not there before (`Route.Resolves.freeIn`).
-/

namespace QueryFold

/-- The position of the clause that is recorded for a node. -/
def Ledger.clause? (l : Ledger) (id : NodeId) : Option Position :=
  (l.record? id).bind NodeRecord.clause

/-- The query over which the clause at a position iterates. -/
def Query.iterated? (q : Query) : Position → Option Query
  | .main =>
    match q.generator with
    | .subQuery inner => some inner
    | _ => none
  | .body i => q.body[i]?.bind Clause.query?

/-- No parameter of a lambda of the chain is left in the query, which is built from the chain at a
depth with the ledger `l`, nor in the queries built from nested chains. -/
inductive Chain.Discharges (ids : Nat → SourceId) (settings : Settings) :
    UInt32 → Chain → Query → Ledger → Prop where
  /-- The conditions on the parts of the query, and on the nested chains. -/
  | intro {depth : UInt32} {chain : Chain} {q : Query} {l : Ledger}
      -- Predicates, values and sort keys are closed,
      (clauses : ∀ c ∈ q.body, c.isFrom = false → ∀ e ∈ c.expressions, e.freeParams = [])
      -- and so are the projections of from clauses.
      (projections : ∀ c ∈ q.body, ∀ e, c.projection? = some e → e.freeParams = [])
      -- A sequence made from each item has a from clause in which all is closed.
      (sequences : ∀ n ∈ chain.nodes, ∀ collection result,
        n.operation = .selectMany collection result →
          ∃ i c, l.clause? n.id = some (.body i) ∧ q.body[i]? = some c ∧ c.isFrom = true ∧
            ∀ e ∈ c.expressions, e.freeParams = [])
      -- The selector is closed, or the key and the element.
      (terminal : ∃ t, q.terminal = some t ∧ ∀ e ∈ t.expressions, e.freeParams = [])
      -- The argument of an operator is closed, or it is no lambda over one item.
      (operators : ∀ o ∈ q.operators, ∀ e ∈ o.expressions, e.freeParams = [] ∨
        (∀ p body, e ≠ .lambda [p] body) ∧ ∃ n ∈ chain.nodes, n.operation = .resultOperator o)
      -- The clause of a nested chain iterates over a query that is built from it,
      (built : ∀ n ∈ chain.nodes, ∀ inner, n.operation = .subQuerySource inner →
        ∃ position q' l' k k', l.clause? n.id = some position ∧ q.iterated? position = some q' ∧
          Runs (inner.build ids settings (depth + 1)) k (q', l') k')
      -- and the same holds of that query.
      (nested : ∀ n ∈ chain.nodes, ∀ inner position q' l' k k',
        n.operation = .subQuerySource inner → l.clause? n.id = some position →
          q.iterated? position = some q' →
            Runs (inner.build ids settings (depth + 1)) k (q', l') k' →
              Discharges ids settings (depth + 1) inner q' l') :
      Discharges ids settings depth chain q l

/-- What stands in a list is related to something in the other one. -/
theorem exists_related {α β : Type} {R : α → β → Prop} {as : List α} {bs : List β}
    (h : List.Forall₂ R as bs) : ∀ b ∈ bs, ∃ a ∈ as, R a b := by
  induction h with
  | nil => nofun
  | cons related _ ih =>
    intro b hb
    rcases List.mem_cons.mp hb with rfl | hb
    · exact ⟨_, List.mem_cons_self, related⟩
    · obtain ⟨a, ha, related⟩ := ih b hb
      exact ⟨a, List.mem_cons_of_mem _ ha, related⟩

section

variable {ids : Nat → SourceId} {settings : Settings} {depth : UInt32} {chain : Chain} {l : Ledger}
  {n : Node} {i : Nat} {g : Group} {c : Clause} {e : Expr} {projection : Option Expr}
  {previous : Position}

/-! ### What is resolved is closed -/

theorem Chain.closed_of_resolveLambda {link : NodeId} {lambda : Lambda}
    (h : chain.resolveLambda l link lambda = .ok e) : e.Closed := by
  obtain ⟨_, _, _, closed⟩ := resolveLambda_eq_ok_iff.mp h
  exact closed

theorem Node.Resolved.closed {lambda : Lambda} (h : n.Resolved chain l lambda e) : e.Closed := by
  obtain ⟨_, _, resolved⟩ := h
  exact Chain.closed_of_resolveLambda resolved

theorem Node.ResolvedResult.closed {selector : Lambda}
    (h : n.ResolvedResult chain l selector e) : e.Closed := by
  obtain ⟨_, _, _, _, closed⟩ := h
  exact closed

/-- What a grouping collects is closed also when it is not selected. -/
theorem Node.ResolvedElement.closed {key : Lambda} {element : Option Lambda}
    (h : n.ResolvedElement chain l key element e) : e.Closed := by
  cases h with
  | selector resolved => exact resolved.closed
  | item _ _ resolved =>
    -- The item itself stands for the parameter of the key, the only one that could be left.
    intro p hp
    obtain ⟨hne, hp⟩ := (Route.resolve_eq_ok_iff.mp resolved).freeIn hp
    exact hne (freeIn_param_iff.mp hp).symm

theorem Node.ResolvedArgument.closed {arg : Expr} (h : n.ResolvedArgument chain l arg e) :
    e.Closed ∨ (∀ p body, e ≠ .lambda [p] body) ∧ e = arg := by
  cases h with
  | lambda resolved => exact .inl resolved.closed
  | plain other => exact .inr ⟨other, rfl⟩

theorem Node.Projects.closed {p : Projection} (h : n.Projects chain l p) :
    ∀ e ∈ p.expressions, e.Closed := by
  cases h with
  | select _ resolved => simpa [Projection.expressions] using resolved.closed
  | selectMany _ result => simpa [Projection.expressions] using result.closed
  | groupBy _ resolved grouped =>
    simpa [Projection.expressions] using ⟨resolved.closed, grouped.closed⟩

theorem Node.Operates.closed {o : ResultOp} (h : n.Operates chain l o) (he : e ∈ o.expressions) :
    e.Closed ∨ (∀ p body, e ≠ .lambda [p] body) ∧ n.operation = .resultOperator o := by
  cases h with
  | argument op resolved =>
    rw [List.mem_singleton.mp he]
    refine resolved.closed.imp_right ?_
    rintro ⟨plain, rfl⟩
    exact ⟨plain, op⟩
  | cast | plain | pick => simp [ResultOp.expressions] at he

/-! ### Clauses -/

theorem Source.RangesOver.basis {s : Source} (h : s.RangesOver projection previous e c) {e' : Expr}
    (he' : e' ∈ c.basis) : e' = e := by
  cases h with
  | subQuery => cases he'
  | member | additional _ _ => exact List.mem_singleton.mp he'

/-- In the from clause of a node all is closed but its projection, and a sequence that is given. -/
theorem Node.Iterates.closed
    (h : n.Iterates chain l ids settings depth projection previous c) :
    ∀ e ∈ c.basis, e.Closed ∨ n.operation = .mainSource e := by
  cases h with
  | mainSource op => simpa [Clause.basis] using .inr op
  | subQuerySource => simp [Clause.basis]
  | selectMany _ resolved _ ranges =>
    intro e he
    rw [ranges.basis he]
    exact .inl resolved.closed

theorem Node.Adds.closed (h : n.Adds chain l previous c) : ∀ e ∈ c.expressions, e.Closed := by
  intro e' he'
  cases h with
  | selectMany _ _ resolved result ranges =>
    rcases Clause.mem_expressions_iff.mp he' with he' | he'
    · rw [ranges.basis he']
      exact resolved.closed
    · rw [ranges.isFrom.2.2] at he'
      cases he'
      exact result.closed
  | filter _ resolved | define _ resolved =>
    rw [List.mem_singleton.mp he']
    exact resolved.closed

/-- A clause has a closed projection, and the rest of it is closed but for the sequence of a source
node. -/
theorem Group.Makes.closed (h : g.Makes chain l ids settings depth i c) :
    (∀ e, c.projection? = some e → e.Closed) ∧
      ∀ e ∈ c.basis, e.Closed ∨ c.isFrom = true ∧ g.head.operation = .mainSource e := by
  cases h with
  | iterates head _ _ selects =>
    obtain ⟨_, resolved⟩ := selects
    obtain ⟨iterates, -, projected⟩ := head.isFrom
    refine ⟨fun e he => ?_, fun e he => (head.closed e he).imp_right fun op => ⟨iterates, op⟩⟩
    rw [projected] at he
    cases he
    exact resolved.closed
  | adds head =>
    have closed := head.closed
    exact ⟨fun e he => closed e (Clause.mem_expressions_iff.mpr (.inr he)),
      fun e he => .inl (closed e (Clause.mem_expressions_iff.mpr (.inl he)))⟩
  | @sorts keys made =>
    refine ⟨nofun, fun e he => .inl ?_⟩
    obtain ⟨k, hk, rfl⟩ := List.mem_map.mp he
    obtain ⟨_, -, ⟨_, resolved⟩⟩ := exists_related made k hk
    exact resolved.closed

/-- A node of a group is the one that makes the clause, unless it makes a sort key. -/
theorem Group.Makes.eq_head (h : g.Makes chain l ids settings depth i c) (hn : n ∈ g.nodes)
    (other : n.operation.sorts = false) : n = g.head ∧
      ((∃ e, g.head.Iterates chain l ids settings depth (some e) (.before i) c) ∨
        g.head.Adds chain l (.before i) c) := by
  cases h with
  | iterates head alone _ _ => exact ⟨by simpa [nodes, alone] using hn, .inl ⟨_, head⟩⟩
  | adds head alone => exact ⟨by simpa [nodes, alone] using hn, .inr head⟩
  | sorts made =>
    obtain ⟨_, -, ⟨op, -⟩⟩ := exists_related made.flip n hn
    rw [op] at other
    cases other

/-- A sequence made from each item has a from clause, in which all is closed. -/
theorem Group.Makes.of_selectMany (h : g.Makes chain l ids settings depth i c) (hn : n ∈ g.nodes)
    {collection : Lambda} {result : Option Lambda}
    (op : n.operation = .selectMany collection result) :
    c.isFrom = true ∧ ∀ e ∈ c.expressions, e.Closed := by
  obtain ⟨rfl, made⟩ := h.eq_head hn (by rw [op]; rfl)
  obtain ⟨projection, basis⟩ := h.closed
  refine ⟨?_, fun e he => ?_⟩
  · rcases made with ⟨_, head⟩ | head
    · exact head.isFrom.1
    · cases head with
      | selectMany _ _ _ _ ranges => exact ranges.isFrom.1
      | filter op' | define op' => cases op.symm.trans op'
  · rcases Clause.mem_expressions_iff.mp he with he | he
    · exact (basis e he).resolve_right fun ⟨_, op'⟩ => by cases op.symm.trans op'
    · exact projection e he

/-- The clause of a nested chain iterates over a query that is built from it. -/
theorem Group.Makes.of_subQuerySource (h : g.Makes chain l ids settings depth i c)
    (hn : n ∈ g.nodes) {inner : Chain} (op : n.operation = .subQuerySource inner) :
    ∃ q l' k k', c.query? = some q ∧
      Runs (inner.build ids settings (depth + 1)) k (q, l') k' := by
  obtain ⟨rfl, ⟨_, head⟩ | head⟩ := h.eq_head hn (by rw [op]; rfl)
  · cases head with
    | subQuerySource op' built =>
      cases op.symm.trans op'
      exact ⟨_, _, _, _, rfl, built⟩
    | mainSource op' | selectMany op' => cases op.symm.trans op'
  · cases head with
    | selectMany op' | filter op' | define op' => cases op.symm.trans op'

/-! ### Queries -/

theorem Node.Begins.operation_ne {s : Source} (h : n.Begins ids settings depth s e)
    (collection : Lambda) (result : Option Lambda) :
    n.operation ≠ .selectMany collection result := by
  intro op
  cases h with
  | mainSource op' | subQuerySource op' => cases op.symm.trans op'

theorem Node.Begins.of_subQuerySource {s : Source} (h : n.Begins ids settings depth s e)
    {inner : Chain} (op : n.operation = .subQuerySource inner) :
    ∃ q l' k k', e = .subQuery q ∧ Runs (inner.build ids settings (depth + 1)) k (q, l') k' := by
  cases h with
  | mainSource op' => cases op.symm.trans op'
  | subQuerySource op' built =>
    cases op.symm.trans op'
    exact ⟨_, _, _, _, rfl, built⟩

namespace Chain.Image

variable {first : Node} {rest : List Node} {q : Query}
  (image : chain.Image ids settings depth first rest q l)

include image

/-- Of a clause all is closed but the sequence of a from clause. -/
theorem closed_clause (hc : c ∈ q.body) : (∀ e, c.projection? = some e → e.Closed) ∧
    (c.isFrom = false → ∀ e ∈ c.expressions, e.Closed) := by
  obtain ⟨i, hi⟩ := List.getElem?_of_mem hc
  obtain ⟨g, makes⟩ := image.exists_group hi
  obtain ⟨projection, basis⟩ := makes.closed
  refine ⟨projection, fun other e he => ?_⟩
  rcases Clause.mem_expressions_iff.mp he with he | he
  · exact (basis e he).resolve_right (by simp [other])
  · exact projection e he

/-- The clause recorded for a sequence made from each item is a from clause, in which all is
closed. -/
theorem exists_sequence (hn : n ∈ first :: rest) {collection : Lambda} {result : Option Lambda}
    (op : n.operation = .selectMany collection result) :
    ∃ i c, l.clause? n.id = some (.body i) ∧ q.body[i]? = some c ∧ c.isFrom = true ∧
      ∀ e ∈ c.expressions, e.Closed := by
  rcases List.mem_cons.mp hn with rfl | hn
  · exact absurd op (image.begins.operation_ne collection result)
  · obtain ⟨i, g, c, mem, hc, makes, recorded⟩ :=
      image.exists_clause hn (by rw [op]; cases result <;> rfl)
    exact ⟨i, c, by simp [Ledger.clause?, recorded], hc, makes.of_selectMany mem op⟩

theorem closed_terminal : ∃ t, q.terminal = some t ∧ ∀ e ∈ t.expressions, e.Closed := by
  obtain ⟨n, p, t, -, projects, ends, terminal⟩ := image.terminal
  refine ⟨t, terminal, fun e he => projects.closed e ?_⟩
  cases ends with
  | select | group => exact he

theorem closed_operator {o : ResultOp} (ho : o ∈ q.operators) (he : e ∈ o.expressions) :
    e.Closed ∨ (∀ p body, e ≠ .lambda [p] body) ∧
      ∃ n ∈ first :: rest, n.operation = .resultOperator o := by
  obtain ⟨n, hn, operates⟩ := exists_related image.operators o ho
  refine (operates.closed he).imp_right fun ⟨plain, op⟩ => ⟨plain, n, ?_, op⟩
  exact List.mem_cons_of_mem _ (List.mem_filter.mp hn).1

/-- The clause recorded for a nested chain iterates over a query that is built from it. -/
theorem exists_iterated (hn : n ∈ first :: rest) {inner : Chain}
    (op : n.operation = .subQuerySource inner) :
    ∃ position q' l' k k', l.clause? n.id = some position ∧ q.iterated? position = some q' ∧
      Runs (inner.build ids settings (depth + 1)) k (q', l') k' := by
  rcases List.mem_cons.mp hn with rfl | hn
  · obtain ⟨q', l', k, k', generator, built⟩ := image.begins.of_subQuerySource op
    exact ⟨.main, q', l', k, k', by simp [Ledger.clause?, image.recorded],
      by simp [Query.iterated?, generator], built⟩
  · obtain ⟨i, g, c, mem, hc, makes, recorded⟩ := image.exists_clause hn (by rw [op]; rfl)
    obtain ⟨q', l', k, k', iterates, built⟩ := makes.of_subQuerySource mem op
    exact ⟨.body i, q', l', k, k', by simp [Ledger.clause?, recorded],
      by simp [Query.iterated?, hc, iterates], built⟩

end Chain.Image

/-! ### Chains -/

theorem Chain.Built.discharges {k k' : Nat} {q : Query}
    (h : chain.Built ids settings depth k q l k') : chain.Discharges ids settings depth q l := by
  induction chain using Chain.induction generalizing depth k q l k' with
  | step chain ih =>
    obtain ⟨first, rest, nodes, image⟩ := h.image
    refine .intro ?clauses ?projections ?sequences ?terminal ?operators ?built ?nested <;>
      simp only [Expr.freeParams_eq_nil_iff, nodes]
    case clauses => exact fun c hc => (image.closed_clause hc).2
    case projections => exact fun c hc => (image.closed_clause hc).1
    case sequences => exact fun n hn _ _ op => image.exists_sequence hn op
    case terminal => exact image.closed_terminal
    case operators => exact fun o ho e he => image.closed_operator ho he
    case built => exact fun n hn _ op => image.exists_iterated hn op
    case nested =>
      intro n hn inner _ q' l' k k' op _ _ built
      exact ih inner ⟨n, nodes ▸ hn, op⟩ (Chain.build_runs_iff.mp built)

/-- **Parameters do not leak**: in a query that is built from a chain, and in the queries that are
built from its nested chains, every expression is closed but for those that are taken as given. -/
theorem toQuery_discharges {k k' : Nat} {q : Query}
    (h : Runs (chain.toQuery ids settings) k (q, l) k') : chain.Discharges ids settings 0 q l :=
  (Chain.build_runs_iff.mp h).discharges

end

namespace Sample

/-- A knife. -/
def knife : Param := ⟨"k", Ty.plain "Knife"⟩

/-- The name of a knife. -/
def brand : Expr := .member (.param knife) "Name" (Ty.plain "string")

/-- The sharp knives of the assistants by their names, once for each cook; three names at most. -/
def knives : Chain :=
  Chain.empty (Ty.queryable (Ty.grouping (Ty.plain "string") knife.type))
    |>.push "c" (.mainSource cooks)
    |>.push "a" (.subQuerySource assistants)
    |>.push "c" (.select ⟨[cook], .param cook⟩)
    |>.push "k" (.selectMany ⟨[cook], .member (.param cook) "Knives" (Ty.array knife.type)⟩
      (some ⟨[cook, knife], .param knife⟩))
    |>.push "k" (.filter ⟨[knife], .member (.param knife) "IsSharp" Ty.bool⟩)
    |>.push "k" (.define ⟨"n", Ty.plain "string"⟩ ⟨[knife], brand⟩)
    |>.push "k" (.orderBy ⟨[knife], brand⟩ .ascending false)
    |>.push "k" (.groupBy ⟨[knife], .param ⟨"n", Ty.plain "string"⟩⟩ none)
    |>.push "k" (.resultOperator (.argument .take (.ofInt 3)))

end Sample

theorem toQuery_discharges_knives : ∃ q l k,
    Runs (Sample.knives.toQuery SourceId.countUp {}) 0 (q, l) k ∧
      Sample.knives.Discharges SourceId.countUp {} 0 q l := by
  obtain ⟨⟨q, l⟩, k, h⟩ := exists_runs
    (x := Sample.knives.toQuery SourceId.countUp {}) (s := 0) (by decide +kernel)
  exact ⟨q, l, k, h, toQuery_discharges h⟩

end QueryFold
