import QueryFold.Proofs.Chain.Resolution
import QueryFold.Proofs.Query.Renumbering

/-!
# Resolution with other identities

The ledger of a build holds identities in the items that it records and in the projection. If the
expressions of a chain hold none themselves, resolving them with a ledger that has other identities
does what it does with the ledger, but for the identities (`Route.resolve_renumber`). This is
said of failures as well: the checks of a build do not look at identities, and the errors that it
raises itself do not show them.
-/

namespace QueryFold

variable (ρ : SourceId → SourceId)

/-- The error with other identities. -/
def BuildError.renumber : BuildError → BuildError
  | .query cause => .query (cause.renumber ρ)
  | e => e

/-- The record with another identity. -/
def NodeRecord.renumber (r : NodeRecord) : NodeRecord :=
  { r with item := r.item.map (·.renumber ρ) }

/-- The projection with other identities. -/
def Projection.renumber : Projection → Projection
  | .select selector => .select (selector.renumber ρ)
  | .group key element => .group (key.renumber ρ) (element.renumber ρ)

theorem Projection.terminal_renumber (p : Projection) :
    (p.renumber ρ).terminal = p.terminal.renumber ρ := by
  cases p <;> rfl

variable {ρ} in
/-- The result of an operation on a query is carried over as that of a step of a build. -/
theorem ofQueryResult_renumber {α β : Type} {val : α → β} {x : Except QueryError α}
    {y : Except QueryError β} (h : y = carry (QueryError.renumber ρ) val x) :
    ofQueryResult y = carry (BuildError.renumber ρ) val (ofQueryResult x) := by
  subst h
  cases x <;> rfl

/-! ### Ledgers -/

namespace Ledger

/-- The ledger with other identities. -/
def renumber (l : Ledger) : Ledger :=
  { l with
    records := l.records.map fun r => (r.1, r.2.renumber ρ)
    projection := l.projection.map (·.renumber ρ) }

variable (l : Ledger) (node : NodeId)

@[simp] theorem record?_renumber :
    (l.renumber ρ).record? node = (l.record? node).map (·.renumber ρ) := by
  show (l.records.map _).lookup node = (l.records.lookup node).map _
  induction l.records with
  | nil => rfl
  | cons r rs ih =>
    rw [List.map_cons, List.lookup_cons, List.lookup_cons]
    cases node == r.1 with
    | true => rfl
    | false => exact ih

@[simp] theorem isApplied_renumber : (l.renumber ρ).isApplied node = l.isApplied node := by
  simp [isApplied]

theorem record_renumber (r : NodeRecord) :
    (l.renumber ρ).record node (r.renumber ρ) =
      carry (BuildError.renumber ρ) (renumber ρ) (l.record node r) := by
  unfold record
  rw [isApplied_renumber]
  split_ifs
  · rfl
  · simp [carry, renumber]

theorem lookup_renumber :
    (l.renumber ρ).lookup node = carry (BuildError.renumber ρ) (·.renumber ρ) (l.lookup node) := by
  unfold lookup
  rw [record?_renumber]
  cases l.record? node <;> rfl

theorem item_renumber :
    (l.renumber ρ).item node = carry (BuildError.renumber ρ) (·.renumber ρ) (l.item node) := by
  refine bind_eq_carry (l.lookup_renumber ρ node) fun r => ?_
  rw [NodeRecord.renumber]
  cases r.item <;> rfl

theorem sourceItem_renumber (n : Node) :
    (l.renumber ρ).sourceItem n =
      carry (BuildError.renumber ρ) (·.renumber ρ) (l.sourceItem n) := by
  unfold sourceItem
  rw [item_renumber]
  cases l.item n.id <;> rfl

theorem register_renumber (p : Projection) :
    (l.register p).renumber ρ = (l.renumber ρ).register (p.renumber ρ) := by
  cases p <;> rfl

theorem ensureClause_renumber (callSite : String) :
    (l.renumber ρ).ensureClause callSite =
      carry (BuildError.renumber ρ) id (l.ensureClause callSite) := by
  show l.ensureClause callSite = _
  unfold ensureClause
  split_ifs <;> rfl

theorem ensureProjection_renumber (callSite : String) (identity : Bool) :
    (l.renumber ρ).ensureProjection callSite identity =
      carry (BuildError.renumber ρ) id (l.ensureProjection callSite identity) := by
  show l.ensureProjection callSite identity = _
  unfold ensureProjection
  split_ifs <;> rfl

end Ledger

/-! ### Lambdas -/

/-- An expression that holds no identities: it is the same with other ones. -/
abbrev Expr.Fixed (e : Expr) : Prop := e.renumber ρ = e

theorem Expr.ensureResolved_renumber (e : Expr) :
    (e.renumber ρ).ensureResolved = carry (BuildError.renumber ρ) id e.ensureResolved := by
  unfold ensureResolved
  rw [freeParams_renumber]
  cases e.freeParams <;> rfl

namespace Lambda

variable {ρ} {lambda : Lambda} {resolve resolve' : Param → Expr → Except BuildError Expr}

theorem unary_renumber : lambda.unary = carry (BuildError.renumber ρ) id lambda.unary := by
  unfold unary
  cases lambda.single? <;> rfl

theorem binary_renumber : lambda.binary = carry (BuildError.renumber ρ) id lambda.binary := by
  unfold binary
  split <;> rfl

theorem resolveBy_renumber (fixed : lambda.body.Fixed ρ)
    (h : ∀ p e, resolve' p (e.renumber ρ) =
      carry (BuildError.renumber ρ) (·.renumber ρ) (resolve p e)) :
    lambda.resolveBy resolve' =
      carry (BuildError.renumber ρ) (·.renumber ρ) (lambda.resolveBy resolve) := by
  refine bind_eq_carry unary_renumber fun p => ?_
  have body := h p lambda.body
  rw [fixed] at body
  refine bind_eq_carry body fun e => ?_
  exact bind_eq_carry (e.ensureResolved_renumber ρ) fun _ => rfl

theorem resolveResult_renumber (l : Ledger) (n : Node) {linked : Except BuildError Unit}
    (fixed : lambda.body.Fixed ρ) (hl : linked = carry (BuildError.renumber ρ) id linked)
    (h : ∀ p e, resolve' p (e.renumber ρ) =
      carry (BuildError.renumber ρ) (·.renumber ρ) (resolve p e)) :
    lambda.resolveResult (l.renumber ρ) n linked resolve' =
      carry (BuildError.renumber ρ) (·.renumber ρ) (lambda.resolveResult l n linked resolve) := by
  refine bind_eq_carry binary_renumber fun ⟨outer, inner⟩ => ?_
  refine bind_eq_carry (l.item_renumber ρ n.id) fun item => ?_
  refine bind_eq_carry hl fun _ => ?_
  have body := h outer (lambda.body.substituteParam inner (.item item))
  rw [Expr.renumber_substituteParam, fixed] at body
  refine bind_eq_carry body fun e => ?_
  exact bind_eq_carry (e.ensureResolved_renumber ρ) fun _ => rfl

end Lambda

/-! ### Routes -/

namespace Route

variable (l : Ledger) (route : Route)

theorem linked_renumber : route.linked = carry (BuildError.renumber ρ) id route.linked := by
  cases route <;> rfl

theorem itemType_renumber :
    route.itemType (l.renumber ρ) = carry (BuildError.renumber ρ) id (route.itemType l) := by
  induction route with
  | via n rest ih =>
    have item : (do return (← (l.renumber ρ).item n.id).type : Except BuildError Ty) =
        carry (BuildError.renumber ρ) id (do return (← l.item n.id).type) :=
      bind_eq_carry (l.item_renumber ρ n.id) fun _ => rfl
    rw [itemType, itemType]
    cases n.operation with
    | mainSource _ | subQuerySource _ => exact item
    | selectMany _ result =>
      cases result with
      | none => exact item
      | some _ => rfl
    | groupBy _ element =>
      cases element with
      | none => exact bind_eq_carry ih fun _ => rfl
      | some _ => rfl
    | filter _ | orderBy _ _ _ | define _ _ | resultOperator _ => exact ih
    | select _ | cast _ _ => rfl
  | _ => rfl

variable {ρ} {route}

/-- **Resolution** with other identities, if the selectors on the way hold none. -/
theorem resolve_renumber
    (fixed : ∀ n ∈ route.nodes, ∀ selector ∈ n.operation.selectors, selector.body.Fixed ρ)
    (p : Param) (body : Expr) :
    route.resolve (l.renumber ρ) p (body.renumber ρ) =
      carry (BuildError.renumber ρ) (·.renumber ρ) (route.resolve l p body) := by
  induction route generalizing p body with
  | via n rest ih =>
    have before := ih fun m hm => fixed m (List.mem_cons_of_mem _ hm)
    have own : ∀ selector ∈ n.operation.selectors, selector.body.Fixed ρ :=
      fixed n List.mem_cons_self
    rw [resolve, resolve]
    cases op : n.operation with
    | mainSource _ | subQuerySource _ =>
      refine bind_eq_carry (l.sourceItem_renumber ρ n) fun r => ?_
      exact congrArg Except.ok (body.renumber_substituteParam ρ p (.item r)).symm
    | selectMany _ result =>
      cases result with
      | none =>
        refine bind_eq_carry (l.item_renumber ρ n.id) fun r => ?_
        exact congrArg Except.ok (body.renumber_substituteParam ρ p (.item r)).symm
      | some selector =>
        have hs : selector.body.Fixed ρ := own selector (by simp [op, Operation.selectors])
        refine bind_eq_carry
          (Lambda.resolveResult_renumber l n hs (rest.linked_renumber ρ) before) fun e => ?_
        exact congrArg Except.ok (body.renumber_substituteParam ρ p e).symm
    | select selector =>
      have hs : selector.body.Fixed ρ := own selector (by simp [op, Operation.selectors])
      refine bind_eq_carry (rest.linked_renumber ρ) fun _ => ?_
      refine bind_eq_carry (Lambda.resolveBy_renumber hs before) fun e => ?_
      exact congrArg Except.ok (body.renumber_substituteParam ρ p e).symm
    | define name _ =>
      refine bind_eq_carry (before p body) fun e => ?_
      refine bind_eq_carry (l.item_renumber ρ n.id) fun r => ?_
      exact congrArg Except.ok (e.renumber_substituteParam ρ name (.item r)).symm
    | cast _ type =>
      refine bind_eq_carry (rest.itemType_renumber ρ l) fun t => ?_
      have converted :=
        before ⟨p.name, t⟩ (body.substituteParam p (.convert (.param ⟨p.name, t⟩) type))
      rwa [Expr.renumber_substituteParam] at converted
    | groupBy _ _ => rfl
    | filter _ | orderBy _ _ _ | resultOperator _ => exact before p body
  | _ => rfl

end Route

/-! ### Chains -/

section

variable {ρ} {c : Chain} (fixed : ∀ n ∈ c.nodes, ∀ e ∈ n.operation.expressions, e.Fixed ρ)
  (l : Ledger) (link : NodeId)

include fixed

theorem Chain.resolve_renumber (p : Param) (body : Expr) :
    c.resolve (l.renumber ρ) link p (body.renumber ρ) =
      carry (BuildError.renumber ρ) (·.renumber ρ) (c.resolve l link p body) :=
  Route.resolve_renumber l (fun n hn _ hs =>
    fixed n (mem_of_mem_route hn) _ (Operation.body_mem_expressions hs)) p body

theorem Chain.resolveLambda_renumber {lambda : Lambda} (hb : lambda.body.Fixed ρ) :
    c.resolveLambda (l.renumber ρ) link lambda =
      carry (BuildError.renumber ρ) (·.renumber ρ) (c.resolveLambda l link lambda) :=
  Lambda.resolveBy_renumber hb (c.resolve_renumber fixed l link)

theorem Node.groupElement_renumber (key : Lambda) {element : Option Lambda}
    (hb : ∀ selector ∈ element, selector.body.Fixed ρ) :
    groupElement (m := Id) c (l.renumber ρ) link key element =
      carry (BuildError.renumber ρ) (·.renumber ρ)
        (groupElement (m := Id) c l link key element) := by
  cases element with
  | some selector => exact c.resolveLambda_renumber fixed l link (hb selector rfl)
  | none =>
    unfold groupElement
    cases key.single? with
    | none => rfl
    | some p => exact c.resolve_renumber fixed l link p (.param p)

theorem Node.resolveArgument_renumber {e : Expr} (he : e.Fixed ρ) :
    resolveArgument (m := Id) c (l.renumber ρ) link e =
      carry (BuildError.renumber ρ) (·.renumber ρ) (resolveArgument (m := Id) c l link e) := by
  unfold resolveArgument
  split
  · refine c.resolveLambda_renumber fixed l link ?_
    exact (Expr.lambda.inj he).2
  · exact congrArg Except.ok he.symm

theorem ResultOp.replaceM_renumber {op : ResultOp} (ho : ∀ e ∈ op.expressions, e.Fixed ρ) :
    op.replaceM (Node.resolveArgument (m := Id) c (l.renumber ρ) link) =
      carry (BuildError.renumber ρ) (·.renumber ρ)
        (op.replaceM (Node.resolveArgument (m := Id) c l link)) := by
  cases op with
  | argument op arg =>
    have ha : arg.Fixed ρ := ho arg (List.mem_singleton_self arg)
    exact bind_eq_carry (Node.resolveArgument_renumber fixed l link ha) fun _ => rfl
  | _ => rfl

end

/-! ### Nodes -/

theorem link_renumber (n : Node) : n.link = carry (BuildError.renumber ρ) id n.link := by
  unfold Node.link
  cases n.source <;> rfl

theorem checkLinks_renumber (c : Chain) :
    c.checkLinks = carry (BuildError.renumber ρ) id c.checkLinks := by
  have links : ∀ position ns, Chain.checkLinksFrom position ns =
      carry (BuildError.renumber ρ) id (Chain.checkLinksFrom position ns) := by
    intro position ns
    induction ns generalizing position with
    | nil => rfl
    | cons n ns ih =>
      rw [Chain.checkLinksFrom]
      split_ifs
      · rfl
      · cases n.source with
        | none => exact ih (position + 1)
        | some source =>
          dsimp only
          split_ifs
          · rfl
          · exact ih (position + 1)
  exact links 0 c.nodes

theorem manyItem_renumber (n : Node) (result : Option Lambda) (element : Ty) :
    n.manyItem result element = carry (BuildError.renumber ρ) id (n.manyItem result element) := by
  cases result with
  | none => rfl
  | some selector => exact bind_eq_carry Lambda.binary_renumber fun _ => rfl

theorem sourceItemType_renumber (e : Expr) :
    sourceItemType (e.renumber ρ) = carry (BuildError.renumber ρ) id (sourceItemType e) := by
  unfold sourceItemType
  rw [Expr.type_renumber, Expr.render_renumber]
  cases e.type.element? <;> rfl

end QueryFold
