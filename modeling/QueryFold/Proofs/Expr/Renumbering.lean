import QueryFold.Expr.Render
import QueryFold.Proofs.Expr.Substitution

/-!
# Other identities

Expressions and queries in which every source has another identity. The identities are replaced
wherever they occur: in the sources of clauses, in the references of expressions, and in queries at
every depth, those that are values in expressions included.

Nothing that is computed from an expression notices, but for the list of the sources to which it
refers, and that list is renumbered with it. In particular texts do not show identities
(`Expr.render_renumber`).
-/

namespace QueryFold

variable (ρ : SourceId → SourceId)

/-- The source with another identity. -/
def Source.renumber (s : Source) : Source := { s with id := ρ s.id }

/-- The reference to the source with another identity. -/
def ItemRef.renumber (r : ItemRef) : ItemRef := { r with source := ρ r.source }

@[simp] theorem Source.item_renumber (s : Source) : (s.renumber ρ).item = s.item :=
  rfl

mutual

/-- The expression with other identities. -/
def Expr.renumber : Expr → Expr
  | .constant v t => .constant v t
  | .param p => .param p
  | .item r => .item (r.renumber ρ)
  | .member e n t => .member e.renumber n t
  | .convert e t => .convert e.renumber t
  | .unary op e t => .unary op e.renumber t
  | .binary op l r t => .binary op l.renumber r.renumber t
  | .call o m es t => .call (renumberReceiver o) m (renumberExprs es) t
  | .create t ms es => .create t ms (renumberExprs es)
  | .lambda ps e => .lambda ps e.renumber
  | .subQuery q => .subQuery q.renumber

/-- The object of a call with other identities. -/
def renumberReceiver : Option Expr → Option Expr
  | none => none
  | some e => some e.renumber

/-- Several expressions with other identities. -/
def renumberExprs : List Expr → List Expr
  | [] => []
  | e :: es => e.renumber :: renumberExprs es

/-- The sort key with other identities. -/
def SortKey.renumber : SortKey → SortKey
  | ⟨key, direction, owner⟩ => ⟨key.renumber, direction, owner⟩

/-- Several sort keys with other identities. -/
def renumberKeys : List SortKey → List SortKey
  | [] => []
  | k :: ks => k.renumber :: renumberKeys ks

/-- The clause with other identities. -/
def Clause.renumber : Clause → Clause
  | .fromExpr kind source generator projection previous =>
    .fromExpr kind (source.renumber ρ) generator.renumber (renumberReceiver projection) previous
  | .fromQuery source query projection previous =>
    .fromQuery (source.renumber ρ) query.renumber (renumberReceiver projection) previous
  | .filter predicate previous => .filter predicate.renumber previous
  | .define source value previous => .define (source.renumber ρ) value.renumber previous
  | .orderBy keys previous => .orderBy (renumberKeys keys) previous

/-- The body with other identities. -/
def renumberBody : List Clause → List Clause
  | [] => []
  | c :: cs => c.renumber :: renumberBody cs

/-- The last clause with other identities. -/
def Terminal.renumber : Terminal → Terminal
  | .select selector previous => .select selector.renumber previous
  | .group key element previous => .group key.renumber element.renumber previous

/-- The last clause, if there is one, with other identities. -/
def renumberTerminal : Option Terminal → Option Terminal
  | none => none
  | some t => some t.renumber

/-- The operator with other identities. -/
def ResultOp.renumber : ResultOp → ResultOp
  | .cast kind type => .cast kind type
  | .plain op => .plain op
  | .pick op orDefault => .pick op orDefault
  | .argument op arg => .argument op arg.renumber

/-- Several operators with other identities. -/
def renumberOperators : List ResultOp → List ResultOp
  | [] => []
  | op :: ops => op.renumber :: renumberOperators ops

/-- The query with other identities. -/
def Query.renumber : Query → Query
  | ⟨source, generator, body, terminal, operators, resultType⟩ =>
    ⟨source.renumber ρ, generator.renumber, renumberBody body, renumberTerminal terminal,
      renumberOperators operators, resultType⟩

end

/-! The functions on options and lists are the general ones. -/

theorem renumberReceiver_eq_map (o : Option Expr) :
    renumberReceiver ρ o = o.map (·.renumber ρ) := by
  cases o <;> rfl

theorem renumberExprs_eq_map (es : List Expr) : renumberExprs ρ es = es.map (·.renumber ρ) := by
  induction es with
  | nil => rfl
  | cons e es ih => rw [renumberExprs, ih, List.map_cons]

theorem renumberKeys_eq_map (ks : List SortKey) : renumberKeys ρ ks = ks.map (·.renumber ρ) := by
  induction ks with
  | nil => rfl
  | cons k ks ih => rw [renumberKeys, ih, List.map_cons]

theorem renumberBody_eq_map (cs : List Clause) : renumberBody ρ cs = cs.map (·.renumber ρ) := by
  induction cs with
  | nil => rfl
  | cons c cs ih => rw [renumberBody, ih, List.map_cons]

theorem renumberTerminal_eq_map (o : Option Terminal) :
    renumberTerminal ρ o = o.map (·.renumber ρ) := by
  cases o <;> rfl

theorem renumberOperators_eq_map (ops : List ResultOp) :
    renumberOperators ρ ops = ops.map (·.renumber ρ) := by
  induction ops with
  | nil => rfl
  | cons op ops ih => rw [renumberOperators, ih, List.map_cons]

/-! ### Two renumberings

Expressions and queries hold each other, so there is one law for each function above. -/

section

variable (σ : SourceId → SourceId)

mutual

theorem Expr.renumber_renumber : ∀ e : Expr, (e.renumber ρ).renumber σ = e.renumber (σ ∘ ρ)
  | .constant _ _ | .param _ | .item _ => rfl
  | .member e _ _ | .convert e _ | .unary _ e _ | .lambda _ e => by
    simp only [Expr.renumber, e.renumber_renumber]
  | .binary _ l r _ => by
    simp only [Expr.renumber, l.renumber_renumber, r.renumber_renumber]
  | .call o _ es _ => by
    simp only [Expr.renumber, renumberReceiver_renumber o, renumberExprs_renumber es]
  | .create _ _ es => by
    simp only [Expr.renumber, renumberExprs_renumber es]
  | .subQuery q => by
    simp only [Expr.renumber, q.renumber_renumber]

theorem renumberReceiver_renumber :
    ∀ o, renumberReceiver σ (renumberReceiver ρ o) = renumberReceiver (σ ∘ ρ) o
  | none => rfl
  | some e => by
    simp only [renumberReceiver, e.renumber_renumber]

theorem renumberExprs_renumber :
    ∀ es, renumberExprs σ (renumberExprs ρ es) = renumberExprs (σ ∘ ρ) es
  | [] => rfl
  | e :: es => by
    simp only [renumberExprs, e.renumber_renumber, renumberExprs_renumber es]

theorem SortKey.renumber_renumber : ∀ k : SortKey, (k.renumber ρ).renumber σ = k.renumber (σ ∘ ρ)
  | ⟨e, _, _⟩ => by
    simp only [SortKey.renumber, e.renumber_renumber]

theorem renumberKeys_renumber :
    ∀ ks, renumberKeys σ (renumberKeys ρ ks) = renumberKeys (σ ∘ ρ) ks
  | [] => rfl
  | k :: ks => by
    simp only [renumberKeys, k.renumber_renumber, renumberKeys_renumber ks]

theorem Clause.renumber_renumber : ∀ c : Clause, (c.renumber ρ).renumber σ = c.renumber (σ ∘ ρ)
  | .fromExpr _ _ e p _ => by
    simp only [Clause.renumber, e.renumber_renumber, renumberReceiver_renumber p, Source.renumber,
      Function.comp_apply]
  | .fromQuery _ q p _ => by
    simp only [Clause.renumber, q.renumber_renumber, renumberReceiver_renumber p, Source.renumber,
      Function.comp_apply]
  | .filter e _ => by
    simp only [Clause.renumber, e.renumber_renumber]
  | .define _ e _ => by
    simp only [Clause.renumber, e.renumber_renumber, Source.renumber, Function.comp_apply]
  | .orderBy ks _ => by
    simp only [Clause.renumber, renumberKeys_renumber ks]

theorem renumberBody_renumber :
    ∀ cs, renumberBody σ (renumberBody ρ cs) = renumberBody (σ ∘ ρ) cs
  | [] => rfl
  | c :: cs => by
    simp only [renumberBody, c.renumber_renumber, renumberBody_renumber cs]

theorem Terminal.renumber_renumber :
    ∀ t : Terminal, (t.renumber ρ).renumber σ = t.renumber (σ ∘ ρ)
  | .select e _ => by
    simp only [Terminal.renumber, e.renumber_renumber]
  | .group k e _ => by
    simp only [Terminal.renumber, k.renumber_renumber, e.renumber_renumber]

theorem renumberTerminal_renumber :
    ∀ o, renumberTerminal σ (renumberTerminal ρ o) = renumberTerminal (σ ∘ ρ) o
  | none => rfl
  | some t => by
    simp only [renumberTerminal, t.renumber_renumber]

theorem ResultOp.renumber_renumber :
    ∀ op : ResultOp, (op.renumber ρ).renumber σ = op.renumber (σ ∘ ρ)
  | .cast _ _ | .plain _ | .pick _ _ => rfl
  | .argument _ e => by
    simp only [ResultOp.renumber, e.renumber_renumber]

theorem renumberOperators_renumber :
    ∀ ops, renumberOperators σ (renumberOperators ρ ops) = renumberOperators (σ ∘ ρ) ops
  | [] => rfl
  | op :: ops => by
    simp only [renumberOperators, op.renumber_renumber, renumberOperators_renumber ops]

theorem Query.renumber_renumber : ∀ q : Query, (q.renumber ρ).renumber σ = q.renumber (σ ∘ ρ)
  | ⟨_, e, b, t, ops, _⟩ => by
    simp only [Query.renumber, e.renumber_renumber, renumberBody_renumber b,
      renumberTerminal_renumber t, renumberOperators_renumber ops, Source.renumber,
      Function.comp_apply]

end

end

/-! ### Texts -/

@[simp] theorem renderFrom_renumber (s : Source) : renderFrom (s.renumber ρ) = renderFrom s :=
  rfl

mutual

/-- The text of an expression does not show identities: of a reference it shows the name. -/
theorem Expr.render_renumber : ∀ e : Expr, (e.renumber ρ).render = e.render
  | .constant _ _ | .param _ | .item _ => rfl
  | .member e _ _ | .convert e _ | .lambda _ e => by
    simp only [Expr.renumber, Expr.render, e.render_renumber]
  | .unary op e _ => by
    cases op <;> simp only [Expr.renumber, Expr.render, e.render_renumber]
  | .binary _ l r _ => by
    simp only [Expr.renumber, Expr.render, l.render_renumber, r.render_renumber]
  | .call o _ es _ => by
    simp only [Expr.renumber, Expr.render, renderReceiver_renumber o, renderExprs_renumber es]
  | .create _ _ es => by
    simp only [Expr.renumber, Expr.render, renderExprs_renumber es]
  | .subQuery q => by
    simp only [Expr.renumber, Expr.render, q.render_renumber]

theorem renderReceiver_renumber : ∀ o, renderReceiver (renumberReceiver ρ o) = renderReceiver o
  | none => rfl
  | some e => by
    simp only [renumberReceiver, renderReceiver, e.render_renumber]

theorem renderExprs_renumber : ∀ es, renderExprs (renumberExprs ρ es) = renderExprs es
  | [] => rfl
  | e :: es => by
    simp only [renumberExprs, renderExprs, e.render_renumber, renderExprs_renumber es]

theorem SortKey.render_renumber : ∀ k : SortKey, (k.renumber ρ).render = k.render
  | ⟨e, _, _⟩ => by
    simp only [SortKey.renumber, SortKey.render, e.render_renumber]

theorem renderKeys_renumber : ∀ ks, renderKeys (renumberKeys ρ ks) = renderKeys ks
  | [] => rfl
  | k :: ks => by
    simp only [renumberKeys, renderKeys, k.render_renumber, renderKeys_renumber ks]

theorem Clause.render_renumber : ∀ c : Clause, (c.renumber ρ).render = c.render
  | .fromExpr _ _ e _ _ | .filter e _ | .define _ e _ => by
    simp only [Clause.renumber, Clause.render, e.render_renumber, renderFrom_renumber,
      Source.item_renumber]
  | .fromQuery _ q _ _ => by
    simp only [Clause.renumber, Clause.render, q.render_renumber, renderFrom_renumber]
  | .orderBy ks _ => by
    simp only [Clause.renumber, Clause.render, renderKeys_renumber ks]

theorem renderBody_renumber : ∀ cs, renderBody (renumberBody ρ cs) = renderBody cs
  | [] => rfl
  | c :: cs => by
    simp only [renumberBody, renderBody, c.render_renumber, renderBody_renumber cs]

theorem Terminal.render_renumber : ∀ t : Terminal, (t.renumber ρ).render = t.render
  | .select e _ => by
    simp only [Terminal.renumber, Terminal.render, e.render_renumber]
  | .group k e _ => by
    simp only [Terminal.renumber, Terminal.render, k.render_renumber, e.render_renumber]

theorem renderTerminal_renumber : ∀ o, renderTerminal (renumberTerminal ρ o) = renderTerminal o
  | none => rfl
  | some t => by
    simp only [renumberTerminal, renderTerminal, t.render_renumber]

theorem ResultOp.render_renumber : ∀ op : ResultOp, (op.renumber ρ).render = op.render
  | .cast _ _ | .plain _ | .pick _ _ => rfl
  | .argument _ e => by
    simp only [ResultOp.renumber, ResultOp.render, e.render_renumber]

theorem renderOperators_renumber :
    ∀ ops, renderOperators (renumberOperators ρ ops) = renderOperators ops
  | [] => rfl
  | op :: ops => by
    simp only [renumberOperators, renderOperators, op.render_renumber,
      renderOperators_renumber ops]

/-- **Texts** of queries do not show identities. -/
theorem Query.render_renumber : ∀ q : Query, (q.renumber ρ).render = q.render
  | ⟨_, e, b, t, ops, _⟩ => by
    simp only [Query.renumber, Query.render, e.render_renumber, renderBody_renumber b,
      renderTerminal_renumber t, renderOperators_renumber ops, renderFrom_renumber]

end

/-! ### Types -/

namespace Expr

@[simp] theorem type_renumber (e : Expr) : (e.renumber ρ).type = e.type := by
  induction e using Expr.induction with
  | step e ih =>
    cases e with
    | lambda ps body => simp only [renumber, type, ih body (by simp [children])]
    | subQuery q =>
      cases q
      rw [renumber, Query.renumber, type, type]
    | _ => rfl

@[simp] theorem projectedType_renumber (e : Expr) :
    (e.renumber ρ).projectedType = e.projectedType := by
  cases e with
  | lambda ps body => exact type_renumber ρ body
  | _ => exact type_renumber ρ _

/-! ### Subexpressions -/

theorem renumber_plain {e : Expr} (he : e.Plain) :
    e.renumber ρ = e.mapChildren (·.renumber ρ) := by
  cases e with
  | param _ | item _ | lambda _ _ | subQuery _ => exact he.elim
  | _ => simp [renumber, mapChildren, renumberReceiver_eq_map, renumberExprs_eq_map]

/-- An expression that refers to no source and holds no query stays as it is. -/
theorem renumber_eq_self {e : Expr} (plain : ¬ HoldsQuery e) (closed : ∀ id, ¬ RefersTo id e) :
    e.renumber ρ = e := by
  induction e using Expr.induction with
  | step e ih =>
    by_cases he : e.Plain
    · rw [renumber_plain ρ he]
      refine (mapChildren_congr fun c hc => ?_).trans e.mapChildren_id
      exact ih c hc (fun h => plain (.child hc h)) fun id h => closed id (.child hc h)
    cases e with
    | param p => rfl
    | item r => exact absurd (.item rfl) (closed r.source)
    | subQuery q => exact absurd (.query q) plain
    | lambda ps body =>
      have hb : body ∈ (lambda ps body).children := List.mem_singleton_self body
      rw [renumber, ih body hb (fun h => plain (.child hb h)) fun id h => closed id (.child hb h)]
    | _ => exact absurd trivial he

theorem renumber_substituteParam (e : Expr) (p : Param) (r : Expr) :
    (e.substituteParam p r).renumber ρ = (e.renumber ρ).substituteParam p (r.renumber ρ) := by
  induction e using Expr.induction with
  | step e ih =>
    by_cases he : e.Plain
    · rw [substituteParam_plain he, renumber_plain ρ (plain_mapChildren he _),
        mapChildren_mapChildren, renumber_plain ρ he,
        substituteParam_plain (plain_mapChildren he _), mapChildren_mapChildren]
      exact mapChildren_congr ih
    cases e with
    | param q =>
      rw [renumber, substituteParam_param, substituteParam_param]
      split_ifs <;> rfl
    | lambda ps body =>
      rw [renumber, substituteParam_lambda, substituteParam_lambda]
      split_ifs
      · rfl
      · rw [renumber, ih body (by simp [children])]
    | item i => rw [substituteParam_item, renumber, substituteParam_item]
    | subQuery q => rw [substituteParam_subQuery, renumber, substituteParam_subQuery]
    | _ => exact absurd trivial he

/-! ### Walks -/

section

variable {ρ} {σ : Type} {v : Visitor σ Unit} {f : σ → σ}

/-- A walk of the expression with other identities goes side by side with a walk of the expression:
what each finds is the image of what the other finds, if this is so at the expressions without
subexpressions and at lambdas. -/
theorem after_renumber (hv : ∀ e, v.other e = pure ())
    (leaf : ∀ (e : Expr) s, ¬ e.Plain → e.children = [] →
      (e.renumber ρ).after v (f s) = f (e.after v s))
    (lambda : ∀ ps body, (∀ s, (body.renumber ρ).after v (f s) = f (body.after v s)) →
      ∀ s, ((lambda ps body).renumber ρ).after v (f s) = f ((lambda ps body).after v s))
    (e : Expr) (s : σ) : (e.renumber ρ).after v (f s) = f (e.after v s) := by
  induction e using Expr.induction generalizing s with
  | step e ih =>
    by_cases he : e.Plain
    · rw [renumber_plain ρ he, after_eq_children v hv (plain_mapChildren he _),
        after_eq_children v hv he, children_mapChildren, List.foldl_map]
      revert ih
      generalize e.children = es
      intro ih
      induction es generalizing s with
      | nil => rfl
      | cons c cs ihs =>
        rw [List.foldl_cons, List.foldl_cons, ih c List.mem_cons_self]
        exact ihs _ fun c' hc' => ih c' (List.mem_cons_of_mem _ hc')
    cases e with
    | lambda ps body => exact lambda ps body (ih body (by simp [children])) s
    | param _ | item _ | subQuery _ => exact leaf _ s he rfl
    | _ => exact absurd trivial he

end

@[simp] theorem freeParams_renumber (e : Expr) : (e.renumber ρ).freeParams = e.freeParams := by
  have same : ∀ s, (e.renumber ρ).after freeParamVisitor s = e.after freeParamVisitor s := by
    refine after_renumber (v := freeParamVisitor) (f := fun s => s) (fun _ => rfl) ?_ ?_ e
    · intro e s he hc
      cases e with
      | param _ | item _ | subQuery _ => rfl
      | lambda _ _ => simp [children] at hc
      | _ => exact absurd trivial he
    · intro ps body ih s
      rw [renumber, after_lambda, after_lambda, ih]
  exact congrArg ParamScope.free (same ⟨[], []⟩)

variable {ρ} in
/-- The sources to which the expression refers are those of the expression before, renumbered. -/
theorem sources_renumber (inj : Function.Injective ρ) (e : Expr) :
    (e.renumber ρ).sources = e.sources.map ρ := by
  refine after_renumber (v := sourceVisitor) (f := List.map ρ) (fun _ => rfl) ?_
    (fun _ _ ih => ih) e []
  intro e s he hc
  cases e with
  | item r =>
    show (if ρ r.source ∈ s.map ρ then s.map ρ else s.map ρ ++ [ρ r.source]) =
      (if r.source ∈ s then s else s ++ [r.source]).map ρ
    simp only [List.mem_map_of_injective inj]
    split_ifs
    · rfl
    · rw [List.map_append, List.map_singleton]
  | param _ | subQuery _ => rfl
  | lambda _ _ => simp [children] at hc
  | _ => exact absurd trivial he

end Expr

end QueryFold
