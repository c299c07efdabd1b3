import QueryFold.Chain.Application
import QueryFold.Proofs.Chain.Run
import Mathlib.Tactic.SplitIfs

/-!
# Errors that are not about the depth

A build fails for the depth of nesting only where a chain is entered. None of the checks and
resolutions that applying a node consists of fails in this way: they are sober.
-/

namespace QueryFold

/-- The error is not about the depth of nesting. -/
def BuildError.Sober (e : BuildError) : Prop := ∀ depth limit, e ≠ .tooDeep depth limit

namespace BuildError

theorem sober_noProjection : noProjection.Sober := fun _ _ h => by cases h

theorem sober_misuse (m : Misuse) : (misuse m).Sober := fun _ _ h => by cases h

theorem sober_unresolvable (s : String) : (unresolvable s).Sober := fun _ _ h => by cases h

theorem sober_query (cause : QueryError) : (query cause).Sober := fun _ _ h => by cases h

end BuildError

theorem OpenFrom.sober_error (o : OpenFrom) : o.error.Sober := fun _ _ h => by cases h

/-- The result is no error about the depth of nesting. -/
def Sober {α : Type} (x : Except BuildError α) : Prop := ∀ e, x = .error e → e.Sober

section

variable {α β : Type}

@[simp] theorem sober_ok (a : α) : Sober (.ok a) := nofun

@[simp] theorem sober_pure (a : α) : Sober (pure a) := nofun

theorem sober_error_iff {e : BuildError} : Sober (.error e : Except BuildError α) ↔ e.Sober :=
  ⟨fun h => h e rfl, fun h _ he => by cases he; exact h⟩

@[simp] theorem sober_throw {e : BuildError} : Sober (throw e : Except BuildError α) ↔ e.Sober :=
  sober_error_iff

@[simp] theorem sober_misuse (m : Misuse) : Sober (.error (.misuse m) : Except BuildError α) :=
  sober_error_iff.mpr (BuildError.sober_misuse m)

@[simp] theorem sober_unresolvable (s : String) :
    Sober (.error (.unresolvable s) : Except BuildError α) :=
  sober_error_iff.mpr (BuildError.sober_unresolvable s)

theorem Sober.bind {x : Except BuildError α} {f : α → Except BuildError β} (hx : Sober x)
    (hf : ∀ a, x = .ok a → Sober (f a)) : Sober (x >>= f) := by
  cases x with
  | ok a => exact hf a rfl
  | error e => exact sober_error_iff.mpr (hx e rfl)

theorem sober_ofQueryResult (x : Except QueryError α) : Sober (ofQueryResult x) := by
  cases x with
  | ok a => exact sober_ok a
  | error e => exact sober_error_iff.mpr (BuildError.sober_query e)

end

section

variable (chain : Chain) (l : Ledger) (n : Node) (id : NodeId) (lambda : Lambda)

theorem sober_link : Sober n.link := by
  unfold Node.link
  split <;> simp

theorem sober_ensureClause (callSite : String) : Sober (l.ensureClause callSite) := by
  unfold Ledger.ensureClause
  split_ifs <;> simp

theorem sober_ensureProjection (callSite : String) (identity : Bool) :
    Sober (l.ensureProjection callSite identity) := by
  unfold Ledger.ensureProjection
  split_ifs <;> simp

theorem sober_record (r : NodeRecord) : Sober (l.record id r) := by
  unfold Ledger.record
  split_ifs <;> simp

theorem sober_item : Sober (l.item id) := by
  refine Sober.bind ?_ fun r _ => ?_
  · unfold Ledger.lookup
    split <;> simp
  · split <;> simp

theorem sober_sourceItem : Sober (l.sourceItem n) := by
  unfold Ledger.sourceItem
  split <;> simp

theorem sober_sourceItemType (e : Expr) : Sober (sourceItemType e) := by
  unfold sourceItemType
  split <;> simp

theorem sober_unary : Sober lambda.unary := by
  unfold Lambda.unary
  split <;> simp

theorem sober_binary : Sober lambda.binary := by
  unfold Lambda.binary
  split <;> simp

theorem sober_ensureResolved (e : Expr) : Sober e.ensureResolved := by
  unfold Expr.ensureResolved
  split <;> simp

theorem sober_linked (route : Route) : Sober route.linked := by
  cases route <;> simp [Route.linked]

theorem sober_manyItem (result : Option Lambda) (element : Ty) :
    Sober (n.manyItem result element) := by
  cases result with
  | none => exact sober_ok _
  | some selector => exact (sober_binary selector).bind fun _ _ => sober_pure _

variable {lambda}

theorem sober_resolveBy {resolve : Param → Expr → Except BuildError Expr}
    (h : ∀ p e, Sober (resolve p e)) : Sober (lambda.resolveBy resolve) :=
  (sober_unary lambda).bind fun p _ => (h p lambda.body).bind fun e _ =>
    (sober_ensureResolved e).bind fun _ _ => sober_pure e

theorem sober_resolveResult {linked : Except BuildError Unit}
    {resolve : Param → Expr → Except BuildError Expr} (hl : Sober linked)
    (h : ∀ p e, Sober (resolve p e)) : Sober (lambda.resolveResult l n linked resolve) :=
  (sober_binary lambda).bind fun p _ => (sober_item l n.id).bind fun _ _ =>
    hl.bind fun _ _ => (h p.1 _).bind fun e _ =>
      (sober_ensureResolved e).bind fun _ _ => sober_pure e

theorem sober_itemType (route : Route) : Sober (route.itemType l) := by
  induction route with
  | via node rest ih =>
    rw [Route.itemType]
    split
    any_goals exact ih
    any_goals exact sober_ok _
    any_goals exact (sober_item l node.id).bind fun _ _ => sober_pure _
    exact ih.bind fun _ _ => sober_pure _
  | _ => simp [Route.itemType]

theorem sober_resolve (route : Route) (p : Param) (e : Expr) : Sober (route.resolve l p e) := by
  induction route generalizing p e with
  | via node rest ih =>
    rw [Route.resolve]
    split
    any_goals exact ih p e
    any_goals exact (sober_sourceItem l node).bind fun _ _ => sober_pure _
    · exact (sober_resolveResult l node (sober_linked rest) ih).bind fun _ _ => sober_pure _
    · exact (sober_item l node.id).bind fun _ _ => sober_pure _
    · exact (sober_linked rest).bind fun _ _ => (sober_resolveBy ih).bind fun _ _ => sober_pure _
    · exact (ih p e).bind fun _ _ => (sober_item l node.id).bind fun _ _ => sober_pure _
    · exact sober_misuse _
    · exact (sober_itemType l rest).bind fun t _ => ih ⟨p.name, t⟩ _
  | _ => simp [Route.resolve]

theorem sober_resolveLambda : Sober (chain.resolveLambda l id lambda) :=
  sober_resolveBy fun p e => sober_resolve l (chain.route id) p e

theorem sober_groupElement (key : Lambda) (element : Option Lambda) :
    Sober (Node.groupElement (m := Id) chain l id key element) := by
  unfold Node.groupElement
  split
  · exact sober_resolveLambda chain l id
  · split
    · exact sober_resolve l (chain.route id) _ _
    · exact sober_misuse _

theorem sober_resolveArgument (e : Expr) : Sober (Node.resolveArgument (m := Id) chain l id e) := by
  unfold Node.resolveArgument
  split
  · exact sober_resolveLambda chain l id
  · exact sober_ok _

theorem sober_replaceM {resolve : Expr → Except BuildError Expr} (h : ∀ e, Sober (resolve e))
    (op : ResultOp) : Sober (op.replaceM resolve) := by
  cases op with
  | argument o e => exact (h e).bind fun _ _ => sober_pure _
  | _ => exact sober_pure _

theorem sober_checkLinks : Sober chain.checkLinks := by
  have from_ (position : Nat) (ns : List Node) : Sober (Chain.checkLinksFrom position ns) := by
    induction ns generalizing position with
    | nil => exact sober_ok _
    | cons n ns ih =>
      rw [Chain.checkLinksFrom]
      split_ifs
      · exact sober_misuse _
      · split
        · exact ih _
        · split_ifs
          · exact sober_misuse _
          · exact ih _
  exact from_ 0 chain.nodes

end

end QueryFold
