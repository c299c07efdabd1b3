import QueryFold.Language

/-!
# Equality of expressions and queries

Two expressions or queries are the same when they have the same shape and hold the same
parts. This is equality of the data except at floating-point literals, which are compared
as numbers.
-/

namespace QueryFold

mutual

/-- Whether two expressions are the same. -/
def Expr.same : Expr → Expr → Bool
  | .constant v t, .constant v' t' => v.same v' && t == t'
  | .param p, .param p' => p == p'
  | .item r, .item r' => r == r'
  | .member e n t, .member e' n' t' => e.same e' && n == n' && t == t'
  | .convert e t, .convert e' t' => e.same e' && t == t'
  | .unary op e t, .unary op' e' t' => op == op' && e.same e' && t == t'
  | .binary op l r t, .binary op' l' r' t' => op == op' && l.same l' && r.same r' && t == t'
  | .call o m es t, .call o' m' es' t' =>
    sameReceiver o o' && m == m' && sameExprs es es' && t == t'
  | .create t ms es, .create t' ms' es' => t == t' && ms == ms' && sameExprs es es'
  | .lambda ps e, .lambda ps' e' => ps == ps' && e.same e'
  | .subQuery q, .subQuery q' => q.same q'
  | _, _ => false

/-- Whether two optional expressions are the same. -/
def sameReceiver : Option Expr → Option Expr → Bool
  | none, none => true
  | some e, some e' => e.same e'
  | _, _ => false

/-- Whether two lists of expressions are the same. -/
def sameExprs : List Expr → List Expr → Bool
  | [], [] => true
  | e :: es, e' :: es' => e.same e' && sameExprs es es'
  | _, _ => false

/-- Whether two sort keys are the same. -/
def SortKey.same : SortKey → SortKey → Bool
  | ⟨e, d, o⟩, ⟨e', d', o'⟩ => e.same e' && d == d' && o == o'

/-- Whether two lists of sort keys are the same. -/
def sameKeys : List SortKey → List SortKey → Bool
  | [], [] => true
  | k :: ks, k' :: ks' => k.same k' && sameKeys ks ks'
  | _, _ => false

/-- Whether two body clauses are the same. -/
def Clause.same : Clause → Clause → Bool
  | .fromExpr k s e p prev, .fromExpr k' s' e' p' prev' =>
    k == k' && s == s' && e.same e' && sameReceiver p p' && prev == prev'
  | .fromQuery s q p prev, .fromQuery s' q' p' prev' =>
    s == s' && q.same q' && sameReceiver p p' && prev == prev'
  | .filter e prev, .filter e' prev' => e.same e' && prev == prev'
  | .define s e prev, .define s' e' prev' => s == s' && e.same e' && prev == prev'
  | .orderBy ks prev, .orderBy ks' prev' => sameKeys ks ks' && prev == prev'
  | _, _ => false

/-- Whether two bodies are the same. -/
def sameBody : List Clause → List Clause → Bool
  | [], [] => true
  | c :: cs, c' :: cs' => c.same c' && sameBody cs cs'
  | _, _ => false

/-- Whether two last clauses are the same. -/
def Terminal.same : Terminal → Terminal → Bool
  | .select e prev, .select e' prev' => e.same e' && prev == prev'
  | .group k e prev, .group k' e' prev' => k.same k' && e.same e' && prev == prev'
  | _, _ => false

/-- Whether two optional last clauses are the same. -/
def sameTerminal : Option Terminal → Option Terminal → Bool
  | none, none => true
  | some t, some t' => t.same t'
  | _, _ => false

/-- Whether two operators on the result are the same. -/
def ResultOp.same : ResultOp → ResultOp → Bool
  | .cast k t, .cast k' t' => k == k' && t == t'
  | .plain op, .plain op' => op == op'
  | .pick op d, .pick op' d' => op == op' && d == d'
  | .argument op e, .argument op' e' => op == op' && e.same e'
  | _, _ => false

/-- Whether two lists of operators are the same. -/
def sameOperators : List ResultOp → List ResultOp → Bool
  | [], [] => true
  | op :: ops, op' :: ops' => op.same op' && sameOperators ops ops'
  | _, _ => false

/-- Whether two queries are the same. -/
def Query.same : Query → Query → Bool
  | ⟨s, e, b, t, ops, r⟩, ⟨s', e', b', t', ops', r'⟩ =>
    s == s' && e.same e' && sameBody b b' && sameTerminal t t' && sameOperators ops ops' && r == r'

end

/-- Only a parameter is the same as a parameter. -/
theorem Expr.same_param (e : Expr) (p : Param) : e.same (.param p) = true ↔ e = .param p := by
  cases e <;> simp [Expr.same]

end QueryFold
