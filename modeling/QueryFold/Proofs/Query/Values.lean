import QueryFold.Proofs.Query.Dependence

/-!
# Queries written as values

A query can stand in another one in two ways: a from clause iterates over it, or it is written as
a value in an expression. Either way its expressions may refer to its own sources and to those of
the queries around it. `Query.Anchored` says that all references do, at every depth and in both
kinds of nested queries.

Validation enters the nested queries of from clauses, but expressions show it no more of a query
than that it is there. So a reference in a query that is written as a value may lead nowhere, and
the query that holds it is valid all the same; and this is the only way in which such a reference
is missed (`anchored_iff_values`).
-/

namespace QueryFold

/-- The query `v` is written as a value in an expression. -/
inductive Embeds (v : Query) : Expr → Prop where
  /-- The query itself. -/
  | query : Embeds v (.subQuery v)
  /-- In a subexpression. -/
  | child {e c : Expr} (mem : c ∈ e.children) (h : Embeds v c) : Embeds v e

namespace Query

/-- Every reference in the query, however deeply nested, is to a source of the query that holds it
or of one around that query, when `outer` are the sources around the whole. -/
inductive Anchored : List SourceId → Query → Prop where
  /-- The condition on the expressions of the query itself, on the nested queries of its from
  clauses, and on the queries written as values. -/
  | intro {outer : List SourceId} {q : Query}
      (own : ∀ e ∈ q.ownExpressions, RefersWithin (outer ++ q.sourceIds) e)
      (nested : ∀ c ∈ q.body, ∀ q', c.query? = some q' → Anchored (outer ++ q.sourceIds) q')
      (values : ∀ e ∈ q.ownExpressions, ∀ v, Embeds v e → Anchored (outer ++ q.sourceIds) v) :
      Anchored outer q

/-- The query `v` is written as a value in an expression of the query, or of one nested in its from
clauses; `scope` are the sources around `v`, when `outer` are those around the whole. -/
inductive HoldsValue :
    (outer : List SourceId) → Query → (scope : List SourceId) → Query → Prop where
  /-- In an expression of the query itself. -/
  | own {outer : List SourceId} {q v : Query} {e : Expr} (mem : e ∈ q.ownExpressions)
      (embeds : Embeds v e) : HoldsValue outer q (outer ++ q.sourceIds) v
  /-- In a nested query. -/
  | nested {outer scope : List SourceId} {q q' v : Query} {c : Clause} (mem : c ∈ q.body)
      (iterates : c.query? = some q') (h : HoldsValue (outer ++ q.sourceIds) q' scope v) :
      HoldsValue outer q scope v

variable {outer scope : List SourceId} {q v : Query}

theorem Anchored.of_holdsValue (h : q.Anchored outer) (hv : q.HoldsValue outer scope v) :
    v.Anchored scope := by
  induction hv with
  | own mem embeds =>
    obtain ⟨_, _, values⟩ := h
    exact values _ mem _ embeds
  | nested mem iterates _ ih =>
    obtain ⟨_, nested, _⟩ := h
    exact ih (nested _ mem _ iterates)

/-- What is grounded is anchored but for the queries that are written as values in it. -/
theorem Grounded.anchored (h : q.Grounded outer)
    (values : ∀ scope v, q.HoldsValue outer scope v → v.Anchored scope) : q.Anchored outer := by
  induction q using Query.induction generalizing outer with
  | step q ih =>
    refine .intro h.refersWithin_own (fun c hc q' hq => ?_) fun e he v hv => values _ v (.own he hv)
    obtain ⟨i, hi⟩ := List.getElem?_of_mem hc
    have inner := (h.nested hi hq).subset (visible_subset_sourceIds outer q (i + 1))
    exact ih c hc q' hq inner fun scope v hv => values scope v (.nested hc hq hv)

/-- **References that lead nowhere** are found at every depth, but for those in queries that are
written as values: a valid query is anchored exactly if the queries written as values in it, or in
the nested queries of its from clauses, are anchored among the sources around them. -/
theorem anchored_iff_values (valid : q.validate = .ok ()) :
    q.Anchored [] ↔ ∀ scope v, q.HoldsValue [] scope v → v.Anchored scope := by
  obtain ⟨-, grounded⟩ := validateWithin_eq_ok_iff.mp valid
  exact ⟨fun h _ _ hv => h.of_holdsValue hv, grounded.anchored⟩

end Query

namespace Sample

/-- The source of a query that is gone. -/
def gone : ItemRef := ⟨⟨99⟩, "k", Ty.plain "Kitchen"⟩

/-- The cooks of a kitchen that is gone. -/
def ghosts : Query where
  source := chosen
  generator := .member (.item gone) "Cooks" (Ty.array (Ty.plain "Cook"))
  body := []
  terminal := some (.select (.ofSource chosen) .main)
  operators := []
  resultType := Ty.queryable (Ty.plain "Cook")

/-- A query over those cooks. -/
def haunted : Query where
  source := ⟨⟨1⟩, "s", Ty.plain "Cook"⟩
  generator := .subQuery ghosts
  body := []
  terminal := some (.select (.item ⟨⟨1⟩, "s", Ty.plain "Cook"⟩) .main)
  operators := []
  resultType := Ty.queryable (Ty.plain "Cook")

/-- For each kitchen, whether its cooks are many. -/
def counted : Query where
  source := station
  generator := .external "Kitchen[]" (Ty.array (Ty.plain "Kitchen"))
  body := [.filter (.call none "Many" [.subQuery crew] Ty.bool) .main]
  terminal := some (.select (.ofSource station) (.body 0))
  operators := []
  resultType := Ty.queryable (Ty.plain "Kitchen")

end Sample

theorem counted_anchored_iff_values :
    Sample.counted.validate = .ok () ∧ (Sample.counted.Anchored [] ↔
      ∀ scope v, Sample.counted.HoldsValue [] scope v → v.Anchored scope) :=
  ⟨by decide, Query.anchored_iff_values (by decide)⟩

/-- A query over a value in which a reference leads nowhere is valid. -/
theorem haunted_not_anchored : Sample.haunted.validate = .ok () ∧ ¬ Sample.haunted.Anchored [] := by
  refine ⟨by decide, fun h => ?_⟩
  have value : Sample.haunted.HoldsValue [] _ Sample.ghosts :=
    .own (e := Sample.haunted.generator) List.mem_cons_self .query
  cases h.of_holdsValue value with
  | intro own _ _ =>
    have refers : RefersTo ⟨99⟩ Sample.ghosts.generator := .child List.mem_cons_self (.item rfl)
    exact absurd (own _ List.mem_cons_self _ refers) (by decide)

end QueryFold
