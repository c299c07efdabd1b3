import QueryFold.Proofs.Query.Validity
import QueryFold.Query.Basic
import Mathlib.Tactic.Tauto

/-!
# Queries under construction

A query grows by a clause at the end of its body, and a clause that is there is changed by a
further sort key or by a projection. Neither changes the sources of the clauses before, nor
which clauses iterate over nested queries; a clause that stood as it should still does.
-/

namespace QueryFold

/-! ### Changed clauses -/

/-- The clause `c'` differs from `c` in expressions at most. -/
structure Clause.Alike (c c' : Clause) : Prop where
  source? : c'.source? = c.source?
  query? : c'.query? = c.query?
  isFrom : c'.isFrom = c.isFrom

namespace Clause

variable {c c' : Clause}

theorem alike_attach (position previous : Position) (c : Clause) :
    c.Alike (c.attach position previous) := by
  constructor <;> cases c <;> rfl

theorem alike_of_withProjection? {e : Expr} (h : c.withProjection? e = some c') : c.Alike c' := by
  cases c with
  | fromExpr _ _ _ _ _ | fromQuery _ _ _ _ =>
    cases h
    exact ⟨rfl, rfl, rfl⟩
  | _ => cases h

theorem alike_of_withKey? {position : Position} {k : SortKey}
    (h : c.withKey? position k = some c') : c.Alike c' := by
  cases c with
  | orderBy _ _ =>
    cases h
    exact ⟨rfl, rfl, rfl⟩
  | _ => cases h

theorem standsAt_attach (i : Nat) (c : Clause) :
    (c.attach (.body i) (.before i)).StandsAt i := by
  refine ⟨previous_attach .., fun keys hk k hm => ?_⟩
  cases c with
  | orderBy ks _ =>
    cases hk
    obtain ⟨k', -, rfl⟩ := List.mem_map.mp hm
    rfl
  | _ => cases hk

theorem StandsAt.withProjection? {i : Nat} {e : Expr} (hc : c.StandsAt i)
    (h : c.withProjection? e = some c') : c'.StandsAt i := by
  cases c with
  | fromExpr _ _ _ _ _ | fromQuery _ _ _ _ =>
    cases h
    exact ⟨hc.linked, by simp [keys?]⟩
  | _ => cases h

theorem StandsAt.withKey? {i : Nat} {k : SortKey} (hc : c.StandsAt i)
    (h : c.withKey? (.body i) k = some c') : c'.StandsAt i := by
  cases c with
  | orderBy ks _ =>
    cases h
    refine ⟨hc.linked, fun keys hk k' hm => ?_⟩
    cases hk
    rcases List.mem_append.mp hm with hm | hm
    · exact hc.owned ks rfl k' hm
    · rw [List.mem_singleton.mp hm]
  | _ => cases h

theorem projected_of_withProjection? {e : Expr} (h : c.withProjection? e = some c') :
    c'.Projected := by
  cases c with
  | fromExpr _ _ _ _ _ | fromQuery _ _ _ _ =>
    cases h
    simp [Projected, projection?]
  | _ => cases h

theorem projected_of_withKey? {position : Position} {k : SortKey}
    (h : c.withKey? position k = some c') : c'.Projected := by
  cases c with
  | orderBy _ _ =>
    cases h
    simp [Projected, isFrom]
  | _ => cases h

theorem projected_attach {position previous : Position} :
    (c.attach position previous).Projected ↔ c.Projected := by
  rw [Projected, Projected, projection?_attach, (alike_attach position previous c).isFrom]

theorem projected_of_isFrom_eq_false (h : c.isFrom = false) : c.Projected := by
  simp [Projected, h]

end Clause

/-! ### Changed queries -/

namespace Query

variable {q q' : Query}

@[simp] theorem length_addClause (q : Query) (c : Clause) :
    (q.addClause c).body.length = q.body.length + 1 := by
  simp [addClause]

theorem getElem?_addClause {i : Nat} {c d : Clause} :
    (q.addClause c).body[i]? = some d ↔
      q.body[i]? = some d ∨ i = q.body.length ∧ d = c.attach q.next q.last := by
  rw [addClause, List.getElem?_append, List.getElem?_singleton]
  split_ifs with h₁ h₂
  · exact ⟨.inl, fun h => h.resolve_right fun h => absurd h.1 (by omega)⟩
  · rw [List.getElem?_eq_none (by omega)]
    exact ⟨fun h => .inr ⟨by omega, by simpa using h.symm⟩,
      fun h => by simpa using (h.resolve_left nofun).2.symm⟩
  · rw [List.getElem?_eq_none (by omega)]
    exact ⟨nofun, fun h => absurd (h.resolve_left nofun).1 (by omega)⟩

theorem modifyClause_eq_ok_iff {position : Position} {refused : Position → QueryError}
    {change : Clause → Option Clause} :
    q.modifyClause position refused change = .ok q' ↔
      ∃ i c c', position = .body i ∧ q.body[i]? = some c ∧ change c = some c' ∧
        q' = { q with body := q.body.set i c' } := by
  unfold modifyClause
  cases position with
  | main => simp
  | body i =>
    cases hc : q.body[i]? with
    | none => simp [hc]
    | some c =>
      cases hc' : change c with
      | none => simp [hc, hc']
      | some c' => simp [hc, hc', eq_comm]

theorem filterMap_source?_set {cs : List Clause} {i : Nat} {c c' : Clause} (hc : cs[i]? = some c)
    (h : c.Alike c') : (cs.set i c').filterMap Clause.source? = cs.filterMap Clause.source? := by
  induction cs generalizing i with
  | nil => simp at hc
  | cons d cs ih =>
    cases i with
    | zero =>
      obtain rfl : d = c := by simpa using hc
      simp [List.filterMap_cons, h.source?]
    | succ i =>
      rw [List.set_cons_succ, List.filterMap_cons, List.filterMap_cons,
        ih (by simpa using hc)]

theorem introduced_set {cs : List Clause} {i : Nat} {c c' : Clause} (hc : cs[i]? = some c)
    (h : c.Alike c') : introduced (cs.set i c') = introduced cs := by
  rw [introduced, filterMap_source?_set hc h, introduced]

/-- The identities of the sources of a query. -/
def sourceIds (q : Query) : List SourceId := q.source.id :: introduced q.body

theorem sourceIds_addClause (q : Query) (c : Clause) :
    (q.addClause c).sourceIds = q.sourceIds ++ introduced [c] := by
  have : introduced [c.attach q.next q.last] = introduced [c] := by
    simp [introduced, List.filterMap_cons]
  rw [sourceIds, addClause, introduced_append, this]
  rfl

theorem visible_subset_sourceIds (outer : List SourceId) (q : Query) (i : Nat) :
    q.visible outer i ⊆ outer ++ q.sourceIds := by
  intro id hid
  have hi : introduced q.body = introduced (q.body.take i) ++ introduced (q.body.drop i) := by
    rw [← introduced_append, List.take_append_drop]
  simp only [visible, sourceIds, hi, List.mem_append, List.mem_cons] at hid ⊢
  tauto

theorem visible_length (outer : List SourceId) (q : Query) :
    q.visible outer q.body.length = outer ++ q.sourceIds := by
  rw [visible, List.take_length, sourceIds]

/-- The source of a clause is not visible to the clauses before, if no identity is there twice. -/
theorem id_not_mem_visible {outer : List SourceId} {i : Nat} {c : Clause} {s : Source}
    (hd : q.sourceIds.Nodup) (hc : q.body[i]? = some c) (hs : c.source? = some s)
    (ho : s.id ∉ outer) : s.id ∉ q.visible outer i := by
  have hb : q.body = q.body.take i ++ c :: q.body.drop (i + 1) := by
    obtain ⟨hlt, rfl⟩ := List.getElem?_eq_some_iff.mp hc
    rw [← List.drop_eq_getElem_cons hlt, List.take_append_drop]
  have hi : q.sourceIds =
      (q.source.id :: introduced (q.body.take i)) ++ s.id :: introduced (q.body.drop (i + 1)) := by
    have := congrArg introduced hb
    rw [introduced_append, introduced_cons, introduced_of_source? hs] at this
    rw [sourceIds, this]
    rfl
  rw [hi, List.nodup_append] at hd
  intro hm
  rcases List.mem_append.mp hm with hm | hm
  · exact ho hm
  · exact hd.2.2 _ hm _ List.mem_cons_self rfl

end Query

end QueryFold
