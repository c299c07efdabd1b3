import QueryFold.Proofs.Query.Growth
import Mathlib.Data.List.Lattice

/-!
# Well-formed queries

`Query.WellFormed` says what a query must be like for it to mean something: its clauses stand
in a row that ends, each source has an identity of its own, and every expression refers to
sources that are there. It speaks of the query as a whole, not of a list of visible sources
that grows from clause to clause. `validate_eq_ok_iff_wellFormed` is the agreement with the
checks: a query passes them exactly if it is well-formed.

Most conditions are those of `Query.Sound` and `Query.Grounded` in other words. The one that is
not is the identities: that the source of each clause is new there comes to the same as that
no identity is there twice (`introduced_fresh_iff`).
-/

namespace QueryFold

/-! ### Identities -/

/-- The source of each clause is new where it stands exactly if no identity is introduced twice, and
none that is visible at first. -/
theorem introduced_fresh_iff {visible : List SourceId} {cs : List Clause} :
    (∀ (i : Nat) (c : Clause) (s : Source), cs[i]? = some c → c.source? = some s →
      s.id ∉ visible ++ introduced (cs.take i)) ↔
      (introduced cs).Nodup ∧ visible.Disjoint (introduced cs) := by
  induction cs generalizing visible with
  | nil => simp
  | cons c cs ih =>
    -- The first clause stands behind `visible`, the others behind `visible` and its source.
    have split : (∀ (i : Nat) (d : Clause) (s : Source), (c :: cs)[i]? = some d →
        d.source? = some s → s.id ∉ visible ++ introduced ((c :: cs).take i)) ↔
        (∀ s, c.source? = some s → s.id ∉ visible) ∧
          (introduced cs).Nodup ∧ (visible ++ introduced [c]).Disjoint (introduced cs) := by
      rw [← ih]
      constructor
      · refine fun h => ⟨fun s hs => by simpa using h 0 c s rfl hs, fun i d s hd hs => ?_⟩
        have := h (i + 1) d s (by simpa using hd) hs
        rwa [List.take_succ_cons, introduced_cons, ← List.append_assoc] at this
      · rintro ⟨first, others⟩ (_ | i) d s hd hs
        · obtain rfl : c = d := by simpa using hd
          simpa using first s hs
        · rw [List.take_succ_cons, introduced_cons, ← List.append_assoc]
          exact others i d s (by simpa using hd) hs
    rw [split, introduced_cons c cs]
    cases hs : c.source? with
    | none => simp [introduced_of_source?_eq_none hs]
    | some s =>
      simp only [introduced_of_source? hs, Option.some.injEq, forall_eq', List.disjoint_append_left,
        List.singleton_append, List.nodup_cons, List.disjoint_cons_right, List.singleton_disjoint]
      tauto

/-! ### Where expressions stand -/

/-- The expression stands in the clause itself, not in a query that is nested there. -/
inductive Clause.Has : Clause → Expr → Prop where
  /-- The sequence of a from clause. -/
  | generator {kind : FromKind} {s : Source} {e : Expr} {projection : Option Expr}
      {previous : Position} : Has (.fromExpr kind s e projection previous) e
  /-- The projection of a from clause. -/
  | projection {kind : FromKind} {s : Source} {generator e : Expr} {previous : Position} :
      Has (.fromExpr kind s generator (some e) previous) e
  /-- The projection of a from clause over a nested query. -/
  | nestedProjection {s : Source} {q : Query} {e : Expr} {previous : Position} :
      Has (.fromQuery s q (some e) previous) e
  /-- A predicate. -/
  | predicate {e : Expr} {previous : Position} : Has (.filter e previous) e
  /-- A named value. -/
  | value {s : Source} {e : Expr} {previous : Position} : Has (.define s e previous) e
  /-- A sort key. -/
  | key {keys : List SortKey} {k : SortKey} {previous : Position} (mem : k ∈ keys) :
      Has (.orderBy keys previous) k.key

/-- The expression stands in the clause with which a query ends. -/
inductive Terminal.Has : Terminal → Expr → Prop where
  /-- The selector. -/
  | selector {e : Expr} {previous : Position} : Has (.select e previous) e
  /-- The key of a grouping. -/
  | key {e element : Expr} {previous : Position} : Has (.group e element previous) e
  /-- The element of a grouping. -/
  | element {key e : Expr} {previous : Position} : Has (.group key e previous) e

/-- The expression stands in the operator. -/
inductive ResultOp.Has : ResultOp → Expr → Prop where
  /-- The argument. -/
  | argument {op : ArgumentOp} {e : Expr} : Has (.argument op e) e

/-- The clause is a from clause without a projection. -/
inductive Clause.Unprojected : Clause → Prop where
  /-- Over a sequence. -/
  | fromExpr {kind : FromKind} {s : Source} {generator : Expr} {previous : Position} :
      Unprojected (.fromExpr kind s generator none previous)
  /-- Over a nested query. -/
  | fromQuery {s : Source} {q : Query} {previous : Position} :
      Unprojected (.fromQuery s q none previous)

theorem Clause.not_unprojected_iff {c : Clause} : ¬ c.Unprojected ↔ c.Projected := by
  constructor
  · intro h iterates none
    cases c with
    | fromExpr _ _ _ _ _ =>
      cases none
      exact h .fromExpr
    | fromQuery _ _ _ _ =>
      cases none
      exact h .fromQuery
    | _ => cases iterates
  · rintro h (_ | _) <;> exact h rfl rfl

theorem Clause.keys?_eq_some_iff {c : Clause} {keys : List SortKey} :
    c.keys? = some keys ↔ ∃ previous, c = .orderBy keys previous := by
  cases c <;> simp [keys?]

theorem Clause.query?_eq_some_iff {c : Clause} {q : Query} :
    c.query? = some q ↔ ∃ s projection previous, c = .fromQuery s q projection previous := by
  cases c <;> simp [query?]

theorem Clause.has_iff {c : Clause} {e : Expr} : c.Has e ↔ e ∈ c.expressions := by
  constructor
  · intro h
    cases h with
    | key mem => exact List.mem_map_of_mem mem
    | _ => simp [expressions]
  · intro h
    cases c with
    | fromExpr _ _ _ projection _ =>
      rcases List.mem_cons.mp h with rfl | h
      · exact .generator
      · obtain rfl : projection = some e := by simpa using h
        exact .projection
    | fromQuery _ _ projection _ =>
      obtain rfl : projection = some e := by simpa [expressions] using h
      exact .nestedProjection
    | filter _ _ =>
      obtain rfl := List.mem_singleton.mp h
      exact .predicate
    | define _ _ _ =>
      obtain rfl := List.mem_singleton.mp h
      exact .value
    | orderBy _ _ =>
      obtain ⟨k, mem, rfl⟩ := List.mem_map.mp h
      exact .key mem

theorem Terminal.has_iff {t : Terminal} {e : Expr} : t.Has e ↔ e ∈ t.expressions := by
  constructor
  · intro h
    cases h <;> simp [expressions]
  · intro h
    cases t with
    | select _ _ =>
      obtain rfl := List.mem_singleton.mp h
      exact .selector
    | group _ _ _ =>
      rcases List.mem_cons.mp h with rfl | h
      · exact .key
      · obtain rfl := List.mem_singleton.mp h
        exact .element

theorem ResultOp.has_iff {op : ResultOp} {e : Expr} : op.Has e ↔ e ∈ op.expressions := by
  constructor
  · rintro ⟨⟩
    exact List.mem_singleton.mpr rfl
  · intro h
    cases op with
    | argument _ _ =>
      obtain rfl := List.mem_singleton.mp h
      exact .argument
    | _ => cases h

namespace Query

variable {outer : List SourceId} {q : Query}

theorem sourceIds_fresh_iff :
    (q.source.id ∉ outer ∧ ∀ (i : Nat) (c : Clause) (s : Source), q.body[i]? = some c →
      c.source? = some s → s.id ∉ q.visible outer i) ↔
      q.sourceIds.Nodup ∧ outer.Disjoint q.sourceIds := by
  have h := @introduced_fresh_iff (outer ++ [q.source.id]) q.body
  simp only [List.append_assoc, List.singleton_append] at h
  simp only [visible, h, sourceIds, List.nodup_cons, List.disjoint_append_left,
    List.singleton_disjoint, List.disjoint_cons_right]
  tauto

theorem Sound.id_not_mem_visible (h : q.Sound outer) {i : Nat} {c : Clause} {s : Source}
    (hc : q.body[i]? = some c) (hs : c.source? = some s) : s.id ∉ q.visible outer i := by
  cases h with
  | intro _ _ distinct => exact distinct i c s hc hs

theorem Sound.disjoint (h : q.Sound outer) : outer.Disjoint q.sourceIds := by
  cases h with
  | intro fresh _ distinct => exact (sourceIds_fresh_iff.mp ⟨fresh, distinct⟩).2

/-! ### The conditions -/

/-- A query that makes sense among the sources `outer` of the enclosing queries. -/
inductive WellFormed : List SourceId → Query → Prop where
  /-- The conditions on the query itself, and on the nested queries of its from clauses. -/
  | intro {outer : List SourceId} {q : Query}
      -- The clauses are linked in a row: the first one names the main from clause,
      (first : ∀ c, q.body[0]? = some c → c.previous = .main)
      -- and each further one names the one before.
      (linked : ∀ (i : Nat) (c : Clause), q.body[i + 1]? = some c → c.previous = .body i)
      -- The keys of an order by clause name that clause.
      (owned : ∀ (i : Nat) (keys : List SortKey) (previous : Position),
        q.body[i]? = some (.orderBy keys previous) → ∀ k ∈ keys, k.owner = some (.body i))
      -- From clauses have a projection.
      (projected : ∀ c ∈ q.body, ¬ c.Unprojected)
      -- The query ends, and its end names the last clause.
      (ended : ∃ t : Terminal, q.terminal = some t ∧ t.previous = q.last)
      -- The sources have different identities,
      (distinct : q.sourceIds.Nodup)
      -- and those of the enclosing queries have other ones.
      (fresh : outer.Disjoint q.sourceIds)
      -- The sequence of the main from clause may refer to enclosing queries only,
      (generator : RefersWithin outer q.generator)
      -- a clause of the body to the sources up to its own as well,
      (clauses : ∀ (i : Nat) (c : Clause), q.body[i]? = some c → ∀ e, c.Has e →
        RefersWithin (outer ++ q.source.id :: introduced (q.body.take (i + 1))) e)
      -- and the end of the query and its operators to all sources.
      (terminal : ∀ t, q.terminal = some t → ∀ e, t.Has e →
        RefersWithin (outer ++ q.sourceIds) e)
      (operators : ∀ op ∈ q.operators, ∀ e, op.Has e → RefersWithin (outer ++ q.sourceIds) e)
      -- A nested query makes sense among the sources up to that of its clause.
      (nested : ∀ (i : Nat) (s : Source) (q' : Query) (projection : Option Expr)
        (previous : Position), q.body[i]? = some (.fromQuery s q' projection previous) →
        WellFormed (outer ++ q.source.id :: introduced (q.body.take (i + 1))) q') :
      WellFormed outer q

theorem wellFormed_iff : q.WellFormed outer ↔ q.Sound outer ∧ q.Grounded outer := by
  induction q using Query.induction generalizing outer with
  | step q ih =>
    have ih : ∀ {i : Nat} {c : Clause} {q' : Query} {visible : List SourceId},
        q.body[i]? = some c → c.query? = some q' →
          (q'.WellFormed visible ↔ q'.Sound visible ∧ q'.Grounded visible) :=
      fun hc hq => ih _ (List.mem_of_getElem? hc) _ hq
    constructor
    · rintro ⟨first, linked, owned, projected, ended, distinct, fresh, generator, clauses, terminal,
        operators, nested⟩
      obtain ⟨own, new⟩ := sourceIds_fresh_iff.mpr ⟨distinct, fresh⟩
      have linked : ∀ (i : Nat) (c : Clause), q.body[i]? = some c →
          c.previous = Position.before i := by
        rintro (_ | i) c hc
        · exact first c hc
        · exact linked i c hc
      have owned : ∀ (i : Nat) (c : Clause) (keys : List SortKey), q.body[i]? = some c →
          c.keys? = some keys → ∀ k ∈ keys, k.owner = some (.body i) := by
        intro i c keys hc hk
        obtain ⟨previous, rfl⟩ := Clause.keys?_eq_some_iff.mp hk
        exact owned i keys previous hc
      have nested : ∀ (i : Nat) (c : Clause) (q' : Query), q.body[i]? = some c →
          c.query? = some q' → q'.Sound (q.visible outer (i + 1)) ∧
            q'.Grounded (q.visible outer (i + 1)) := by
        intro i c q' hc hq
        obtain ⟨s, projection, previous, rfl⟩ := Clause.query?_eq_some_iff.mp hq
        exact (ih hc hq).mp (nested i s q' projection previous hc)
      exact ⟨.intro own (fun i c hc => ⟨linked i c hc, fun keys => owned i c keys hc⟩) new
        (fun c hc => Clause.not_unprojected_iff.mp (projected c hc))
        (fun i c q' hc hq => (nested i c q' hc hq).1) ended,
        .intro generator (fun i c hc e he => clauses i c hc e (Clause.has_iff.mpr he))
          (fun i c q' hc hq => (nested i c q' hc hq).2)
          (visible_length outer q ▸ fun t ht e he => terminal t ht e (Terminal.has_iff.mpr he))
          (visible_length outer q ▸ fun op hop e he =>
            operators op hop e (ResultOp.has_iff.mpr he))⟩
    · rintro ⟨⟨own, stands, new, projected, sound, ended⟩,
        ⟨generator, clauses, grounded, terminal, operators⟩⟩
      obtain ⟨distinct, fresh⟩ := sourceIds_fresh_iff.mp ⟨own, new⟩
      exact .intro (fun c hc => (stands 0 c hc).linked) (fun i c hc => (stands (i + 1) c hc).linked)
        (fun i keys _ hc => (stands i _ hc).owned keys rfl)
        (fun c hc => Clause.not_unprojected_iff.mpr (projected c hc)) ended distinct fresh
        generator (fun i c hc e he => clauses i c hc e (Clause.has_iff.mp he))
        (fun t ht e he => visible_length outer q ▸ terminal t ht e (Terminal.has_iff.mp he))
        (fun op hop e he => visible_length outer q ▸ operators op hop e (ResultOp.has_iff.mp he))
        fun i _ q' _ _ hc => (ih hc rfl).mpr ⟨sound i _ q' hc rfl, grounded i _ q' hc rfl⟩

/-- **Validation accepts the well-formed queries**, all of them and no other ones. -/
theorem validate_eq_ok_iff_wellFormed : q.validate = .ok () ↔ q.WellFormed [] :=
  validateWithin_eq_ok_iff.trans wellFormed_iff.symm

instance (outer : List SourceId) (q : Query) : Decidable (q.WellFormed outer) :=
  decidable_of_iff (q.validateWithin outer = .ok ())
    (validateWithin_eq_ok_iff.trans wellFormed_iff.symm)

end Query

namespace Sample

/-- A kitchen in a query. -/
def station : Source := ⟨⟨1⟩, "k", Ty.plain "Kitchen"⟩

/-- A cook in a nested query. -/
def chosen : Source := ⟨⟨2⟩, "a", Ty.plain "Cook"⟩

/-- A cook found by a nested query. -/
def member : Source := ⟨⟨3⟩, "c", Ty.plain "Cook"⟩

/-- The name of that cook. -/
def badge : Source := ⟨⟨4⟩, "n", Ty.plain "string"⟩

/-- The cooks of the kitchen. -/
def crew : Query where
  source := chosen
  generator := .member (.ofSource station) "Cooks" (Ty.array (Ty.plain "Cook"))
  body := []
  terminal := some (.select (.ofSource chosen) .main)
  operators := []
  resultType := Ty.queryable (Ty.plain "Cook")

/-- The names of the cooks of each kitchen. -/
def brigade : Query where
  source := station
  generator := .external "Kitchen[]" (Ty.array (Ty.plain "Kitchen"))
  body := [.fromQuery member crew (some (.ofSource member)) .main,
    .define badge (.member (.ofSource member) "Name" (Ty.plain "string")) (.body 0)]
  terminal := some (.select (.ofSource badge) (.body 1))
  operators := []
  resultType := Ty.queryable (Ty.plain "string")

end Sample

example : Sample.brigade.WellFormed [] := by decide

/-- The kitchen whose cooks these are is a source of an enclosing query. -/
example : ¬ Sample.crew.WellFormed [] ∧ Sample.crew.WellFormed [Sample.station.id] := by decide

end QueryFold
