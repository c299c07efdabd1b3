import QueryFold.Proofs.Query.WellFormed
import QueryFold.Query.Traversal

/-!
# The laws of a traversal

A traversal of a query does to it what a traversal of the list of its expressions does to that
list (`Query.replaceM_eq`): it calls its function once for each expression, in the order of the
list, puts the results in their places, and leaves the rest alone.

What the rest is says `Query.blank`, the query with all its expressions blank. It is
enough: the expressions and the rest make up the query (`Query.eq_of_expressions_of_blank`).
With this the laws about whole queries come from those about lists.
-/

namespace QueryFold

/-! ### What a traversal leaves alone -/

/-- The last clause with its expressions left blank. -/
def Terminal.blank : Terminal → Terminal
  | .select _ previous => .select default previous
  | .group _ _ previous => .group default default previous

/-- The operator with its expression left blank. -/
def ResultOp.blank : ResultOp → ResultOp
  | .argument op _ => .argument op default
  | op => op

/-- The sort key with its expression left blank. -/
def SortKey.blank (k : SortKey) : SortKey := { k with key := default }

mutual

/-- The clause with its expressions left blank, those of a nested query included. -/
def Clause.blank : Clause → Clause
  | .fromExpr kind source _ projection previous =>
    .fromExpr kind source default (projection.map fun _ => default) previous
  | .fromQuery source query projection previous =>
    .fromQuery source query.blank (projection.map fun _ => default) previous
  | .filter _ previous => .filter default previous
  | .define source _ previous => .define source default previous
  | .orderBy keys previous => .orderBy (keys.map SortKey.blank) previous

/-- The body with its expressions left blank. -/
def blankBody : List Clause → List Clause
  | [] => []
  | c :: cs => c.blank :: blankBody cs

/-- The query with its expressions left blank. What is left are sources, links, directions, kinds
and counts. -/
def Query.blank : Query → Query
  | ⟨source, _, body, terminal, operators, resultType⟩ =>
    ⟨source, default, blankBody body, terminal.map Terminal.blank, operators.map ResultOp.blank,
      resultType⟩

end

theorem blankBody_eq_map (cs : List Clause) : blankBody cs = cs.map Clause.blank := by
  induction cs with
  | nil => rfl
  | cons c cs ih => rw [blankBody, ih, List.map_cons]

namespace Query

@[simp] theorem body_blank (q : Query) : q.blank.body = q.body.map Clause.blank := by
  cases q
  rw [blank, blankBody_eq_map]

@[simp] theorem terminal_blank (q : Query) : q.blank.terminal = q.terminal.map Terminal.blank := by
  cases q
  rw [blank]

end Query

/-! ### What can be read off a blank clause -/

namespace Clause

@[simp] theorem previous_blank (c : Clause) : c.blank.previous = c.previous := by
  cases c <;> simp [blank, previous]

@[simp] theorem source?_blank (c : Clause) : c.blank.source? = c.source? := by
  cases c <;> simp [blank, source?]

@[simp] theorem isFrom_blank (c : Clause) : c.blank.isFrom = c.isFrom := by
  cases c <;> simp [blank, isFrom]

@[simp] theorem projection?_blank (c : Clause) :
    c.blank.projection? = c.projection?.map fun _ => default := by
  cases c <;> simp [blank, projection?]

@[simp] theorem keys?_blank (c : Clause) : c.blank.keys? = c.keys?.map (List.map SortKey.blank) := by
  cases c <;> simp [blank, keys?]

@[simp] theorem query?_blank (c : Clause) : c.blank.query? = c.query?.map Query.blank := by
  cases c <;> simp [blank, query?]

theorem standsAt_blank {i : Nat} {c : Clause} : c.blank.StandsAt i ↔ c.StandsAt i := by
  have owned : (∀ keys, c.blank.keys? = some keys → ∀ k ∈ keys, k.owner = some (.body i)) ↔
      ∀ keys, c.keys? = some keys → ∀ k ∈ keys, k.owner = some (.body i) := by
    simp [SortKey.blank]
  constructor
  · rintro ⟨linked, keys⟩
    exact ⟨c.previous_blank ▸ linked, owned.mp keys⟩
  · rintro ⟨linked, keys⟩
    exact ⟨c.previous_blank.trans linked, owned.mpr keys⟩

theorem projected_blank {c : Clause} : c.blank.Projected ↔ c.Projected := by
  simp [Projected]

end Clause

theorem Terminal.previous_blank (t : Terminal) : t.blank.previous = t.previous := by
  cases t <;> rfl

/-! ### The expressions in order -/

theorem Clause.allExpressions_eq (c : Clause) :
    c.allExpressions = c.query?.toList.flatMap Query.expressions ++ c.expressions := by
  cases c <;> simp [allExpressions, query?, expressions]

theorem bodyExpressions_eq_flatMap (cs : List Clause) :
    bodyExpressions cs = cs.flatMap Clause.allExpressions := by
  induction cs with
  | nil => rfl
  | cons c cs ih => rw [bodyExpressions, ih, List.flatMap_cons]

theorem Query.expressions_eq (q : Query) :
    q.expressions = q.generator :: (q.body.flatMap Clause.allExpressions ++
      q.terminal.toList.flatMap Terminal.expressions ++
      q.operators.flatMap ResultOp.expressions) := by
  obtain ⟨source, generator, body, terminal, operators, resultType⟩ := q
  have arguments_eq (φ : ResultOp → List Expr) (h : ∀ op, φ op = op.expressions) :
      operators.flatMap φ = operators.flatMap ResultOp.expressions := by
    rw [funext h]
  rcases terminal with _ | _ | _ <;>
    simp only [Query.expressions, bodyExpressions_eq_flatMap, Option.toList, List.flatMap_nil,
      List.flatMap_singleton, Terminal.expressions] <;>
    rw [arguments_eq _ fun op => by cases op <;> rfl]

/-! ### A traversal in one equation -/

section

variable {m : Type → Type} [Monad m] [LawfulMonad m] {f : Expr → m Expr} {α β : Type}
  {expressions : α → List Expr} {rest : α → β}

variable (f) in
/-- The computation `run` does to the expressions of `x` what `f` does to them one after the other,
and leaves the rest alone. -/
def Visits (expressions : α → List Expr) (rest : α → β) (x : α) (run : m α) : Prop :=
  (fun x' => (expressions x', rest x')) <$> run =
    (fun es => (es, rest x)) <$> (expressions x).mapM f

namespace Visits

/-- What is made of the result may be made of the expressions and the rest instead. -/
theorem bind {γ : Type} {x : α} {run : m α} (h : Visits f expressions rest x run)
    (k : List Expr → β → m γ) :
    (run >>= fun x' => k (expressions x') (rest x')) =
      (expressions x).mapM f >>= fun es => k es (rest x) :=
  calc (run >>= fun x' => k (expressions x') (rest x'))
      = ((fun x' => (expressions x', rest x')) <$> run) >>= fun p => k p.1 p.2 :=
        (bind_map_left (fun x' => (expressions x', rest x')) run fun p => k p.1 p.2).symm
    _ = ((fun es => (es, rest x)) <$> (expressions x).mapM f) >>= fun p => k p.1 p.2 := by rw [h]
    _ = (expressions x).mapM f >>= fun es => k es (rest x) :=
        bind_map_left (fun es => (es, rest x)) _ fun p => k p.1 p.2

theorem list (visit : α → m α) (visits : List α → m (List α)) (nil : visits [] = pure [])
    (cons : ∀ x xs, visits (x :: xs) = do
      let x' ← visit x
      let xs' ← visits xs
      pure (x' :: xs'))
    {xs : List α} (h : ∀ x ∈ xs, Visits f expressions rest x (visit x)) :
    Visits f (List.flatMap expressions) (List.map rest) xs (visits xs) := by
  induction xs with
  | nil => simp [Visits, nil]
  | cons x xs ih =>
    rw [List.forall_mem_cons] at h
    simp only [Visits, cons, List.map_cons, List.flatMap_cons, List.mapM_append, map_bind,
      map_pure]
    refine (h.1.bind fun es r => visits xs >>= fun xs' =>
      pure (es ++ xs'.flatMap expressions, r :: xs'.map rest)).trans ?_
    refine bind_congr fun es => ?_
    exact (ih h.2).bind fun es' rs => pure (es ++ es', rest x :: rs)

end Visits

variable (f)

theorem visits_option (o : Option Expr) :
    Visits f Option.toList (Option.map fun _ => (default : Expr)) o (replaceOption f o) := by
  cases o <;> simp [Visits, replaceOption]

theorem visits_keys (ks : List SortKey) :
    Visits f (List.map SortKey.key) (List.map SortKey.blank) ks (replaceKeys f ks) := by
  have each : Visits f (List.flatMap fun k => [k.key]) (List.map SortKey.blank) ks
      (replaceKeys f ks) := by
    refine Visits.list (fun k => do return { k with key := ← f k.key }) (replaceKeys f) rfl
      (fun k ks => ?_) fun k _ => ?_
    · simp [replaceKeys]
    · simp [Visits, SortKey.blank]
  simpa only [Visits, ← List.map_eq_flatMap] using each

theorem Terminal.visits (t : Terminal) :
    Visits f Terminal.expressions Terminal.blank t (t.replaceM f) := by
  cases t <;> simp [Visits, Terminal.replaceM, Terminal.expressions, Terminal.blank]

theorem visits_terminal (t : Option Terminal) :
    Visits f (fun t => t.toList.flatMap Terminal.expressions) (Option.map Terminal.blank) t
      (replaceTerminal f t) := by
  cases t with
  | none => simp [Visits, replaceTerminal]
  | some t =>
    simp only [Visits, replaceTerminal, map_bind, map_pure, Option.toList_some,
      List.flatMap_singleton, Option.map_some]
    rw [map_eq_pure_bind]
    exact (t.visits f).bind fun es r => pure (es, some r)

theorem ResultOp.visits (op : ResultOp) :
    Visits f ResultOp.expressions ResultOp.blank op (op.replaceM f) := by
  cases op <;> simp [Visits, ResultOp.replaceM, ResultOp.expressions, ResultOp.blank]

theorem visits_operators (ops : List ResultOp) :
    Visits f (List.flatMap ResultOp.expressions) (List.map ResultOp.blank) ops
      (replaceOperators f ops) :=
  Visits.list (·.replaceM f) (replaceOperators f) rfl (fun _ _ => rfl) fun op _ => op.visits f

/-- A clause is visited when its nested query is. -/
theorem Clause.visits (c : Clause)
    (nested : ∀ q, c.query? = some q → Visits f Query.expressions Query.blank q (q.replaceM f)) :
    Visits f Clause.allExpressions Clause.blank c (c.replaceM f) := by
  rw [Visits]
  cases c with
  | fromExpr kind source generator projection previous =>
    simp only [Clause.replaceM, allExpressions, blank, List.mapM_cons, map_bind, map_pure]
    refine bind_congr fun e => ?_
    exact (visits_option f projection).bind fun es r =>
      pure (e :: es, Clause.fromExpr kind source default r previous)
  | fromQuery source query projection previous =>
    simp only [Clause.replaceM, allExpressions, blank, List.mapM_append, map_bind, map_pure]
    refine ((nested query rfl).bind fun es r =>
      replaceOption f projection >>= fun projection' => pure (es ++ projection'.toList,
        Clause.fromQuery source r (projection'.map fun _ => default) previous)).trans ?_
    refine bind_congr fun es => ?_
    exact (visits_option f projection).bind fun es' r =>
      pure (es ++ es', Clause.fromQuery source query.blank r previous)
  | filter predicate previous => simp [Clause.replaceM, allExpressions, blank]
  | define source value previous => simp [Clause.replaceM, allExpressions, blank]
  | orderBy keys previous =>
    simp only [Clause.replaceM, allExpressions, blank, map_bind, map_pure]
    rw [map_eq_pure_bind]
    exact (visits_keys f keys).bind fun es r => pure (es, Clause.orderBy r previous)

theorem Query.visits (q : Query) : Visits f Query.expressions Query.blank q (q.replaceM f) := by
  induction q using Query.induction with
  | step q ih =>
    obtain ⟨source, generator, body, terminal, operators, resultType⟩ := q
    have bodies : Visits f (List.flatMap Clause.allExpressions) (List.map Clause.blank) body
        (replaceBody f body) :=
      Visits.list (·.replaceM f) (replaceBody f) rfl (fun _ _ => rfl) fun c hc =>
        c.visits f (ih c hc)
    simp only [Visits, Query.replaceM, Query.expressions_eq, blank, blankBody_eq_map,
      List.mapM_cons, List.mapM_append, map_bind, map_pure, bind_assoc, pure_bind]
    refine bind_congr fun e => ?_
    refine (bodies.bind fun es r => replaceTerminal f terminal >>= fun terminal' =>
      replaceOperators f operators >>= fun operators' => pure
        (e :: (es ++ terminal'.toList.flatMap Terminal.expressions ++
          operators'.flatMap ResultOp.expressions),
        (⟨source, default, r, terminal'.map Terminal.blank, operators'.map ResultOp.blank,
          resultType⟩ : Query))).trans ?_
    refine bind_congr fun ofBody => ?_
    refine ((visits_terminal f terminal).bind fun es r =>
      replaceOperators f operators >>= fun operators' => pure
        (e :: (ofBody ++ es ++ operators'.flatMap ResultOp.expressions),
        (⟨source, default, body.map Clause.blank, r, operators'.map ResultOp.blank,
          resultType⟩ : Query))).trans ?_
    refine bind_congr fun ofTerminal => ?_
    exact (visits_operators f operators).bind fun es r => pure
      (e :: (ofBody ++ ofTerminal ++ es), (⟨source, default, body.map Clause.blank,
        terminal.map Terminal.blank, r, resultType⟩ : Query))

theorem Query.replaceM_eq (q : Query) :
    (fun q' : Query => (q'.expressions, q'.blank)) <$> q.replaceM f =
      (fun es => (es, q.blank)) <$> q.expressions.mapM f :=
  q.visits f

end

/-! ### The expressions and the rest make up the whole -/

/-- What is left of `x` without its expressions tells how many there are, and it tells `x` once they
are known. -/
def Separates {α β : Type} (expressions : α → List Expr) (rest : α → β) (x : α) : Prop :=
  ∀ y, rest x = rest y →
    (expressions x).length = (expressions y).length ∧ (expressions x = expressions y → x = y)

theorem Separates.flatMap {α β : Type} {expressions : α → List Expr} {rest : α → β} {xs : List α}
    (h : ∀ x ∈ xs, Separates expressions rest x) :
    Separates (List.flatMap expressions) (List.map rest) xs := by
  induction xs with
  | nil =>
    intro ys hys
    rw [List.map_eq_nil_iff.mp hys.symm]
    exact ⟨rfl, fun _ => rfl⟩
  | cons x xs ih =>
    intro ys hys
    cases ys with
    | nil => exact absurd hys (List.cons_ne_nil _ _)
    | cons y ys =>
      rw [List.map_cons, List.map_cons, List.cons.injEq] at hys
      obtain ⟨first, eq_of_first⟩ := h x List.mem_cons_self y hys.1
      obtain ⟨others, eq_of_others⟩ := ih (fun z hz => h z (List.mem_cons_of_mem _ hz)) ys hys.2
      rw [List.flatMap_cons, List.flatMap_cons]
      refine ⟨by rw [List.length_append, List.length_append, first, others], fun heq => ?_⟩
      obtain ⟨hx, hxs⟩ := List.append_inj heq first
      rw [eq_of_first hx, eq_of_others hxs]

theorem Separates.option {α β : Type} {expressions : α → List Expr} {rest : α → β}
    (h : ∀ x, Separates expressions rest x) (o : Option α) :
    Separates (fun o => o.toList.flatMap expressions) (Option.map rest) o := by
  intro o' ho
  rcases o with _ | x <;> rcases o' with _ | y
  · exact ⟨rfl, fun _ => rfl⟩
  · exact absurd ho (by simp)
  · exact absurd ho (by simp)
  · obtain ⟨lengths, eq_of⟩ := h x y (Option.some.inj ho)
    simpa using ⟨lengths, eq_of⟩

theorem separates_projection (o : Option Expr) :
    Separates Option.toList (Option.map fun _ => (default : Expr)) o := by
  intro o' ho
  cases o <;> cases o' <;> simp_all

theorem SortKey.separates (k : SortKey) : Separates (fun k => [k.key]) SortKey.blank k := by
  intro k' hk
  rw [blank, blank, SortKey.mk.injEq] at hk
  obtain ⟨-, directions, owners⟩ := hk
  refine ⟨rfl, fun keys => ?_⟩
  cases k
  cases k'
  simp_all

theorem Terminal.separates (t : Terminal) : Separates Terminal.expressions Terminal.blank t := by
  intro t' ht
  cases t <;> cases t' <;> simp_all [blank, expressions]

theorem ResultOp.separates (op : ResultOp) : Separates ResultOp.expressions ResultOp.blank op := by
  intro op' hop
  cases op <;> cases op' <;> simp_all [blank, expressions]

/-- A clause is told by its expressions and the rest, when this holds of its nested query. -/
theorem Clause.separates (c : Clause)
    (nested : ∀ q, c.query? = some q → Separates Query.expressions Query.blank q) :
    Separates Clause.allExpressions Clause.blank c := by
  intro d hd
  cases c with
  | fromExpr kind source generator projection previous =>
    cases d with
    | fromExpr kind' source' generator' projection' previous' =>
      simp only [blank, fromExpr.injEq] at hd
      obtain ⟨rfl, rfl, -, projections, rfl⟩ := hd
      obtain ⟨lengths, eq_of⟩ := separates_projection projection projection' projections
      simp_all [allExpressions]
    | _ => cases hd
  | fromQuery source query projection previous =>
    cases d with
    | fromQuery source' query' projection' previous' =>
      simp only [blank, fromQuery.injEq] at hd
      obtain ⟨rfl, queries, projections, rfl⟩ := hd
      obtain ⟨inner, eq_of_inner⟩ := nested query rfl query' queries
      obtain ⟨own, eq_of_own⟩ := separates_projection projection projection' projections
      refine ⟨?_, fun heq => ?_⟩
      · rw [allExpressions, allExpressions, List.length_append, List.length_append, inner, own]
      · obtain ⟨hq, hp⟩ := List.append_inj heq inner
        rw [eq_of_inner hq, eq_of_own hp]
    | _ => cases hd
  | filter predicate previous =>
    cases d with
    | filter predicate' previous' => simp_all [blank, allExpressions]
    | _ => cases hd
  | define source value previous =>
    cases d with
    | define source' value' previous' => simp_all [blank, allExpressions]
    | _ => cases hd
  | orderBy keys previous =>
    cases d with
    | orderBy keys' previous' =>
      simp only [blank, orderBy.injEq] at hd
      obtain ⟨rest, rfl⟩ := hd
      obtain ⟨lengths, eq_of⟩ := Separates.flatMap (fun k _ => SortKey.separates k) keys' rest
      rw [← List.map_eq_flatMap, ← List.map_eq_flatMap] at lengths eq_of
      refine ⟨lengths, fun heq => ?_⟩
      rw [eq_of heq]
    | _ => cases hd

theorem Query.separates (q : Query) : Separates Query.expressions Query.blank q := by
  induction q using Query.induction with
  | step q ih =>
    intro q' hq
    obtain ⟨source, generator, body, terminal, operators, resultType⟩ := q
    obtain ⟨source', generator', body', terminal', operators', resultType'⟩ := q'
    simp only [blank, blankBody_eq_map, Query.mk.injEq] at hq
    obtain ⟨rfl, -, bodies, terminals, ops, rfl⟩ := hq
    obtain ⟨ofBody, eq_of_body⟩ :=
      Separates.flatMap (fun c hc => c.separates (ih c hc)) body' bodies
    obtain ⟨ofTerminal, eq_of_terminal⟩ :=
      Separates.option Terminal.separates terminal terminal' terminals
    obtain ⟨ofOperators, eq_of_operators⟩ :=
      Separates.flatMap (fun op _ => ResultOp.separates op) operators' ops
    simp only [Query.expressions_eq]
    refine ⟨?_, fun heq => ?_⟩
    · simp only [List.length_cons, List.length_append]
      rw [ofBody, ofTerminal, ofOperators]
    · obtain ⟨rfl, others⟩ := List.cons.inj heq
      obtain ⟨front, hops⟩ := List.append_inj' others ofOperators
      obtain ⟨hbody, hterminal⟩ := List.append_inj' front ofTerminal
      rw [eq_of_body hbody, eq_of_terminal hterminal, eq_of_operators hops]

/-! ### The laws -/

namespace Query

theorem eq_of_expressions_of_blank {q q' : Query} (expressions : q.expressions = q'.expressions)
    (rest : q.blank = q'.blank) : q = q' :=
  (q.separates q' rest).2 expressions

/-- Replacement acts on the expressions one by one, and on nothing else. -/
theorem replace_eq (f : Expr → Expr) (q : Query) :
    ((q.replace f).expressions, (q.replace f).blank) = (q.expressions.map f, q.blank) := by
  have h := q.replaceM_eq (m := Id) fun e => pure (f e)
  rw [List.mapM_pure] at h
  exact h

@[simp] theorem expressions_replace (f : Expr → Expr) (q : Query) :
    (q.replace f).expressions = q.expressions.map f :=
  congrArg Prod.fst (q.replace_eq f)

@[simp] theorem blank_replace (f : Expr → Expr) (q : Query) : (q.replace f).blank = q.blank :=
  congrArg Prod.snd (q.replace_eq f)

theorem replace_id (q : Query) : q.replace id = q :=
  eq_of_expressions_of_blank (by simp) (by simp)

theorem replace_replace (f g : Expr → Expr) (q : Query) :
    (q.replace f).replace g = q.replace (g ∘ f) :=
  eq_of_expressions_of_blank (by simp) (by simp)

variable {m : Type → Type} [Monad m] [LawfulMonad m]

/-- A traversal without effects is a replacement. -/
theorem replaceM_pure (f : Expr → Expr) (q : Query) :
    (q.replaceM fun e => pure (f e)) = (pure (q.replace f) : m Query) := by
  have viewed :
      (fun q' : Query => (q'.expressions, q'.blank)) <$> q.replaceM (fun e => pure (f e)) =
        (fun q' => (q'.expressions, q'.blank)) <$> (pure (q.replace f) : m Query) := by
    rw [replaceM_eq, List.mapM_pure, map_pure, map_pure, q.replace_eq f]
  -- Nothing is lost in the view, so it can be undone behind the computation.
  have lossless : Function.Injective fun q' : Query => (q'.expressions, q'.blank) := fun q₁ q₂ h =>
    eq_of_expressions_of_blank (congrArg Prod.fst h) (congrArg Prod.snd h)
  have : Nonempty Query := ⟨q⟩
  obtain ⟨undo, undone⟩ := lossless.hasLeftInverse
  have h := congrArg (undo <$> ·) viewed
  simpa only [Functor.map_map, undone _, id_map'] using h

/-- **Traversals are lawful.** A traversal is that of the list of the expressions, in which each of
them stands once and in the order of the text, nested queries included, while the rest stays as
it is. The expressions and the rest make up the query. Without effects a traversal is a
replacement, and replacements follow the laws of identity and of composition. -/
theorem replaceM_lawful (q : Query) :
    (∀ f : Expr → m Expr, (fun q' : Query => (q'.expressions, q'.blank)) <$> q.replaceM f =
      (fun es => (es, q.blank)) <$> q.expressions.mapM f) ∧
    q.expressions = q.generator ::
      (q.body.flatMap (fun c => c.query?.toList.flatMap Query.expressions ++ c.expressions) ++
        q.terminal.toList.flatMap Terminal.expressions ++
        q.operators.flatMap ResultOp.expressions) ∧
    (∀ q' : Query, q.expressions = q'.expressions → q.blank = q'.blank → q = q') ∧
    (∀ f : Expr → Expr, (q.replaceM fun e => pure (f e)) = (pure (q.replace f) : m Query)) ∧
    q.replace id = q ∧
    ∀ f g : Expr → Expr, (q.replace f).replace g = q.replace (g ∘ f) := by
  refine ⟨fun f => q.replaceM_eq f, ?_, fun _ => eq_of_expressions_of_blank,
    fun f => replaceM_pure f q, q.replace_id, fun f g => q.replace_replace f g⟩
  rw [expressions_eq, funext Clause.allExpressions_eq]

end Query

/-- A function that notes the expressions for which it is called, and answers each with its
number. -/
def Sample.number (e : Expr) : StateM (List Expr) Expr := fun seen =>
  (.constant (.integer (.ofNat seen.length)) Ty.int, seen ++ [e])

theorem brigade_replaceM_lawful :
    (fun q' : Query => (q'.expressions, q'.blank)) <$> Sample.brigade.replaceM Sample.number =
      (fun es => (es, Sample.brigade.blank)) <$> List.mapM Sample.number
        [.external "Kitchen[]" (Ty.array (Ty.plain "Kitchen")),
          .member (.ofSource Sample.station) "Cooks" (Ty.array (Ty.plain "Cook")),
          .ofSource Sample.chosen, .ofSource Sample.member,
          .member (.ofSource Sample.member) "Name" (Ty.plain "string"), .ofSource Sample.badge] :=
  (Query.replaceM_lawful Sample.brigade).1 Sample.number

end QueryFold
