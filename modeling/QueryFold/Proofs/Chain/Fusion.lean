import QueryFold.Proofs.Chain.Casting
import QueryFold.Proofs.Chain.Folding

/-!
# Selections one after the other

A chain that selects twice yields what the second selector makes of what the first one yields. The
two are one selection, whose selector is the second one with the body of the first in the place of
its parameter (`toQuery_fused`), as long as no lambda of the second selector catches what is put in.

The first selector is resolved and then put into the second one; the fused selector is put together
and then resolved. Along a route without a cast both come to the same (`Route.Resolves.fused`). A
cast renames the parameter on the way, and the new one may be caught; but behind a cast only the
identity may be selected, and two identities are one.
-/

namespace QueryFold

namespace Route

variable {l : Ledger} {route : Route} {p x : Param} {f g e : Expr}

/-- What is put into `g` for its only parameter can be resolved before or after: no node on the
route casts, and `g` binds nothing that is free in what is put in. -/
theorem Resolves.fused (h : route.Resolves l p f e) (free : ∀ y, FreeIn y g → y = x)
    (unbound : ∀ y, y = p ∨ FreeIn y f → ¬ Binds y g)
    (uncast : ∀ n ∈ route.nodes, ∀ kind type, n.operation ≠ .cast kind type) :
    route.Resolves l p (g.substituteParam x f) (g.substituteParam x e) := by
  -- At the end of the way `p` is replaced: in what is put in, since it is not free in `g` unless
  -- it is the parameter of `g`.
  have ends : ∀ {p : Param} {f : Expr} (r : Expr), ¬ Binds p g →
      (g.substituteParam x f).substituteParam p r = g.substituteParam x (f.substituteParam p r) :=
    fun r hp => Expr.substituteParam_substituteParam_of_not_catches _ _ (free _)
      fun caught => hp caught.binds
  induction h with
  | item op recorded => exact ends _ (unbound _ (.inl rfl)) ▸ .item op recorded
  | result op params recorded linked selected closed =>
    exact ends _ (unbound _ (.inl rfl)) ▸ .result op params recorded linked selected closed
  | select op params linked selected closed =>
    exact ends _ (unbound _ (.inl rfl)) ▸ .select op params linked selected closed
  | @define n rest p f e name value r op before recorded ih =>
    have inner := ih unbound fun n hn => uncast n (List.mem_cons_of_mem _ hn)
    have named : (g.substituteParam x e).substituteParam name (.item r) =
        g.substituteParam x (e.substituteParam name (.item r)) := by
      by_cases hn : FreeIn name e
      · exact ends _ (unbound name (.inr (before.freeIn hn).2))
      · rw [Expr.substituteParam_of_not_freeIn _ hn]
        refine Expr.substituteParam_of_not_freeIn _ fun hf => ?_
        rcases freeIn_of_freeIn_substituteParam hf with ⟨hne, hg⟩ | he
        · exact hne (free name hg)
        · exact hn he
    exact named ▸ .define op inner recorded
  | @cast n _ _ _ _ kind type _ op => exact absurd op (uncast n List.mem_cons_self kind type)
  | pass op _ ih => exact .pass op (ih unbound fun n hn => uncast n (List.mem_cons_of_mem _ hn))

theorem Resolves.unique {e' : Expr} (h : route.Resolves l p f e) (h' : route.Resolves l p f e') :
    e = e' :=
  Except.ok.inj (h.resolve.symm.trans h'.resolve)

end Route

/-! ### Selections -/

/-- The build in which no from clause waits and the node `n` has registered the selector `e`. -/
def Build.selecting (b : Build) (n : Node) (e : Expr) : Build :=
  { b with ledger := ({ b.ledger with openFrom := none }.register (.select e)).noted n.id {} }

section

variable {b b' : Build} {n n' : Node} {e : Expr}

theorem Node.step_select_iff {ids : Nat → SourceId} {nested : Nested} {chain : Chain}
    {selector : Lambda} (op : n.operation = .select selector) (waits : b.ledger.openFrom = none) :
    n.Step ids nested chain b b' ↔
      b.ledger.ensureProjection n.callSite (isIdentity selector) = .ok () ∧
        ∃ link e, n.source = some link ∧ chain.resolveLambda b.ledger link selector = .ok e ∧
          b' = b.selecting n e := by
  constructor
  · intro h
    cases h with
    | select op' projects source resolved filled =>
      obtain rfl : selector = _ := by simpa [op] using op'
      rw [waits, Query.fill, Except.ok.injEq] at filled
      exact ⟨projects, _, _, source, resolved, by rw [← filled, Build.selecting]⟩
    | _ => simp_all
  · rintro ⟨projects, link, e, source, resolved, rfl⟩
    exact .select op projects source resolved (by rw [waits]; rfl)

/-- The end of a query looks at the query, the selector and the settings. -/
theorem Build.finish_selecting {q : Query} {l : Ledger} (h : (b.selecting n e).finish = .ok (q, l))
    (query : b'.query = b.query) (settings : b'.ledger.settings = b.ledger.settings) :
    (b'.selecting n' e).finish = .ok (q, (b'.selecting n' e).ledger) := by
  obtain ⟨_, projection, -, unended, valid, rfl, -⟩ := finish_eq_ok_iff.mp h
  cases projection
  refine finish_eq_ok_iff.mpr ⟨_, rfl, rfl, (congrArg Query.terminal query).trans unended,
    fun validates => ?_, ?_, rfl⟩
  · have := valid ((congrArg Settings.validate settings).symm.trans validates)
    rwa [ended, selecting, query]
  · rw [ended, ended, selecting, selecting, query]

end

namespace Chain

variable {ids : Nat → SourceId} {settings : Settings} {depth : UInt32} {c : Chain} {k k' : Nat}
  {q : Query} {l : Ledger} {b : Build} {p x : Param} {f g e : Expr}

/-- Where a selector may be applied to the items of a selection, the fused selector may be applied
in the place of both, and it is resolved to the same. -/
theorem Folds.fused (h : c.Folds ids settings depth k b) {callSite : String} {link : NodeId}
    (projects : b.ledger.ensureProjection callSite (Node.isIdentity ⟨[p], f⟩) = .ok ())
    (pinned : b.ledger.stage.converted = true → Node.isIdentity ⟨[x], g⟩ = true)
    (selected : (c.route link).Resolves b.ledger p f e) (free : ∀ y ∈ g.freeParams, y = x)
    (unbound : ∀ y, y = p ∨ y ∈ f.freeParams → ¬ Binds y g) (callSite' : String) :
    b.ledger.ensureProjection callSite' (Node.isIdentity ⟨[p], g.substituteParam x f⟩) = .ok () ∧
      (c.route link).Resolves b.ledger p (g.substituteParam x f) (g.substituteParam x e) := by
  obtain ⟨unsealed, pinned₁⟩ := ensureProjection_eq_ok_iff.mp projects
  cases converted : b.ledger.stage.converted with
  | true =>
    -- After a conversion both selectors are identities, and so is the fused one.
    obtain ⟨_, hf⟩ := Route.isIdentity_eq_true_iff.mp (pinned₁ converted)
    obtain ⟨_, hg⟩ := Route.isIdentity_eq_true_iff.mp (pinned converted)
    cases hf
    cases hg
    rw [Expr.substituteParam_param_self, Expr.substituteParam_param_self]
    exact ⟨ensureProjection_eq_ok_iff.mpr ⟨unsealed, pinned₁⟩, selected⟩
  | false =>
    refine ⟨ensureProjection_eq_ok_iff.mpr ⟨unsealed, fun h => absurd (converted.symm.trans h) nofun⟩,
      selected.fused (fun y hy => free y (mem_freeParams_iff.mpr hy))
        (fun y hy => unbound y (hy.imp_right mem_freeParams_iff.mpr)) fun n hn => ?_⟩
    exact h.uncast unsealed converted (mem_of_mem_route hn)

/-- Two selections at the end of a chain may be one. -/
theorem Built.fused {i j : String}
    (h : ((c.push i (.select ⟨[p], f⟩)).push j (.select ⟨[x], g⟩)).Built ids settings depth k q l k')
    (pushed : c.Pushed) (settled : ∀ b, c.Folds ids settings depth k b → b.ledger.openFrom = none)
    (free : ∀ y ∈ g.freeParams, y = x) (unbound : ∀ y, y = p ∨ y ∈ f.freeParams → ¬ Binds y g)
    (i' : String) :
    ∃ l', (c.push i' (.select ⟨[p], g.substituteParam x f⟩)).Built ids settings depth k q l' k' := by
  obtain ⟨shallow, -, b₃, folds₃, finish, rfl⟩ := built_iff.mp h
  obtain ⟨b₂, folds₂, -, second⟩ := folds₃.of_push (pushed.push _ _) rfl
  obtain ⟨b, folds, fresh, first⟩ := folds₂.of_push pushed rfl
  have waits := settled b folds
  have kept := first.extends
  obtain ⟨projects, link, e, source, resolved, rfl⟩ := (Node.step_select_iff rfl waits).mp first
  obtain ⟨projects', link', e', source', resolved', rfl⟩ := (Node.step_select_iff rfl rfl).mp second
  obtain ⟨_, params, selected, -⟩ := resolveLambda_eq_ok_iff.mp resolved
  obtain ⟨_, params', selected', closed⟩ := resolveLambda_eq_ok_iff.mp resolved'
  cases params
  cases params'
  rw [pushed.route_push (pushed.link_lt source)] at selected
  -- The second selector is resolved against the first one, which is resolved as it was before.
  have hlink' : c.nextId.value < (c.push i (.select ⟨[p], f⟩)).nodes.length := by
    simp [nodes_push, nextId]
  obtain rfl : c.nextId = link' := by simpa [endNode, nodes_push] using source'
  rw [(pushed.push _ _).route_push hlink', pushed.route_nextId source] at selected'
  obtain rfl : e' = g.substituteParam x e := by
    cases selected' with
    | select op params linked again _ =>
      cases op
      cases params
      rw [again.unique (selected.extends kept)]
    | item op | pass op => cases op
    | result op | define op | cast op => cases op
  obtain ⟨allowed, fused⟩ := folds.fused projects (ensureProjection_eq_ok_iff.mp projects').2
    selected free unbound (Operation.name (.select ⟨[p], g.substituteParam x f⟩))
  have route : (c.push i' (.select ⟨[p], g.substituteParam x f⟩)).route link = c.route link :=
    pushed.route_push (pushed.link_lt source)
  rw [← route] at fused
  refine ⟨_, built_iff.mpr ⟨shallow, checkLinks_eq_ok_iff.mpr (pushed.push _ _).linked, _,
    folds.push pushed fresh ((Node.step_select_iff rfl waits).mpr ⟨allowed, link, _, source, ?_, rfl⟩),
    Build.finish_selecting finish rfl rfl, rfl⟩⟩
  exact resolveLambda_eq_ok_iff.mpr ⟨p, rfl, fused, closed⟩

end Chain

/-- **Selections fuse.** Let a chain of nodes in a row end in two selections, and let no from clause
wait for its projection before them. If the second selector has no free parameter but its own and
binds neither the parameter of the first one nor anything that is free there, then the chain with
one selection in their place is built to the same query: its selector is the second one, in which
the body of the first one is put for its parameter. -/
theorem toQuery_fused {ids : Nat → SourceId} {settings : Settings} {chain : Chain} {i j : String}
    {p x : Param} {f g : Expr} {k k' : Nat} {q : Query} {l : Ledger} (pushed : chain.Pushed)
    (settled : ∀ b, chain.Folds ids settings 0 k b → b.ledger.openFrom = none)
    (free : ∀ y ∈ g.freeParams, y = x) (unbound : ∀ y, y = p ∨ y ∈ f.freeParams → ¬ Binds y g)
    (h : Runs (((chain.push i (.select ⟨[p], f⟩)).push j (.select ⟨[x], g⟩)).toQuery ids settings)
      k (q, l) k') (i' : String) :
    ∃ l', Runs ((chain.push i' (.select ⟨[p], g.substituteParam x f⟩)).toQuery ids settings)
      k (q, l') k' := by
  obtain ⟨l', built⟩ := (Chain.build_runs_iff.mp h).fused pushed settled free unbound i'
  exact ⟨l', Chain.build_runs_iff.mpr built⟩

namespace Sample

/-- A word. -/
def word : Param := ⟨"w", Ty.plain "string"⟩

/-- The first letter of a word. -/
def initial : Expr := .call (some (.param word)) "Initial" [] (Ty.plain "string")

/-- The cooks, their names known as `title`. -/
def signed : Chain :=
  Chain.empty (Ty.queryable (Ty.plain "string"))
    |>.push "c" (.mainSource cooks)
    |>.push "c" (.define title ⟨[cook], name⟩)

theorem not_binds_initial (y : Param) : ¬ Binds y initial := by
  intro h
  cases h with
  | child hc h =>
    obtain rfl := List.mem_singleton.mp hc
    cases h with
    | child hc _ => cases hc

end Sample

/-- The names are selected, and then the first letter of each: the first letters of the names. -/
theorem toQuery_fused_signed : ∃ q l l' k,
    Runs (((Sample.signed.push "t" (.select ⟨[Sample.cook], .param Sample.title⟩)).push "i"
      (.select ⟨[Sample.word], Sample.initial⟩)).toQuery SourceId.countUp {}) 0 (q, l) k ∧
    Runs ((Sample.signed.push "i" (.select ⟨[Sample.cook],
      Sample.initial.substituteParam Sample.word (.param Sample.title)⟩)).toQuery
        SourceId.countUp {}) 0 (q, l') k := by
  obtain ⟨⟨q, l⟩, k, h⟩ := exists_runs
    (x := ((Sample.signed.push "t" (.select ⟨[Sample.cook], .param Sample.title⟩)).push "i"
      (.select ⟨[Sample.word], Sample.initial⟩)).toQuery SourceId.countUp {}) (s := 0)
    (by decide +kernel)
  have pushed : Sample.signed.Pushed := .push (.push (.empty _) _ _) _ _
  obtain ⟨l', h'⟩ := toQuery_fused pushed
    (fun b folds => stage_waits_eq_false_iff.mp (by rw [folds.stage]; rfl)) (by decide)
    (fun y _ => Sample.not_binds_initial y) h "i"
  exact ⟨q, l, l', k, h, h'⟩

end QueryFold
