import QueryFold.Proofs.Chain.Items

/-!
# Other names for the item

The parameter of a lambda should not matter: under another name, the lambda should be resolved to
the same expression. A cast puts this to the test, since it speaks of the item before it by a
parameter of its own, with the name that it finds and another type. Such a parameter can meet what
it should not: a parameter of the body that is not bound anywhere, or a lambda inside of the body
that catches it.

`Route.Spares` says that nothing of the kind is in the body. Then the name does not matter
(`resolve_rename`). On a route where some cast has another type, there is a body for which it does
(`Settled.resolves_caught`).
-/

namespace QueryFold

namespace Route

/-! ### Closed expressions -/

variable {l : Ledger} {route : Route}

/-- Resolution leaves alone what has no free parameters. -/
theorem Resolves.eq_of_closed {p : Param} {body e : Expr} (h : route.Resolves l p body e)
    (closed : body.Closed) : e = body := by
  induction h with
  | item _ _ | result _ _ _ _ _ _ | select _ _ _ _ _ => exact closed.substituteParam _ _
  | define _ _ _ ih => rw [ih closed, closed.substituteParam]
  | cast _ _ _ ih =>
    rw [closed.substituteParam] at ih
    exact ih closed
  | pass _ _ ih => exact ih closed

/-- On a settled route everything can be resolved. -/
theorem Settled.resolves (h : route.Settled l) (p : Param) (body : Expr) :
    ∃ e, route.Resolves l p body e := by
  induction h generalizing p body with
  | item op recorded => exact ⟨_, .item op recorded⟩
  | result op resolved =>
    obtain ⟨outer, inner, r, params, recorded, linked, selected, closed⟩ :=
      Lambda.resolveResult_eq_ok_iff.mp resolved
    exact ⟨_, .result op params recorded linked (resolve_eq_ok_iff.mp selected) closed⟩
  | select op linked resolved =>
    obtain ⟨param, params, selected, closed⟩ := Lambda.resolveBy_eq_ok_iff.mp resolved
    exact ⟨_, .select op params linked (resolve_eq_ok_iff.mp selected) closed⟩
  | define op recorded _ ih =>
    obtain ⟨e, he⟩ := ih p body
    exact ⟨_, .define op he recorded⟩
  | cast op before ih =>
    obtain ⟨t, items⟩ := before.exists_itemType
    obtain ⟨e, he⟩ := ih ⟨p.name, t⟩ (body.substituteParam p (.convert (.param ⟨p.name, t⟩) _))
    exact ⟨e, .cast op items he⟩
  | pass op _ ih =>
    obtain ⟨e, he⟩ := ih p body
    exact ⟨e, .pass op he⟩

theorem Settled.resolves_closed (h : route.Settled l) (p : Param) {body : Expr}
    (closed : body.Closed) : route.Resolves l p body body := by
  obtain ⟨e, he⟩ := h.resolves p body
  rwa [he.eq_of_closed closed] at he

/-- Where the links lead nowhere, resolution fails, whatever is resolved. -/
theorem resolve_of_not_leads (h : ¬ route.Leads) :
    ∃ err, ∀ p body, route.resolve l p body = .error err := by
  induction route with
  | via n rest ih =>
    rw [Leads] at h
    cases op : n.operation with
    | mainSource _ | subQuerySource _ | selectMany _ _ | select _ => simp [op] at h
    | groupBy _ _ => exact ⟨_, fun _ _ => by rw [resolve, op]⟩
    | filter _ | orderBy _ _ _ | resultOperator _ =>
      obtain ⟨err, fails⟩ := ih (by simpa only [op] using h)
      exact ⟨err, fun p body => by simpa only [resolve, op] using fails p body⟩
    | define name value =>
      obtain ⟨err, fails⟩ := ih (by simpa only [op] using h)
      refine ⟨err, fun p body => ?_⟩
      simp only [resolve, op, fails]
      rfl
    | cast kind type =>
      obtain ⟨err, fails⟩ := ih (by simpa only [op] using h)
      cases items : rest.itemType l with
      | error err' =>
        refine ⟨err', fun p body => ?_⟩
        simp only [resolve, op, items]
        rfl
      | ok t =>
        refine ⟨err, fun p body => ?_⟩
        simp only [resolve, op, items]
        exact fails _ _
  | _ => exact ⟨_, fun _ _ => rfl⟩

/-! ### Casts on the way -/

/-- The types of the items before the casts through which resolution goes. -/
def castTypes (l : Ledger) : Route → List Ty
  | via n rest =>
    match n.operation with
    | .cast _ _ =>
      match rest.itemType l with
      | .ok t => t :: rest.castTypes l
      | .error _ => []
    | .filter _ | .orderBy _ _ _ | .define _ _ | .resultOperator _ => rest.castTypes l
    | .mainSource _ | .subQuerySource _ | .selectMany _ _ | .select _ | .groupBy _ _ => []
  | _ => []

/-- Resolution of the body uses no parameter on the way, by which a cast speaks of its items, that
is free in the body or bound there around the parameter `p`. -/
def Spares (l : Ledger) (route : Route) (p : Param) (body : Expr) : Prop :=
  ∀ t ∈ route.castTypes l, t ≠ p.type → ¬ FreeIn ⟨p.name, t⟩ body ∧ ¬ Catches ⟨p.name, t⟩ p body

section

variable {n : Node} {rest : Route}

theorem castTypes_of_passesItem (op : n.operation.passesItem = true) :
    (via n rest).castTypes l = rest.castTypes l := by
  rw [castTypes]
  split <;> simp_all [Operation.passesItem]

theorem castTypes_of_bindsItem (op : n.operation.bindsItem = true) :
    (via n rest).castTypes l = [] := by
  rw [castTypes]
  split <;> simp_all [Operation.bindsItem]

theorem castTypes_cast {kind : CastKind} {type t : Ty} (op : n.operation = .cast kind type)
    (items : rest.itemType l = .ok t) : (via n rest).castTypes l = t :: rest.castTypes l := by
  simp only [castTypes, op, items]

/-- A cast hands on that its parameter is spared, and is not met by the parameters of later
casts. -/
theorem Spares.cast {p : Param} {body : Expr} {t type : Ty}
    (spares : ∀ t' ∈ t :: rest.castTypes l, t' ≠ p.type →
      ¬ FreeIn ⟨p.name, t'⟩ body ∧ ¬ Catches ⟨p.name, t'⟩ p body) :
    rest.Spares l ⟨p.name, t⟩ (body.substituteParam p (.convert (.param ⟨p.name, t⟩) type)) := by
  intro t' ht' hne
  have away : ∀ t'', t'' ∈ t :: rest.castTypes l → (⟨p.name, t''⟩ : Param) ≠ p →
      ¬ FreeIn ⟨p.name, t''⟩ body ∧ ¬ Catches ⟨p.name, t''⟩ p body :=
    fun t'' hm hp => spares t'' hm fun h => hp (by rw [h])
  have hx : (⟨p.name, t'⟩ : Param) ≠ ⟨p.name, t⟩ := by simpa using hne
  constructor
  · intro hf
    rcases freeIn_of_freeIn_substituteParam hf with ⟨hp, hf⟩ | hf
    · exact (away t' (List.mem_cons_of_mem _ ht') hp).1 hf
    · exact hx (freeIn_param_iff.mp (freeIn_convert_iff.mp hf)).symm
  · intro hc
    rcases catches_of_catches_substituteParam hc with hc | hc | hc
    · by_cases hp : (⟨p.name, t⟩ : Param) = p
      · rw [hp] at hc hx
        exact (away t' (List.mem_cons_of_mem _ ht') hx).2 hc
      · exact (away t List.mem_cons_self hp).1 hc.freeIn
    · by_cases hp : (⟨p.name, t'⟩ : Param) = p
      · rw [hp] at hc
        exact not_catches_self hc
      · exact (away t' (List.mem_cons_of_mem _ ht') hp).2 hc
    · exact not_catches_convert_param _ _ hc

end

/-- **Another name**: a parameter that is spared can be renamed. The induction follows the links; a
cast renames the parameter by which it speaks of its items in turn. -/
theorem resolve_rename {p r : Param} {body : Expr} (ht : r.type = p.type) (hn : r.name ≠ p.name)
    (fresh : ∀ t, ¬ OccursIn ⟨r.name, t⟩ body) (spares : route.Spares l p body) :
    route.resolve l r (body.substituteParam p (.param r)) = route.resolve l p body := by
  induction route generalizing p r body with
  | via n rest ih =>
    have meets : ∀ s, (body.substituteParam p (.param r)).substituteParam r s =
        body.substituteParam p s := Expr.substituteParam_param_substituteParam (fresh r.type)
    cases op : n.operation with
    | mainSource _ | subQuerySource _ | select _ => simp only [resolve, op, meets]
    | selectMany _ result => cases result <;> simp only [resolve, op, meets]
    | groupBy _ _ => simp only [resolve, op]
    | filter _ | orderBy _ _ _ | resultOperator _ =>
      simp only [resolve, op]
      rw [Spares, castTypes_of_passesItem (by rw [op]; rfl)] at spares
      exact ih ht hn fresh spares
    | define name value =>
      simp only [Spares, castTypes, op] at spares
      simp only [resolve, op]
      rw [ih ht hn fresh spares]
    | cast kind type =>
      cases items : rest.itemType l with
      | error _ =>
        simp only [resolve, op, items]
        rfl
      | ok t =>
        rw [Spares, castTypes_cast op items] at spares
        have once : (body.substituteParam p (.convert (.param ⟨p.name, t⟩) type)).substituteParam
            ⟨p.name, t⟩ (.param ⟨r.name, t⟩) =
              body.substituteParam p (.convert (.param ⟨r.name, t⟩) type) := by
          by_cases hp : (⟨p.name, t⟩ : Param) = p
          · rw [Expr.substituteParam_substituteParam_of_not_catches _ _ (fun _ => hp)
              (hp ▸ not_catches_self), Expr.substituteParam_convert,
              Expr.substituteParam_param_self]
          · obtain ⟨free, caught⟩ := spares t List.mem_cons_self fun h => hp (by rw [h])
            rw [Expr.substituteParam_substituteParam_of_not_catches _ _ (fun h => absurd h free)
              caught, Expr.substituteParam_convert, Expr.substituteParam_param_self]
        have fresh' : ∀ t', ¬ OccursIn ⟨r.name, t'⟩
            (body.substituteParam p (.convert (.param ⟨p.name, t⟩) type)) := by
          intro t' ho
          rcases occursIn_of_occursIn_substituteParam ho with ho | ho
          · exact fresh t' ho
          · exact hn (congrArg Param.name (occursIn_param_iff.mp (occursIn_convert_iff.mp ho))).symm
        simp only [resolve, op, items, meets]
        have := ih (p := ⟨p.name, t⟩) (r := ⟨r.name, t⟩) rfl hn fresh' (.cast spares)
        rw [once] at this
        exact this
  | _ => rfl

/-! ### A parameter that is caught -/

theorem closed_bound (x : Param) (ts : List Ty) :
    Expr.Closed (.lambda [x] (.converted ts (.param x))) := by
  intro q hq
  obtain ⟨hx, hf⟩ := freeIn_lambda_iff.mp hq
  rw [Expr.freeIn_converted_iff, freeIn_param_iff] at hf
  exact hx (List.mem_singleton.mpr hf.symm)

/-- If some cast on the way has another type, its parameter can be caught: a lambda that binds it
catches what is put in for `p`. -/
theorem Settled.resolves_caught (h : route.Settled l) {p : Param} {t : Ty}
    (ht : t ∈ route.castTypes l) (hne : t ≠ p.type) :
    ∃ x : Param, x.name = p.name ∧ x ≠ p ∧ ∀ ts, ∃ ts',
      route.Resolves l p (.lambda [x] (.converted ts (.param p)))
        (.lambda [x] (.converted ts' (.param x))) := by
  induction h generalizing p t with
  | item op _ =>
    rw [castTypes_of_bindsItem op] at ht
    cases ht
  | result op _ | select op _ _ => simp [castTypes, op] at ht
  | define op recorded _ ih =>
    obtain ⟨x, hx, hp, caught⟩ := ih (by simpa only [castTypes, op] using ht) hne
    refine ⟨x, hx, hp, fun ts => ?_⟩
    obtain ⟨ts', before⟩ := caught ts
    have after := Resolves.define op before recorded
    rw [(closed_bound x ts').substituteParam] at after
    exact ⟨ts', after⟩
  | @cast n rest kind type op before ih =>
    obtain ⟨t₀, items⟩ := before.exists_itemType
    rw [castTypes_cast op items] at ht
    by_cases h₀ : t₀ = p.type
    · -- The cast speaks of its items by the parameter itself, and it is a later one that is caught.
      have same : (⟨p.name, t₀⟩ : Param) = p := by rw [h₀]
      obtain ⟨x, hx, hp, caught⟩ := ih ((List.mem_cons.mp ht).resolve_left (h₀ ▸ hne)) hne
      refine ⟨x, hx, hp, fun ts => ?_⟩
      obtain ⟨ts', before⟩ := caught (type :: ts)
      refine ⟨ts', .cast op items ?_⟩
      rw [same, Expr.substituteParam_lambda_of_ne hp.symm, Expr.substituteParam_converted,
        Expr.substituteParam_param_self]
      exact before
    · have hp : (⟨p.name, t₀⟩ : Param) ≠ p := fun h => h₀ (congrArg Param.type h)
      refine ⟨⟨p.name, t₀⟩, rfl, hp, fun ts => ⟨type :: ts, .cast op items ?_⟩⟩
      rw [Expr.substituteParam_lambda_of_ne hp.symm, Expr.substituteParam_converted,
        Expr.substituteParam_param_self]
      exact before.resolves_closed _ (closed_bound _ (type :: ts))
  | pass op _ ih =>
    rw [castTypes_of_passesItem op] at ht
    obtain ⟨x, hx, hp, caught⟩ := ih ht hne
    refine ⟨x, hx, hp, fun ts => ?_⟩
    obtain ⟨ts', before⟩ := caught ts
    exact ⟨ts', .pass op before⟩

end Route

/-! ### Lambdas of a chain that was built -/

namespace Chain

variable {ids : Nat → SourceId} {settings : Settings} {depth : UInt32} {c : Chain} {l : Ledger}
  {id : NodeId} {p r : Param}

/-- The lambda of `p` with this body is resolved to the same under the name of `r`. -/
def IgnoresName (c : Chain) (l : Ledger) (id : NodeId) (p r : Param) (body : Expr) : Prop :=
  c.resolveLambda l id ⟨[r], body.substituteParam p (.param r)⟩ = c.resolveLambda l id ⟨[p], body⟩

/-- A lambda is resolved by resolving its body. -/
theorem resolveLambda_single (body : Expr) :
    c.resolveLambda l id ⟨[p], body⟩ = (do
      let e ← (c.route id).resolve l p body
      e.ensureResolved
      return e) :=
  rfl

theorem ignoresName_of_resolve_eq {body : Expr}
    (h : (c.route id).resolve l r (body.substituteParam p (.param r)) =
      (c.route id).resolve l p body) : c.IgnoresName l id p r body := by
  rw [IgnoresName, resolveLambda_single, resolveLambda_single, h]

theorem ignoresName_of_spares {body : Expr} (ht : r.type = p.type)
    (fresh : ∀ t, ¬ OccursIn ⟨r.name, t⟩ body) (spares : (c.route id).Spares l p body) :
    c.IgnoresName l id p r body := by
  apply ignoresName_of_resolve_eq
  by_cases hn : r.name = p.name
  · obtain rfl : r = p := by
      cases r
      cases p
      simp_all
    rw [Expr.substituteParam_self]
  · exact Route.resolve_rename ht hn fresh spares

/-- Where some cast has another type, the name matters for a lambda inside of the body. -/
theorem Built.not_ignoresName {k k' : Nat} {q : Query} (h : c.Built ids settings depth k q l k')
    (leads : (c.route id).Leads) (hn : r.name ≠ p.name) {t : Ty}
    (cast : t ∈ (c.route id).castTypes l) (hne : t ≠ p.type) :
    ∃ body, (∀ t, ¬ OccursIn ⟨r.name, t⟩ body) ∧ ¬ c.IgnoresName l id p r body := by
  have settled := h.settled_route leads
  obtain ⟨x, hx, hp, caught⟩ := settled.resolves_caught cast hne
  obtain ⟨ts, resolved⟩ := caught []
  obtain ⟨item, lets, -, -, item_closed, -, resolves⟩ := settled.substitutes
  have hr : r ≠ x := fun h => hn ((congrArg Param.name h).trans hx)
  have occurs : ∀ {y z : Param}, OccursIn y (.lambda [x] (.param z)) → y = x ∨ y = z := by
    intro y z h
    cases h with
    | binder h => exact .inl (List.mem_singleton.mp h)
    | child hc h => exact .inr (occursIn_param_iff.mp (List.mem_singleton.mp hc ▸ h)).symm
  have away : ∀ {t}, (⟨r.name, t⟩ : Param) ≠ x := fun h => hn ((congrArg Param.name h).trans hx)
  refine ⟨.lambda [x] (.param p), fun t h => ?_, fun same => ?_⟩
  · rcases occurs h with h | h
    · exact away h
    · exact hn (by rw [← h])
  -- Under its own name the parameter is caught.
  have caught' : c.resolveLambda l id ⟨[p], .lambda [x] (.param p)⟩ =
      .ok (.lambda [x] (.converted ts (.param x))) :=
    resolveLambda_eq_ok_iff.mpr ⟨p, rfl, resolved, Route.closed_bound x ts⟩
  -- Under the other name the item is put in.
  have put : c.resolveLambda l id ⟨[r], .lambda [x] (.param r)⟩ = .ok (.lambda [x] item) := by
    have closed : Expr.Closed (.lambda [x] item) := fun y h =>
      item_closed y (freeIn_lambda_iff.mp h).2
    refine resolveLambda_eq_ok_iff.mpr ⟨r, rfl, ?_, closed⟩
    have := resolves r r [] (.lambda [x] (.param r)) rfl fun t ht h => ?_
    · rwa [Expr.converted, List.foldl_nil, Expr.substituteParam_self, Expr.converted,
        List.foldl_nil, Expr.substituteParam_lambda_of_ne hr, Expr.substituteParam_param_self,
        closed.substituteAll] at this
    · rcases occurs h with h | h
      · exact away h
      · exact ht (by rw [← h])
  rw [IgnoresName, Expr.substituteParam_lambda_of_ne hp.symm, Expr.substituteParam_param_self,
    put, caught', Except.ok.injEq, Expr.lambda.injEq] at same
  exact item_closed x (same.2 ▸ Expr.freeIn_converted_iff.mpr .param)

end Chain

/-- **Another name for a parameter** makes no difference where the body spares the parameters of the
casts on the way. It makes none for any body exactly if each of these casts, as far as resolution
comes to them, has the type of the parameter. -/
theorem resolveLambda_rename_iff {ids : Nat → SourceId} {settings : Settings} {chain : Chain}
    {k k' : Nat} {q : Query} {l : Ledger} (h : Runs (chain.toQuery ids settings) k (q, l) k')
    (id : NodeId) {p r : Param} (ht : r.type = p.type) :
    (∀ body, (∀ t, ¬ OccursIn ⟨r.name, t⟩ body) → (chain.route id).Spares l p body →
      chain.IgnoresName l id p r body) ∧
    (r.name ≠ p.name →
      ((∀ body, (∀ t, ¬ OccursIn ⟨r.name, t⟩ body) → chain.IgnoresName l id p r body) ↔
        ((chain.route id).Leads → ∀ t ∈ (chain.route id).castTypes l, t = p.type))) := by
  refine ⟨fun body fresh spares => Chain.ignoresName_of_spares ht fresh spares, fun hn => ?_⟩
  constructor
  · intro ignores leads t cast
    by_contra hne
    obtain ⟨body, fresh, matters⟩ :=
      (Chain.build_runs_iff.mp h).not_ignoresName leads hn cast hne
    exact matters (ignores body fresh)
  · intro types body fresh
    by_cases leads : (chain.route id).Leads
    · exact Chain.ignoresName_of_spares ht fresh fun t cast hne => absurd (types leads t cast) hne
    · obtain ⟨err, fails⟩ := Route.resolve_of_not_leads (l := l) leads
      exact Chain.ignoresName_of_resolve_eq ((fails _ _).trans (fails _ _).symm)

namespace Sample

/-- A lambda over cooks that yields the chef outside of it. -/
def chefOfCook : Expr := .lambda [cook] (.param chef)

/-- A chain can be built, and its ledger has these items. -/
theorem exists_runs_recording (c : Chain) (items : List (NodeId × ItemRef))
    (h : yields (c.toQuery SourceId.countUp {}) 0 (fun b => items.all fun (id, r) =>
      (b.2.record? id).map NodeRecord.item = some (some r)) = true) :
    ∃ q l k, Runs (c.toQuery SourceId.countUp {}) 0 (q, l) k ∧
      ∀ b ∈ items, l.item b.1 = .ok b.2 := by
  obtain ⟨⟨q, l⟩, k, h, recorded⟩ := exists_runs_of_yields h
  refine ⟨q, l, k, h, fun b hb => Ledger.item_eq_ok_iff.mpr (Option.map_eq_some_iff.mp ?_)⟩
  exact of_decide_eq_true (List.all_eq_true.mp recorded b hb)

/-- The reference to a cook in the query of the chefs. -/
def cookItem : ItemRef := ⟨SourceId.countUp 0, "c", cook.type⟩

/-- The reference to the title in the query of the chefs. -/
def titleItem : ItemRef := ⟨SourceId.countUp 1, "t", title.type⟩

theorem chefOfCook_substituteParam (s : Expr) :
    chefOfCook.substituteParam chef s = .lambda [cook] s := by
  rw [chefOfCook, Expr.substituteParam_lambda_of_ne (by decide), Expr.substituteParam_param_self]

/-- Resolution against the chefs: a cast from cooks, past the title. -/
theorem resolves_chefs {l : Ledger} (cooks : l.item ⟨0⟩ = .ok cookItem)
    (titles : l.item ⟨1⟩ = .ok titleItem) (p : Param) (body : Expr) :
    (chefs.route ⟨2⟩).Resolves l p body
      (((body.substituteParam p (.convert (.param ⟨p.name, cook.type⟩) chef.type)).substituteParam
        ⟨p.name, cook.type⟩ (.item cookItem)).substituteParam title (.item titleItem)) := by
  have items : (chefs.route ⟨0⟩).itemType l = .ok cook.type :=
    Route.itemType_of_bindsItem (n := ⟨⟨0⟩, none, "c", "", .mainSource Sample.cooks⟩) rfl cooks
  exact .cast rfl items (.define rfl (.item rfl cooks) titles)

theorem exists_runs_chefs : ∃ q l k, Runs (chefs.toQuery SourceId.countUp {}) 0 (q, l) k ∧
    l.item ⟨0⟩ = .ok cookItem ∧ l.item ⟨1⟩ = .ok titleItem := by
  obtain ⟨q, l, k, h, items⟩ :=
    exists_runs_recording chefs [(⟨0⟩, cookItem), (⟨1⟩, titleItem)] (by decide +kernel)
  exact ⟨q, l, k, h, items _ List.mem_cons_self,
    items _ (List.mem_cons_of_mem _ List.mem_cons_self)⟩

end Sample

theorem resolveLambda_rename_iff_chefs : ∃ q l k,
    Runs (Sample.chefs.toQuery SourceId.countUp {}) 0 (q, l) k ∧
    (∀ body, (∀ t, ¬ OccursIn ⟨"z", t⟩ body) → (Sample.chefs.route ⟨2⟩).Spares l Sample.chef body →
      Sample.chefs.IgnoresName l ⟨2⟩ Sample.chef ⟨"z", Sample.chef.type⟩ body) ∧
    ((∀ body, (∀ t, ¬ OccursIn ⟨"z", t⟩ body) →
        Sample.chefs.IgnoresName l ⟨2⟩ Sample.chef ⟨"z", Sample.chef.type⟩ body) ↔
      ((Sample.chefs.route ⟨2⟩).Leads →
        ∀ t ∈ (Sample.chefs.route ⟨2⟩).castTypes l, t = Sample.chef.type)) := by
  obtain ⟨⟨q, l⟩, k, h⟩ := exists_runs
    (x := Sample.chefs.toQuery SourceId.countUp {}) (s := 0) (by decide +kernel)
  obtain ⟨spared, iff⟩ := resolveLambda_rename_iff h ⟨2⟩ (p := Sample.chef)
    (r := ⟨"z", Sample.chef.type⟩) rfl
  exact ⟨q, l, k, h, spared, iff (by decide)⟩

/-- A cast from cooks speaks of a cook by the name that the chef has, and the lambda over cooks
catches it. Under any name that is not in the chain, the lambda is put in for the chef as it
should be. -/
theorem chefs_notice_name : ∃ q l k, Runs (Sample.chefs.toQuery SourceId.countUp {}) 0 (q, l) k ∧
    Sample.chefs.resolveLambda l ⟨2⟩ ⟨[Sample.chef], Sample.chefOfCook⟩ =
      .ok (.lambda [Sample.cook] (.convert (.param Sample.cook) Sample.chef.type)) ∧
    ∀ r : Param, r.type = Sample.chef.type → r.name ∉ ["c", "t"] →
      (∀ t, ¬ OccursIn ⟨r.name, t⟩ Sample.chefOfCook) ∧
      Sample.chefs.resolveLambda l ⟨2⟩
          ⟨[r], Sample.chefOfCook.substituteParam Sample.chef (.param r)⟩ =
        .ok (.lambda [Sample.cook] (.convert (.item Sample.cookItem) Sample.chef.type)) ∧
      ¬ Sample.chefs.IgnoresName l ⟨2⟩ Sample.chef r Sample.chefOfCook := by
  obtain ⟨q, l, k, h, cooks, titles⟩ := Sample.exists_runs_chefs
  have caught : Sample.chefs.resolveLambda l ⟨2⟩ ⟨[Sample.chef], Sample.chefOfCook⟩ =
      .ok (.lambda [Sample.cook] (.convert (.param Sample.cook) Sample.chef.type)) := by
    have closed : Expr.Closed (.lambda [Sample.cook] (.convert (.param Sample.cook) _)) :=
      Route.closed_bound Sample.cook [Sample.chef.type]
    have resolved := Sample.resolves_chefs cooks titles Sample.chef Sample.chefOfCook
    rw [Sample.chefOfCook_substituteParam,
      show (⟨Sample.chef.name, Sample.cook.type⟩ : Param) = Sample.cook from rfl,
      closed.substituteParam, closed.substituteParam] at resolved
    exact Chain.resolveLambda_eq_ok_iff.mpr ⟨_, rfl, resolved, closed⟩
  refine ⟨q, l, k, h, caught, fun r ht hn => ?_⟩
  have away : ∀ t, (⟨r.name, t⟩ : Param) ≠ Sample.cook := by
    intro t h
    exact hn (congrArg Param.name h ▸ by decide)
  have put : Sample.chefs.resolveLambda l ⟨2⟩
      ⟨[r], Sample.chefOfCook.substituteParam Sample.chef (.param r)⟩ =
        .ok (.lambda [Sample.cook] (.convert (.item Sample.cookItem) Sample.chef.type)) := by
    have closed :
        Expr.Closed (.lambda [Sample.cook] (.convert (.item Sample.cookItem) Sample.chef.type)) :=
      fun y hf => Expr.closed_convert (Expr.closed_item _) _ y (freeIn_lambda_iff.mp hf).2
    have resolved := Sample.resolves_chefs cooks titles r (.lambda [Sample.cook] (.param r))
    rw [Expr.substituteParam_lambda_of_ne (away _), Expr.substituteParam_param_self,
      Expr.substituteParam_lambda_of_ne (away _), Expr.substituteParam_convert,
      Expr.substituteParam_param_self, closed.substituteParam] at resolved
    rw [Sample.chefOfCook_substituteParam]
    exact Chain.resolveLambda_eq_ok_iff.mpr ⟨r, rfl, resolved, closed⟩
  refine ⟨fun t ho => ?_, put, fun same => ?_⟩
  · cases ho with
    | binder hx => exact away t (List.mem_singleton.mp hx)
    | child hc ho =>
      obtain rfl := List.mem_singleton.mp hc
      have := congrArg Param.name (occursIn_param_iff.mp ho)
      exact hn (this ▸ by decide)
  · rw [Chain.IgnoresName, put, caught] at same
    simp at same

end QueryFold
