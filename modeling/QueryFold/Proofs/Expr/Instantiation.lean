import QueryFold.Proofs.Expr.Capture

/-!
# Several parameters at once

`Expr.instantiate` replaces all parameters to which an assignment gives an expression, each
outside of the lambdas that bind it, in one pass over the expression. When no replacement has
free parameters, this is the same as replacing one parameter after the other
(`substituteAll_eq_instantiate`), and for parameters that are pairwise different the order does
not matter (`substituteAll_eq_of_perm`).
-/

namespace QueryFold

/-- An assignment of expressions to parameters without the parameters `ps`. -/
def without (ps : List Param) (σ : Param → Option Expr) : Param → Option Expr :=
  fun p => if p ∈ ps then none else σ p

mutual

/-- The expression with every parameter replaced as `σ` says, unless a lambda binds it. -/
def Expr.instantiate (σ : Param → Option Expr) : Expr → Expr
  | .constant v t => .constant v t
  | .param p => (σ p).getD (.param p)
  | .item r => .item r
  | .member e n t => .member (e.instantiate σ) n t
  | .convert e t => .convert (e.instantiate σ) t
  | .unary op e t => .unary op (e.instantiate σ) t
  | .binary op l r t => .binary op (l.instantiate σ) (r.instantiate σ) t
  | .call o m es t => .call (instantiateReceiver σ o) m (instantiateExprs σ es) t
  | .create t ms es => .create t ms (instantiateExprs σ es)
  | .lambda ps e => .lambda ps (e.instantiate (without ps σ))
  | .subQuery q => .subQuery q

/-- Instantiation of the object of a call. -/
def instantiateReceiver (σ : Param → Option Expr) : Option Expr → Option Expr
  | none => none
  | some e => some (e.instantiate σ)

/-- Instantiation of each of several expressions. -/
def instantiateExprs (σ : Param → Option Expr) : List Expr → List Expr
  | [] => []
  | e :: es => e.instantiate σ :: instantiateExprs σ es

end

theorem instantiateReceiver_eq_map (σ : Param → Option Expr) (o : Option Expr) :
    instantiateReceiver σ o = o.map (·.instantiate σ) := by
  cases o <;> rfl

theorem instantiateExprs_eq_map (σ : Param → Option Expr) (es : List Expr) :
    instantiateExprs σ es = es.map (·.instantiate σ) := by
  induction es with
  | nil => rfl
  | cons e es ih => simp [instantiateExprs, ih]

namespace Expr

theorem instantiate_plain {e : Expr} (he : e.Plain) (σ : Param → Option Expr) :
    e.instantiate σ = e.mapChildren (·.instantiate σ) := by
  cases e with
  | param _ | item _ | lambda _ _ | subQuery _ => exact he.elim
  | _ => simp [instantiate, mapChildren, instantiateReceiver_eq_map, instantiateExprs_eq_map]

/-- An assignment that gives nothing to the free parameters of an expression leaves it alone. -/
theorem instantiate_of_not_freeIn {e : Expr} {σ : Param → Option Expr}
    (h : ∀ p, FreeIn p e → σ p = none) : e.instantiate σ = e := by
  induction e using Expr.induction generalizing σ with
  | step e ih =>
    by_cases he : e.Plain
    · rw [instantiate_plain he]
      refine (mapChildren_congr fun c hc => ih c hc fun p hp => h p ?_).trans e.mapChildren_id
      exact (freeIn_iff_children he).mpr ⟨c, hc, hp⟩
    cases e with
    | param q => simp [instantiate, h q .param]
    | lambda ps body =>
      rw [instantiate, ih body (by simp [children])]
      intro p hp
      unfold without
      split_ifs with hm
      · rfl
      · exact h p (.lambda hm hp)
    | item _ | subQuery _ => rw [instantiate]
    | _ => exact absurd trivial he

/-- An expression without free parameters. -/
def Closed (e : Expr) : Prop := ∀ p, ¬ FreeIn p e

theorem freeParams_eq_nil_iff {e : Expr} : e.freeParams = [] ↔ e.Closed := by
  simp only [List.eq_nil_iff_forall_not_mem, mem_freeParams_iff, Closed]

theorem closed_item (r : ItemRef) : Closed (item r) := fun p => not_freeIn_item p r

theorem Closed.instantiate {e : Expr} (h : e.Closed) (σ : Param → Option Expr) :
    e.instantiate σ = e :=
  instantiate_of_not_freeIn fun p hp => absurd hp (h p)

theorem Closed.substituteParam {e : Expr} (h : e.Closed) (p : Param) (r : Expr) :
    e.substituteParam p r = e :=
  substituteParam_of_not_freeIn r (h p)

theorem closed_convert {e : Expr} (h : e.Closed) (t : Ty) : Closed (convert e t) := by
  intro p hp
  rw [freeIn_iff_children (e := convert e t) trivial] at hp
  obtain ⟨c, hc, hf⟩ := hp
  rw [children, List.mem_singleton] at hc
  exact h p (hc ▸ hf)

/-- One parameter can be replaced before the others. -/
theorem instantiate_substituteParam {p : Param} {r : Expr} (hr : r.Closed) (e : Expr)
    (σ : Param → Option Expr) :
    (e.substituteParam p r).instantiate σ =
      e.instantiate fun q => if q = p then some r else σ q := by
  induction e using Expr.induction generalizing σ with
  | step e ih =>
    by_cases he : e.Plain
    · rw [substituteParam_plain he, instantiate_plain (plain_mapChildren he _),
        mapChildren_mapChildren, instantiate_plain he]
      exact mapChildren_congr fun c hc => ih c hc σ
    cases e with
    | param q =>
      rw [substituteParam_param]
      split_ifs with h
      · rw [hr.instantiate, instantiate, if_pos h]
        rfl
      · rw [instantiate, instantiate, if_neg h]
    | lambda ps body =>
      rw [substituteParam_lambda]
      split_ifs with h
      · rw [instantiate, instantiate]
        congr 2
        funext q
        unfold without
        by_cases hq : q = p
        · simp [hq, h]
        · simp [hq]
      · rw [instantiate, instantiate, ih body (by simp [children])]
        congr 2
        funext q
        unfold without
        by_cases hq : q = p
        · simp [hq, h]
        · simp [hq]
    | item _ | subQuery _ => simp [instantiate]
    | _ => exact absurd trivial he

/-! ### One after the other -/

/-- All parameters of a list replaced, the first one first. -/
def substituteAll (σ : List (Param × Expr)) (e : Expr) : Expr :=
  σ.foldl (fun e b => e.substituteParam b.1 b.2) e

theorem Closed.substituteAll {e : Expr} (h : e.Closed) (σ : List (Param × Expr)) :
    e.substituteAll σ = e := by
  induction σ with
  | nil => rfl
  | cons b σ ih =>
    rw [Expr.substituteAll, List.foldl_cons, h.substituteParam]
    exact ih

theorem lookup_cons_eq_ite (b : Param × Expr) (σ : List (Param × Expr)) (p : Param) :
    (b :: σ).lookup p = if p = b.1 then some b.2 else σ.lookup p := by
  obtain ⟨q, s⟩ := b
  rw [List.lookup_cons]
  split_ifs with h
  · simp [h]
  · simp [beq_eq_false_iff_ne.mpr h]

/-- Replacing one after the other is replacing all at once; of two replacements for a parameter the
first one counts. -/
theorem substituteAll_eq_instantiate {σ : List (Param × Expr)} (hσ : ∀ b ∈ σ, Closed b.2)
    (e : Expr) : substituteAll σ e = e.instantiate fun p => σ.lookup p := by
  induction σ generalizing e with
  | nil => exact (instantiate_of_not_freeIn fun _ _ => rfl).symm
  | cons b σ ih =>
    have hb := hσ b List.mem_cons_self
    rw [substituteAll, List.foldl_cons, ← substituteAll,
      ih fun c hc => hσ c (List.mem_cons_of_mem _ hc), instantiate_substituteParam hb]
    congr 1
    funext q
    exact (lookup_cons_eq_ite b σ q).symm

theorem lookup_eq_some_iff_mem {σ : List (Param × Expr)} (h : (σ.map Prod.fst).Nodup) {p : Param}
    {r : Expr} : σ.lookup p = some r ↔ (p, r) ∈ σ := by
  induction σ with
  | nil => simp
  | cons b σ ih =>
    rw [List.map_cons, List.nodup_cons] at h
    rw [lookup_cons_eq_ite, List.mem_cons, Prod.ext_iff]
    split_ifs with hp
    · have : (p, r) ∉ σ := fun hm => h.1 (hp ▸ List.mem_map_of_mem (f := Prod.fst) hm)
      simp [hp, hp ▸ this, eq_comm]
    · simp [hp, ih h.2]

/-- **Order does not matter**: parameters that are pairwise different may be replaced in any order,
and all at once. -/
theorem substituteAll_eq_of_perm {σ τ : List (Param × Expr)} (hσ : ∀ b ∈ σ, Closed b.2)
    (hd : (σ.map Prod.fst).Nodup) (hp : σ.Perm τ) (e : Expr) :
    substituteAll τ e = e.instantiate fun p => σ.lookup p := by
  rw [substituteAll_eq_instantiate fun b hb => hσ b (hp.mem_iff.mpr hb)]
  congr 1
  funext p
  ext r
  rw [lookup_eq_some_iff_mem ((hp.map Prod.fst).nodup_iff.mp hd), lookup_eq_some_iff_mem hd,
    hp.mem_iff]

/-! ### Parameters of one name -/

/-- Replacing `p₀` by what speaks of a parameter of the same name, and then that parameter: the
second replacement meets what the first has put there and nothing else, as long as `e` holds no
parameter of this name with another type. -/
theorem substituteParam_substituteParam {p₀ p : Param} (hn : p.name = p₀.name) {e : Expr}
    (h : ∀ t, t ≠ p₀.type → ¬ OccursIn ⟨p₀.name, t⟩ e) (x r : Expr) :
    (e.substituteParam p₀ x).substituteParam p r = e.substituteParam p₀ (x.substituteParam p r) := by
  have heq : OccursIn p e → p = p₀ := by
    intro hp
    by_contra hne
    refine h p.type (fun ht => hne ?_) (hn ▸ hp)
    cases p
    cases p₀
    simp_all
  refine substituteParam_substituteParam_of_not_catches x r (fun hf => heq hf.occursIn) fun hc => ?_
  obtain rfl := heq hc.occursIn
  exact not_catches_self hc

/-- The expression converted to one type after the other. -/
def converted (ts : List Ty) (e : Expr) : Expr := ts.foldl convert e

theorem substituteParam_converted (ts : List Ty) (e : Expr) (p : Param) (r : Expr) :
    (converted ts e).substituteParam p r = converted ts (e.substituteParam p r) := by
  induction ts generalizing e with
  | nil => rfl
  | cons t ts ih =>
    rw [converted, List.foldl_cons, ← converted, ih, substituteParam_convert]
    rfl

theorem freeIn_converted_iff {p : Param} {ts : List Ty} {e : Expr} :
    FreeIn p (converted ts e) ↔ FreeIn p e := by
  induction ts generalizing e with
  | nil => rfl
  | cons t ts ih => exact ih.trans freeIn_convert_iff

/-- Replacing `p₀` by a conversion of a parameter of the same name, and then that parameter. -/
theorem substituteParam_converted_param {p₀ p : Param} (hn : p.name = p₀.name) {e : Expr}
    (h : ∀ t, t ≠ p₀.type → ¬ OccursIn ⟨p₀.name, t⟩ e) (ts : List Ty) (r : Expr) :
    (e.substituteParam p₀ (converted ts (param p))).substituteParam p r =
      e.substituteParam p₀ (converted ts r) := by
  rw [substituteParam_substituteParam hn h, substituteParam_converted,
    substituteParam_param_self]

end Expr

end QueryFold
