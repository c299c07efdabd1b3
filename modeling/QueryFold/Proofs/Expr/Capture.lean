import QueryFold.Proofs.Expr.Substitution

/-!
# Capture

Substitution renames nothing, so a parameter in what is put in may be caught by a lambda around the
place where it is put. `Catches x p e` says that the place of some free `p` in `e` is under a binder
of `x`. Two substitutions, of which the second one is meant for what the first one has put in, are
one substitution if nothing is caught and nothing else is there to be met
(`substituteParam_substituteParam_of_not_catches`).
-/

namespace QueryFold

/-- Some free occurrence of `p` in an expression stands in a lambda that binds `x`. -/
inductive Catches (x p : Param) : Expr → Prop where
  /-- In the body of such a lambda. -/
  | binder {ps : List Param} {body : Expr} :
      x ∈ ps → p ∉ ps → FreeIn p body → Catches x p (.lambda ps body)
  /-- Deeper in the body of a lambda. -/
  | lambda {ps : List Param} {body : Expr} :
      p ∉ ps → Catches x p body → Catches x p (.lambda ps body)
  /-- In a subexpression of anything else. -/
  | child {e c : Expr} : e.Plain → c ∈ e.children → Catches x p c → Catches x p e

/-- Some lambda in an expression binds `x`. Nested queries are not entered. -/
inductive Binds (x : Param) : Expr → Prop where
  /-- The lambda itself. -/
  | lambda {ps : List Param} {body : Expr} : x ∈ ps → Binds x (.lambda ps body)
  /-- In a subexpression. -/
  | child {e c : Expr} : c ∈ e.children → Binds x c → Binds x e

section

variable {x p : Param} {e : Expr}

theorem catches_lambda_iff {ps : List Param} {body : Expr} :
    Catches x p (.lambda ps body) ↔ p ∉ ps ∧ (x ∈ ps ∧ FreeIn p body ∨ Catches x p body) := by
  constructor
  · intro h
    cases h with
    | binder hx hp hf => exact ⟨hp, .inl ⟨hx, hf⟩⟩
    | lambda hp h => exact ⟨hp, .inr h⟩
    | child he _ _ => exact he.elim
  · rintro ⟨hp, ⟨hx, hf⟩ | h⟩
    · exact .binder hx hp hf
    · exact .lambda hp h

theorem catches_iff_children (he : e.Plain) : Catches x p e ↔ ∃ c ∈ e.children, Catches x p c := by
  constructor
  · intro h
    cases h with
    | binder _ _ _ | lambda _ _ => exact he.elim
    | child _ hc h => exact ⟨_, hc, h⟩
  · rintro ⟨c, hc, h⟩
    exact .child he hc h

theorem not_catches_param (q : Param) : ¬ Catches x p (.param q) := by
  intro h
  cases h with
  | child he _ _ => exact he

theorem not_catches_convert_param (q : Param) (t : Ty) :
    ¬ Catches x p (.convert (.param q) t) := by
  rw [catches_iff_children (e := .convert (.param q) t) trivial]
  simp [Expr.children, not_catches_param]

theorem Catches.freeIn (h : Catches x p e) : FreeIn p e := by
  induction h with
  | binder _ hp hf => exact .lambda hp hf
  | lambda hp _ ih => exact .lambda hp ih
  | child he hc _ ih => exact .child he hc ih

/-- What catches is a binder in the expression. -/
theorem Catches.occursIn (h : Catches x p e) : OccursIn x e := by
  induction h with
  | binder hx _ _ => exact .binder hx
  | lambda _ _ ih => exact .child List.mem_cons_self ih
  | child _ hc _ ih => exact .child hc ih

theorem Catches.binds (h : Catches x p e) : Binds x e := by
  induction h with
  | binder hx _ _ => exact .lambda hx
  | lambda _ _ ih => exact .child List.mem_cons_self ih
  | child _ hc _ ih => exact .child hc ih

/-- A binder of `p` hides the occurrences of `p` and catches none. -/
theorem not_catches_self : ¬ Catches p p e := by
  intro h
  induction h with
  | binder hx hp _ => exact hp hx
  | lambda _ _ ih => exact ih
  | child _ _ _ ih => exact ih

end

theorem occursIn_param_iff {p q : Param} : OccursIn p (.param q) ↔ q = p := by
  constructor
  · intro h
    cases h with
    | param => rfl
    | child hc _ => simp [Expr.children] at hc
  · rintro rfl
    exact .param

theorem occursIn_convert_iff {p : Param} {e : Expr} {t : Ty} :
    OccursIn p (.convert e t) ↔ OccursIn p e := by
  constructor
  · intro h
    cases h with
    | child hc h => exact List.mem_singleton.mp hc ▸ h
  · exact .child List.mem_cons_self

theorem freeIn_convert_iff {p : Param} {e : Expr} {t : Ty} :
    FreeIn p (.convert e t) ↔ FreeIn p e := by
  rw [freeIn_iff_children (e := .convert e t) trivial]
  simp [Expr.children]

/-! ### Occurrences after a substitution -/

section

variable {p q : Param} {r : Expr}

theorem freeIn_of_freeIn_substituteParam {e : Expr} (h : FreeIn q (e.substituteParam p r)) :
    q ≠ p ∧ FreeIn q e ∨ FreeIn q r := by
  induction e using Expr.induction with
  | step e ih =>
    by_cases he : e.Plain
    · rw [Expr.substituteParam_plain he, freeIn_iff_children (Expr.plain_mapChildren he _),
        Expr.children_mapChildren] at h
      obtain ⟨_, hm, h⟩ := h
      obtain ⟨c, hc, rfl⟩ := List.mem_map.mp hm
      exact (ih c hc h).imp_left fun ⟨hq, hf⟩ => ⟨hq, .child he hc hf⟩
    cases e with
    | param s =>
      rw [Expr.substituteParam_param] at h
      split_ifs at h with hs
      · exact .inr h
      · obtain rfl := freeIn_param_iff.mp h
        exact .inl ⟨hs, h⟩
    | lambda ps body =>
      rw [Expr.substituteParam_lambda] at h
      split_ifs at h with hp
      · refine .inl ⟨?_, h⟩
        rintro rfl
        exact (freeIn_lambda_iff.mp h).1 hp
      · obtain ⟨hq, hf⟩ := freeIn_lambda_iff.mp h
        exact (ih body (by simp [Expr.children]) hf).imp_left fun ⟨hne, hf⟩ => ⟨hne, .lambda hq hf⟩
    | item i =>
      rw [Expr.substituteParam_item] at h
      exact absurd h (not_freeIn_item q i)
    | subQuery s =>
      rw [Expr.substituteParam_subQuery] at h
      exact absurd h (not_freeIn_subQuery q s)
    | _ => exact absurd trivial he

theorem occursIn_of_occursIn_substituteParam {e : Expr}
    (h : OccursIn q (e.substituteParam p r)) : OccursIn q e ∨ OccursIn q r := by
  induction e using Expr.induction with
  | step e ih =>
    by_cases he : e.Plain
    · rw [Expr.substituteParam_plain he] at h
      have hm := Expr.plain_mapChildren he fun c => c.substituteParam p r
      generalize hx : e.mapChildren (fun c => c.substituteParam p r) = x at h hm
      cases h with
      | param | binder _ => exact hm.elim
      | child hc' h =>
        rw [← hx, Expr.children_mapChildren] at hc'
        obtain ⟨c, hc, rfl⟩ := List.mem_map.mp hc'
        exact (ih c hc h).imp_left (.child hc)
    cases e with
    | param s =>
      rw [Expr.substituteParam_param] at h
      split_ifs at h
      · exact .inr h
      · exact .inl h
    | lambda ps body =>
      rw [Expr.substituteParam_lambda] at h
      split_ifs at h
      · exact .inl h
      · cases h with
        | binder hq => exact .inl (.binder hq)
        | child hc h =>
          obtain rfl := List.mem_singleton.mp hc
          exact (ih body (by simp [Expr.children]) h).imp_left (.child List.mem_cons_self)
    | item i => exact .inl (Expr.substituteParam_item .. ▸ h)
    | subQuery s => exact .inl (Expr.substituteParam_subQuery .. ▸ h)
    | _ => exact absurd trivial he

/-- What a binder of `x` catches after a substitution was there before, or is put in there, or comes
caught in what is put in. -/
theorem catches_of_catches_substituteParam {x : Param} {e : Expr}
    (h : Catches x q (e.substituteParam p r)) :
    Catches x q e ∨ Catches x p e ∨ Catches x q r := by
  induction e using Expr.induction with
  | step e ih =>
    by_cases he : e.Plain
    · rw [Expr.substituteParam_plain he, catches_iff_children (Expr.plain_mapChildren he _),
        Expr.children_mapChildren] at h
      obtain ⟨_, hm, h⟩ := h
      obtain ⟨c, hc, rfl⟩ := List.mem_map.mp hm
      exact (ih c hc h).imp (.child he hc) (.imp_left (.child he hc))
    cases e with
    | param s =>
      rw [Expr.substituteParam_param] at h
      split_ifs at h
      · exact .inr (.inr h)
      · exact .inl h
    | lambda ps body =>
      rw [Expr.substituteParam_lambda] at h
      split_ifs at h with hp
      · exact .inl h
      · obtain ⟨hq, ⟨hx, hf⟩ | h⟩ := catches_lambda_iff.mp h
        · -- The body may hold `q` itself, or get it where `p` was; the binder catches both.
          by_cases hb : FreeIn q body
          · exact .inl (.binder hx hq hb)
          · refine .inr (.inl (.binder hx hp ?_))
            by_contra hn
            rw [Expr.substituteParam_of_not_freeIn r hn] at hf
            exact hb hf
        · exact (ih body (by simp [Expr.children]) h).imp (.lambda hq) (.imp_left (.lambda hp))
    | item i => exact .inl (Expr.substituteParam_item .. ▸ h)
    | subQuery s => exact .inl (Expr.substituteParam_subQuery .. ▸ h)
    | _ => exact absurd trivial he

end

/-! ### One substitution after another -/

namespace Expr

/-- Replacing `p`, and then `x` in what was put in: if `e` holds no other free `x` and catches none
of those, this is one replacement of `p`. -/
theorem substituteParam_substituteParam_of_not_catches {x p : Param} {e : Expr} (r s : Expr)
    (free : FreeIn x e → x = p) (caught : ¬ Catches x p e) :
    (e.substituteParam p r).substituteParam x s = e.substituteParam p (r.substituteParam x s) := by
  induction e using Expr.induction with
  | step e ih =>
    by_cases he : e.Plain
    · rw [substituteParam_plain he, substituteParam_plain (plain_mapChildren he _),
        mapChildren_mapChildren, substituteParam_plain he]
      exact mapChildren_congr fun c hc => ih c hc (fun hf => free (.child he hc hf))
        fun h => caught (.child he hc h)
    cases e with
    | param q =>
      rw [substituteParam_param, substituteParam_param]
      split_ifs with hq
      · rfl
      · rw [substituteParam_param, if_neg]
        rintro rfl
        exact hq (free .param)
    | lambda ps body =>
      rw [substituteParam_lambda, substituteParam_lambda]
      split_ifs with hp
      · refine substituteParam_of_not_freeIn s fun hf => ?_
        obtain rfl := free hf
        exact (freeIn_lambda_iff.mp hf).1 hp
      · rw [substituteParam_lambda]
        split_ifs with hx
        · have hn : ¬ FreeIn p body := fun hf => caught (.binder hx hp hf)
          rw [substituteParam_of_not_freeIn _ hn, substituteParam_of_not_freeIn _ hn]
        · rw [ih body (by simp [children]) (fun hf => free (.lambda hx hf))
            fun h => caught (.lambda hp h)]
    | item _ | subQuery _ => simp
    | _ => exact absurd trivial he

/-- A parameter that does not occur can stand for another one until it is replaced. -/
theorem substituteParam_param_substituteParam {p q : Param} {e : Expr} (fresh : ¬ OccursIn q e)
    (s : Expr) : (e.substituteParam p (param q)).substituteParam q s = e.substituteParam p s := by
  rw [substituteParam_substituteParam_of_not_catches _ _ (fun hf => absurd hf.occursIn fresh)
    fun h => fresh h.occursIn, substituteParam_param_self]

end Expr

end QueryFold
