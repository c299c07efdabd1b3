import QueryFold.Chain.Fold

/-!
# Runs of build steps

A step of a build, and likewise a computation that draws identities, starts in a state and
either yields a value or fails; both ways it leaves a state behind. `Runs` and `Fails` say so
as relations, and the lemmas take a compound step apart into runs of its parts.
-/

namespace QueryFold

variable {σ ε α β : Type}

/-! ### Results -/

/-- A statement about some value of the unit type is one about its only value. -/
@[simp] theorem exists_unit {p : Unit → Prop} : (∃ u, p u) ↔ p () :=
  ⟨fun ⟨_, h⟩ => h, fun h => ⟨(), h⟩⟩

theorem except_bind_eq_ok_iff {x : Except ε α} {f : α → Except ε β} {b : β} :
    (x >>= f) = .ok b ↔ ∃ a, x = .ok a ∧ f a = .ok b := by
  cases x with
  | error e => exact ⟨nofun, nofun⟩
  | ok a => exact ⟨fun h => ⟨a, rfl, h⟩, fun ⟨_, ha, h⟩ => by cases ha; exact h⟩

theorem except_bind_eq_error_iff {x : Except ε α} {f : α → Except ε β} {e : ε} :
    (x >>= f) = .error e ↔ x = .error e ∨ ∃ a, x = .ok a ∧ f a = .error e := by
  cases x with
  | error e' => exact ⟨fun h => .inl (by cases h; rfl), by rintro (h | ⟨_, h, _⟩) <;> cases h; rfl⟩
  | ok a => exact ⟨fun h => .inr ⟨a, rfl, h⟩, by rintro (h | ⟨_, h, h'⟩) <;> cases h; exact h'⟩

theorem except_pure_eq_ok_iff {a b : α} : (pure a : Except ε α) = .ok b ↔ b = a := by
  constructor
  · intro h
    cases h
    rfl
  · rintro rfl
    rfl

theorem except_throw_eq_ok_iff {e : ε} {b : α} : (throw e : Except ε α) = .ok b ↔ False :=
  ⟨nofun, nofun⟩

theorem except_map_eq_ok_iff {f : α → β} {x : Except ε α} {b : β} :
    f <$> x = .ok b ↔ ∃ a, x = .ok a ∧ b = f a := by
  cases x with
  | error e => exact ⟨nofun, nofun⟩
  | ok a => exact ⟨fun h => ⟨a, rfl, by cases h; rfl⟩, fun ⟨_, ha, h⟩ => by cases ha; rw [h]; rfl⟩

/-! ### Runs -/

/-- What a computation makes of the state `s`: a value or an error, and the state it leaves. -/
def execute (x : ExceptT ε (StateM σ) α) (s : σ) : Except ε α × σ := (x.run.run s).run

/-- From the state `s` the computation yields `a` and leaves the state `s'`. -/
def Runs (x : ExceptT ε (StateM σ) α) (s : σ) (a : α) (s' : σ) : Prop := execute x s = (.ok a, s')

/-- From the state `s` the computation fails with `e`. -/
def Fails (x : ExceptT ε (StateM σ) α) (s : σ) (e : ε) : Prop := (execute x s).1 = .error e

theorem exists_runs {x : ExceptT ε (StateM σ) α} {s : σ} (h : (execute x s).1.isOk = true) :
    ∃ a s', Runs x s a s' := by
  unfold Runs
  revert h
  rcases execute x s with ⟨_ | a, s'⟩
  · exact nofun
  · exact fun _ => ⟨a, s', rfl⟩

/-- Whether a computation yields a value that passes a check. -/
def yields (x : ExceptT ε (StateM σ) α) (s : σ) (check : α → Bool) : Bool :=
  match (execute x s).1 with
  | .ok a => check a
  | .error _ => false

theorem exists_runs_of_yields {x : ExceptT ε (StateM σ) α} {s : σ} {check : α → Bool}
    (h : yields x s check = true) : ∃ a s', Runs x s a s' ∧ check a = true := by
  unfold Runs
  rw [yields] at h
  revert h
  rcases execute x s with ⟨_ | a, s'⟩
  · exact nofun
  · exact fun h => ⟨a, s', rfl, h⟩

/-- The error of a computation, if it ends in one. -/
def failure? (x : ExceptT ε (StateM σ) α) (s : σ) : Option ε :=
  match (execute x s).1 with
  | .ok _ => none
  | .error e => some e

theorem fails_of_failure? {x : ExceptT ε (StateM σ) α} {s : σ} {e : ε}
    (h : failure? x s = some e) : Fails x s e := by
  rw [Fails]
  rw [failure?] at h
  split at h
  · cases h
  · cases h
    assumption

theorem Runs.not_fails {x : ExceptT ε (StateM σ) α} {s s' : σ} {a : α} {e : ε}
    (h : Runs x s a s') : ¬ Fails x s e := by
  intro h'
  rw [Fails, h] at h'
  cases h'

/-! ### Compound steps -/

theorem execute_bind (x : ExceptT ε (StateM σ) α) (f : α → ExceptT ε (StateM σ) β) (s : σ) :
    execute (x >>= f) s =
      match execute x s with
      | (.ok a, s') => execute (f a) s'
      | (.error e, s') => (.error e, s') := by
  show ((ExceptT.bindCont f (execute x s).1).run (execute x s).2).run = _
  rcases execute x s with ⟨_ | _, _⟩ <;> rfl

theorem execute_map (f : α → β) (x : ExceptT ε (StateM σ) α) (s : σ) :
    execute (f <$> x) s = (f <$> (execute x s).1, (execute x s).2) := by
  rw [← bind_pure_comp, execute_bind]
  rcases execute x s with ⟨_ | _, _⟩ <;> rfl

@[simp] theorem runs_bind {x : ExceptT ε (StateM σ) α} {f : α → ExceptT ε (StateM σ) β} {s s' : σ}
    {b : β} : Runs (x >>= f) s b s' ↔ ∃ a s₁, Runs x s a s₁ ∧ Runs (f a) s₁ b s' := by
  unfold Runs
  rw [execute_bind]
  rcases execute x s with ⟨_ | a, s₁⟩
  · simp
  · simp only [Prod.mk.injEq, Except.ok.injEq]
    constructor
    · exact fun h => ⟨a, s₁, ⟨rfl, rfl⟩, h⟩
    · rintro ⟨_, _, ⟨rfl, rfl⟩, h⟩
      exact h

@[simp] theorem fails_bind {x : ExceptT ε (StateM σ) α} {f : α → ExceptT ε (StateM σ) β} {s : σ}
    {e : ε} : Fails (x >>= f) s e ↔ Fails x s e ∨ ∃ a s₁, Runs x s a s₁ ∧ Fails (f a) s₁ e := by
  unfold Fails Runs
  rw [execute_bind]
  rcases execute x s with ⟨_ | a, s₁⟩
  · simp
  · simp only [Prod.mk.injEq, Except.ok.injEq, reduceCtorEq, false_or]
    constructor
    · exact fun h => ⟨a, s₁, ⟨rfl, rfl⟩, h⟩
    · rintro ⟨_, _, ⟨rfl, rfl⟩, h⟩
      exact h

@[simp] theorem runs_map {x : ExceptT ε (StateM σ) α} {f : α → β} {s s' : σ} {b : β} :
    Runs (f <$> x) s b s' ↔ ∃ a, Runs x s a s' ∧ b = f a := by
  rw [← bind_pure_comp, runs_bind]
  constructor
  · rintro ⟨a, s₁, hx, h⟩
    cases h
    exact ⟨a, hx, rfl⟩
  · rintro ⟨a, hx, rfl⟩
    exact ⟨a, s', hx, rfl⟩

/-! ### Single steps -/

@[simp] theorem execute_get (s : σ) : execute (get : ExceptT ε (StateM σ) σ) s = (.ok s, s) :=
  rfl

@[simp] theorem execute_lift (x : Except ε α) (s : σ) :
    execute (liftM x : ExceptT ε (StateM σ) α) s = (x, s) := by
  cases x <;> rfl

@[simp] theorem execute_drawing (x : DrawM BuildError α) (b : Build) :
    execute (drawing x) b = ((execute x b.drawn).1, { b with drawn := (execute x b.drawn).2 }) :=
  rfl

@[simp] theorem runs_pure {a b : α} {s s' : σ} :
    Runs (pure a : ExceptT ε (StateM σ) α) s b s' ↔ b = a ∧ s' = s := by
  constructor
  · intro h
    cases h
    exact ⟨rfl, rfl⟩
  · rintro ⟨rfl, rfl⟩
    rfl

@[simp] theorem runs_throw {e : ε} {a : α} {s s' : σ} :
    ¬ Runs (throw e : ExceptT ε (StateM σ) α) s a s' := by
  intro h
  cases h

@[simp] theorem fails_throw {e e' : ε} {s : σ} :
    Fails (throw e : ExceptT ε (StateM σ) α) s e' ↔ e = e' := by
  constructor
  · intro h
    cases h
    rfl
  · rintro rfl
    rfl

@[simp] theorem runs_get {s s₁ s' : σ} :
    Runs (get : ExceptT ε (StateM σ) σ) s s₁ s' ↔ s₁ = s ∧ s' = s := by
  constructor
  · intro h
    cases h
    exact ⟨rfl, rfl⟩
  · rintro ⟨rfl, rfl⟩
    rfl

@[simp] theorem runs_set {t s s' : σ} {u : PUnit} :
    Runs (set t : ExceptT ε (StateM σ) PUnit) s u s' ↔ s' = t := by
  constructor
  · intro h
    cases h
    rfl
  · rintro rfl
    rfl

@[simp] theorem runs_modify {f : σ → σ} {s s' : σ} {u : PUnit} :
    Runs (modify f : ExceptT ε (StateM σ) PUnit) s u s' ↔ s' = f s := by
  constructor
  · intro h
    cases h
    rfl
  · rintro rfl
    rfl

@[simp] theorem runs_lift {x : Except ε α} {a : α} {s s' : σ} :
    Runs (liftM x : ExceptT ε (StateM σ) α) s a s' ↔ x = .ok a ∧ s' = s := by
  constructor
  · intro h
    cases h
    exact ⟨rfl, rfl⟩
  · rintro ⟨rfl, rfl⟩
    rfl

/-- Drawing identities touches the count of the build and nothing else. -/
@[simp] theorem runs_drawing {x : DrawM BuildError α} {b b' : Build} {a : α} :
    Runs (drawing x) b a b' ↔ ∃ k, Runs x b.drawn a k ∧ b' = { b with drawn := k } := by
  unfold Runs
  rw [execute_drawing]
  rcases execute x b.drawn with ⟨r, k⟩
  constructor
  · intro h
    cases h
    exact ⟨k, rfl, rfl⟩
  · rintro ⟨_, h, rfl⟩
    cases h
    rfl

@[simp] theorem fails_drawing {x : DrawM BuildError α} {b : Build} {e : BuildError} :
    Fails (drawing x) b e ↔ Fails x b.drawn e :=
  Iff.rfl

/-! ### Resolvers -/

theorem Resolver.checkLinks_id : Resolver.checkLinks (m := Id) = Chain.checkLinks := rfl

theorem Resolver.resolve_id : Resolver.resolve (m := Id) = Chain.resolve := rfl

theorem Resolver.resolveLambda_id : Resolver.resolveLambda (m := Id) = Chain.resolveLambda := rfl

/-- What a build in `Id` asks is answered at once. -/
@[simp] theorem asking_eq_lift (x : Except BuildError α) :
    (asking (m := Id) x : ExceptT BuildError (StateM σ) α) = liftM x :=
  rfl

@[simp] theorem resolveResult_lift (l : Lambda) (ledger : Ledger) (n : Node)
    (resolve : Param → Expr → Except BuildError Expr) :
    (l.resolveResult ledger n (pure ()) fun p e => liftM (resolve p e) :
        ExceptT BuildError (StateM σ) Expr) =
      liftM (l.resolveResult ledger n (pure ()) resolve) := by
  simp [Lambda.resolveResult]

@[simp] theorem replaceM_lift (op : ResultOp) (f : Expr → Except BuildError Expr) :
    (op.replaceM fun e => liftM (f e) : ExceptT BuildError (StateM σ) ResultOp) =
      liftM (op.replaceM f) := by
  cases op <;> simp [ResultOp.replaceM]

/-! ### What a failure leaves behind -/

/-- From the state `s` the computation fails with `e` and leaves the state `s'`. -/
def Halts (x : ExceptT ε (StateM σ) α) (s : σ) (e : ε) (s' : σ) : Prop :=
  execute x s = (.error e, s')

theorem fails_iff_exists_halts {x : ExceptT ε (StateM σ) α} {s : σ} {e : ε} :
    Fails x s e ↔ ∃ s', Halts x s e s' := by
  unfold Fails Halts
  rcases execute x s with ⟨r, s'⟩
  simp

@[simp] theorem halts_bind {x : ExceptT ε (StateM σ) α} {f : α → ExceptT ε (StateM σ) β} {s s' : σ}
    {e : ε} :
    Halts (x >>= f) s e s' ↔ Halts x s e s' ∨ ∃ a s₁, Runs x s a s₁ ∧ Halts (f a) s₁ e s' := by
  unfold Halts Runs
  rw [execute_bind]
  rcases execute x s with ⟨_ | a, s₁⟩
  · simp
  · simp only [Prod.mk.injEq, Except.ok.injEq, reduceCtorEq, false_and, false_or]
    constructor
    · exact fun h => ⟨a, s₁, ⟨rfl, rfl⟩, h⟩
    · rintro ⟨_, _, ⟨rfl, rfl⟩, h⟩
      exact h

@[simp] theorem not_halts_pure {a : α} {e : ε} {s s' : σ} :
    ¬ Halts (pure a : ExceptT ε (StateM σ) α) s e s' := by
  intro h
  cases h

@[simp] theorem halts_map {x : ExceptT ε (StateM σ) α} {f : α → β} {s s' : σ} {e : ε} :
    Halts (f <$> x) s e s' ↔ Halts x s e s' := by
  simp [← bind_pure_comp]

@[simp] theorem not_halts_get {e : ε} {s s' : σ} :
    ¬ Halts (get : ExceptT ε (StateM σ) σ) s e s' := by
  intro h
  cases h

@[simp] theorem not_halts_modify {f : σ → σ} {e : ε} {s s' : σ} :
    ¬ Halts (modify f : ExceptT ε (StateM σ) PUnit) s e s' := by
  intro h
  cases h

@[simp] theorem halts_throw {e e' : ε} {s s' : σ} :
    Halts (throw e : ExceptT ε (StateM σ) α) s e' s' ↔ e' = e ∧ s' = s := by
  constructor
  · intro h
    cases h
    exact ⟨rfl, rfl⟩
  · rintro ⟨rfl, rfl⟩
    rfl

@[simp] theorem halts_lift {x : Except ε α} {e : ε} {s s' : σ} :
    Halts (liftM x : ExceptT ε (StateM σ) α) s e s' ↔ x = .error e ∧ s' = s := by
  rw [Halts, execute_lift, Prod.mk.injEq, eq_comm (a := s)]

@[simp] theorem halts_drawing {x : DrawM BuildError α} {b b' : Build} {e : BuildError} :
    Halts (drawing x) b e b' ↔ ∃ k, Halts x b.drawn e k ∧ b' = { b with drawn := k } := by
  unfold Halts
  rw [execute_drawing]
  rcases execute x b.drawn with ⟨r, k⟩
  constructor
  · intro h
    cases h
    exact ⟨k, rfl, rfl⟩
  · rintro ⟨_, h, rfl⟩
    cases h
    rfl

end QueryFold
