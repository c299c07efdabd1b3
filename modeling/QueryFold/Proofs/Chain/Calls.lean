import QueryFold.Proofs.Chain.Run

/-!
# Computations whose calls show

Resolution asks questions about the items of a node, and to answer one it asks others about the
node before. A *call* is such a question with all it is asked about. `Calls` are computations that
stop at each call, and at each check of the links of a chain, and go on with the answer, whatever
that is. So one can say which calls a computation makes and after which checks (`Calls.Only`,
`Calls.Guarded`), without a word about how a call is answered, or whether it ever is.

If all calls are answered by resolution (`Call.answer`), such a computation becomes one without
calls. `Asks` and `Shows` relate the two, for computations that may fail and for those that have a
state besides. A compound computation shows the calls of another one if its parts do.

`Calls` is a monad in which builds can be made (`Resolver`). What is shown there are the calls of
the build.
-/

namespace QueryFold

variable {α β σ : Type}

/-! ### Calls -/

/-- What is asked about the items of a node. -/
inductive Question where
  /-- What an expression is in which the parameter stands for an item. -/
  | item (p : Param) (body : Expr)
  /-- What the body of a lambda about an item is. -/
  | lambda (l : Lambda)
  /-- Which type the items have. -/
  | type

/-- What a question is answered with. -/
abbrev Question.Answer : Question → Type
  | item _ _ => Expr
  | lambda _ => Expr
  | type => Ty

/-- A question about a node of a chain, in view of what a ledger records. -/
structure Call where
  /-- The chain. -/
  chain : Chain
  /-- The records. -/
  ledger : Ledger
  /-- The node. -/
  node : NodeId
  /-- What is asked about it. -/
  question : Question

/-- The answer that resolution gives to a call. -/
def Call.answer : (c : Call) → Except BuildError c.question.Answer
  | ⟨chain, ledger, id, .item p body⟩ => chain.resolve ledger id p body
  | ⟨chain, ledger, id, .lambda l⟩ => chain.resolveLambda ledger id l
  | ⟨chain, ledger, id, .type⟩ => chain.itemType ledger id

/-- A computation whose calls show. -/
inductive Calls (α : Type) where
  /-- The computation is done. -/
  | done (a : α)
  /-- It has the links of a chain checked, and goes on with the outcome. -/
  | check (chain : Chain) (go : Except BuildError Unit → Calls α)
  /-- It makes a call, and goes on with the answer. -/
  | call (c : Call) (go : Except BuildError c.question.Answer → Calls α)

namespace Calls

/-- One computation, and then another one. -/
def bind : Calls α → (α → Calls β) → Calls β
  | done a, f => f a
  | check chain go, f => check chain fun r => (go r).bind f
  | call c go, f => call c fun r => (go r).bind f

instance : Monad Calls where
  pure := done
  bind := bind

/-- The outcome if links are checked and calls are answered by resolution. -/
def answered : Calls α → α
  | done a => a
  | check chain go => (go chain.checkLinks).answered
  | call c go => (go c.answer).answered

/-- The outcome if calls are answered by `reply`; there is none if a call is not answered. -/
def replied (reply : (c : Call) → Option (Except BuildError c.question.Answer)) :
    Calls α → Option α
  | done a => some a
  | check chain go => (go chain.checkLinks).replied reply
  | call c go => (reply c).bind fun r => (go r).replied reply

/-- Whatever the answers are, only calls with a property are made, and no links are checked. -/
def Only (P : Call → Prop) : Calls α → Prop
  | done _ => True
  | check _ _ => False
  | call c go => P c ∧ ∀ r, (go r).Only P

/-- Whatever the answers are, each call is about a chain whose links were found in order before:
the chain is among `checked`, or the computation has had it checked itself. It does so only with
chains of its `own`. -/
def Guarded (own : Chain → Prop) (checked : List Chain) : Calls α → Prop
  | done _ => True
  | check chain go => own chain ∧ (∀ e, (go (.error e)).Guarded own checked) ∧
      (go (.ok ())).Guarded own (chain :: checked)
  | call c go => c.chain ∈ checked ∧ ∀ r, (go r).Guarded own checked

variable {P : Call → Prop} {own : Chain → Prop} {checked checked' : List Chain} {x : Calls α}
  {f : α → Calls β}

theorem answered_bind : (x.bind f).answered = (f x.answered).answered := by
  induction x with
  | done a => rfl
  | check chain go ih => exact ih _
  | call c go ih => exact ih _

theorem Only.bind (first : x.Only P) (rest : ∀ a, (f a).Only P) : (x.bind f).Only P := by
  induction x with
  | done a => exact rest a
  | check _ _ _ => exact first.elim
  | call c go ih => exact ⟨first.1, fun r => ih r (first.2 r)⟩

theorem Only.imp {Q : Call → Prop} (h : x.Only P) (weaker : ∀ c, P c → Q c) : x.Only Q := by
  induction x with
  | done a => trivial
  | check _ _ _ => exact h.elim
  | call c go ih => exact ⟨weaker c h.1, fun r => ih r (h.2 r)⟩

/-- Replies that are the answers of resolution, as far as calls are made, lead to its outcome. -/
theorem Only.replied_eq {reply : (c : Call) → Option (Except BuildError c.question.Answer)}
    (h : x.Only P) (truthful : ∀ c, P c → reply c = some c.answer) :
    x.replied reply = some x.answered := by
  induction x with
  | done a => rfl
  | check _ _ _ => exact h.elim
  | call c go ih =>
    rw [replied, truthful c h.1, Option.bind_some]
    exact ih _ (h.2 _)

/-- Calls about chains that were checked before are guarded. -/
theorem Only.guarded (h : x.Only fun c => c.chain ∈ checked) : x.Guarded own checked := by
  induction x with
  | done a => trivial
  | check _ _ _ => exact h.elim
  | call c go ih => exact ⟨h.1, fun r => ih r (h.2 r)⟩

/-- More chains may have been checked before. -/
theorem Guarded.mono (h : x.Guarded own checked) (more : checked ⊆ checked') :
    x.Guarded own checked' := by
  induction x generalizing checked checked' with
  | done a => trivial
  | check chain go ih =>
    obtain ⟨mine, refused, passed⟩ := h
    exact ⟨mine, fun e => ih _ (refused e) more, ih _ passed (List.cons_subset_cons chain more)⟩
  | call c go ih => exact ⟨more h.1, fun r => ih r (h.2 r) more⟩

theorem Guarded.bind (first : x.Guarded own checked) (rest : ∀ a, (f a).Guarded own checked) :
    (x.bind f).Guarded own checked := by
  induction x generalizing checked with
  | done a => exact rest a
  | check chain go ih =>
    obtain ⟨mine, refused, passed⟩ := first
    have later (a : α) : (f a).Guarded own (chain :: checked) :=
      (rest a).mono (List.subset_cons_self chain checked)
    exact ⟨mine, fun e => ih _ (refused e) rest, ih _ passed later⟩
  | call c go ih => exact ⟨first.1, fun r => ih r (first.2 r) rest⟩

end Calls

/-! ### Computations that may fail -/

/-- A computation that may fail, whose calls show. -/
abbrev Asking := ExceptT BuildError Calls

/-- Ask a question about a node. -/
def ask (chain : Chain) (ledger : Ledger) (id : NodeId) (q : Question) : Asking q.Answer :=
  ExceptT.mk (.call ⟨chain, ledger, id, q⟩ .done)

/-- The computation `x` makes only calls with a property. With the answers of resolution it does
what `y` does. -/
structure Asks (P : Call → Prop) (x : Asking α) (y : Except BuildError α) : Prop where
  only : x.run.Only P
  answered : x.run.answered = y

namespace Asks

variable {P : Call → Prop}

theorem lift (y : Except BuildError α) : Asks P (liftM y) y := ⟨trivial, rfl⟩

theorem pure (a : α) : Asks P (Pure.pure a) (Pure.pure a) := ⟨trivial, rfl⟩

theorem throw (e : BuildError) : Asks P (throw e : Asking α) (throw e) := ⟨trivial, rfl⟩

theorem ask {chain : Chain} {ledger : Ledger} {id : NodeId} {q : Question}
    (h : P ⟨chain, ledger, id, q⟩) :
    Asks P (QueryFold.ask chain ledger id q) (Call.answer ⟨chain, ledger, id, q⟩) :=
  ⟨⟨h, fun _ => trivial⟩, rfl⟩

theorem bind {x : Asking α} {y : Except BuildError α} {f : α → Asking β}
    {g : α → Except BuildError β} (first : Asks P x y) (rest : ∀ a, Asks P (f a) (g a)) :
    Asks P (x >>= f) (y >>= g) where
  only := by
    refine first.only.bind ?_
    rintro (e | a)
    · trivial
    · exact (rest a).only
  answered := by
    refine Calls.answered_bind.trans ?_
    show Calls.answered (ExceptT.bindCont f x.run.answered) = _
    rw [first.answered]
    cases y with
    | error e => rfl
    | ok a => exact (rest a).answered

theorem imp {Q : Call → Prop} {x : Asking α} {y : Except BuildError α} (h : Asks P x y)
    (weaker : ∀ c, P c → Q c) : Asks Q x y :=
  ⟨h.only.imp weaker, h.answered⟩

end Asks

/-! ### Computations with a state -/

instance : Resolver Calls where
  checkLinks chain := .check chain .done
  resolve chain ledger id p body := (ask chain ledger id (.item p body)).run
  resolveLambda chain ledger id l := (ask chain ledger id (.lambda l)).run

/-- A computation with a state that may fail, whose calls show. -/
abbrev AskingM (σ : Type) := ExceptT BuildError (StateT σ Calls)

/-- The computation `x` makes calls only about chains whose links were checked, either before or in
the computation itself, and has only chains of its `own` checked. With the answers of resolution it
does what `y` does. -/
structure Shows (own : Chain → Prop) (checked : List Chain) (x : AskingM σ α)
    (y : ExceptT BuildError (StateM σ) α) : Prop where
  guarded : ∀ s, (x.run.run s).Guarded own checked
  answered : ∀ s, (x.run.run s).answered = execute y s

namespace Shows

variable {own : Chain → Prop} {checked : List Chain}

theorem pure (a : α) : Shows own checked (Pure.pure a : AskingM σ α) (Pure.pure a) :=
  ⟨fun _ => trivial, fun _ => rfl⟩

theorem throw (e : BuildError) : Shows own checked (throw e : AskingM σ α) (throw e) :=
  ⟨fun _ => trivial, fun _ => rfl⟩

theorem get : Shows own checked (get : AskingM σ σ) get := ⟨fun _ => trivial, fun _ => rfl⟩

theorem modify (f : σ → σ) : Shows own checked (modify f : AskingM σ PUnit) (modify f) :=
  ⟨fun _ => trivial, fun _ => rfl⟩

/-- A result that does not depend on the state. -/
theorem lift (y : Except BuildError α) :
    Shows own checked (liftM y : AskingM σ α) (liftM y) :=
  ⟨fun _ => trivial, fun s => (execute_lift y s).symm⟩

/-- Calls about chains that were checked before. -/
theorem asks {x : Asking α} {y : Except BuildError α} (h : Asks (fun c => c.chain ∈ checked) x y) :
    Shows own checked (asking x.run : AskingM σ α) (asking (m := Id) y) where
  guarded _ := h.only.guarded.bind fun _ => trivial
  answered s := by
    rw [asking_eq_lift, execute_lift, ← h.answered]
    exact Calls.answered_bind

theorem bind {x : AskingM σ α} {y : ExceptT BuildError (StateM σ) α} {f : α → AskingM σ β}
    {g : α → ExceptT BuildError (StateM σ) β} (first : Shows own checked x y)
    (rest : ∀ a, Shows own checked (f a) (g a)) : Shows own checked (x >>= f) (y >>= g) where
  guarded s := by
    refine (first.guarded s).bind ?_
    rintro ⟨e | a, s'⟩
    · trivial
    · exact (rest a).guarded s'
  answered s := by
    rw [execute_bind]
    refine Calls.answered_bind.trans ?_
    show Calls.answered (match (x.run.run s).answered with
      | (r, s') => StateT.run (ExceptT.bindCont f r) s') = _
    rw [first.answered]
    rcases execute y s with ⟨e | a, s'⟩
    · rfl
    · exact (rest a).answered s'

/-- A check that is made in some cases only. -/
theorem check {c : Prop} [Decidable c] {y : Except BuildError PUnit} {f : PUnit → AskingM σ β}
    {g : PUnit → ExceptT BuildError (StateM σ) β} (rest : Shows own checked (f ⟨⟩) (g ⟨⟩)) :
    Shows own checked (if c then liftM y >>= f else f ⟨⟩) (if c then liftM y >>= g else g ⟨⟩) := by
  split
  · exact bind (lift y) fun _ => rest
  · exact rest

/-- What follows a check of links may call about the chain. -/
theorem checking {chain : Chain} {f : Unit → AskingM σ β}
    {g : Unit → ExceptT BuildError (StateM σ) β} (mine : own chain)
    (rest : Shows own (chain :: checked) (f ()) (g ())) :
    Shows own checked (asking (Resolver.checkLinks chain) >>= f)
      (asking (Resolver.checkLinks chain) >>= g) where
  guarded s := ⟨mine, fun _ => trivial, rest.guarded s⟩
  answered s := by
    show Calls.answered (Calls.bind (.done (chain.checkLinks, s)) _) = _
    rw [execute_bind, asking_eq_lift, execute_lift, Resolver.checkLinks_id]
    cases chain.checkLinks with
    | error e => rfl
    | ok _ => exact rest.answered s

end Shows

end QueryFold
