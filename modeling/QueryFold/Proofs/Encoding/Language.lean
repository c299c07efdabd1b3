import QueryFold.Proofs.Encoding.Parts

/-!
# Expressions and queries are read back

A value without floats is read back from its document. Expressions, clauses, operators and
queries hold each other, so this is one statement about all of them, `Reads`, by induction
on the fuel of the readers: a document that is lower than the fuel is read to its end, and
the height of a document is fuel enough.

Floats are left out because not every float has a document that is read as the same one.
-/

namespace QueryFold

open Json (Undoes items?_map optional_cons_self height_variant height_variant_object height_object
  heightMembers_cons height_array)

/-! ### Values without floats -/

mutual

/-- Whether an expression, nested queries included, holds no float. -/
def Expr.floatFree : Expr → Bool
  | .constant value _ => value.floatFree
  | .param _ => true
  | .item _ => true
  | .member object _ _ => object.floatFree
  | .convert operand _ => operand.floatFree
  | .unary _ operand _ => operand.floatFree
  | .binary _ left right _ => left.floatFree && right.floatFree
  | .call object _ args _ => optionalExprFloatFree object && exprsFloatFree args
  | .create _ _ args => exprsFloatFree args
  | .lambda _ body => body.floatFree
  | .subQuery query => query.floatFree

/-- Whether an optional expression holds no float. -/
def optionalExprFloatFree : Option Expr → Bool
  | none => true
  | some e => e.floatFree

/-- Whether no one of several expressions holds a float. -/
def exprsFloatFree : List Expr → Bool
  | [] => true
  | e :: es => e.floatFree && exprsFloatFree es

/-- Whether a sort key holds no float. -/
def SortKey.floatFree : SortKey → Bool
  | ⟨key, _, _⟩ => key.floatFree

/-- Whether no one of several sort keys holds a float. -/
def keysFloatFree : List SortKey → Bool
  | [] => true
  | k :: ks => k.floatFree && keysFloatFree ks

/-- Whether a body clause holds no float. -/
def Clause.floatFree : Clause → Bool
  | .fromExpr _ _ generator projection _ =>
    generator.floatFree && optionalExprFloatFree projection
  | .fromQuery _ query projection _ => query.floatFree && optionalExprFloatFree projection
  | .filter predicate _ => predicate.floatFree
  | .define _ value _ => value.floatFree
  | .orderBy keys _ => keysFloatFree keys

/-- Whether no clause of a body holds a float. -/
def bodyFloatFree : List Clause → Bool
  | [] => true
  | c :: cs => c.floatFree && bodyFloatFree cs

/-- Whether the last clause holds no float. -/
def Terminal.floatFree : Terminal → Bool
  | .select selector _ => selector.floatFree
  | .group key element _ => key.floatFree && element.floatFree

/-- Whether the last clause, if there is one, holds no float. -/
def terminalFloatFree : Option Terminal → Bool
  | none => true
  | some t => t.floatFree

/-- Whether an operator on the result holds no float. -/
def ResultOp.floatFree : ResultOp → Bool
  | .cast _ _ => true
  | .plain _ => true
  | .pick _ _ => true
  | .argument _ arg => arg.floatFree

/-- Whether no one of several operators holds a float. -/
def operatorsFloatFree : List ResultOp → Bool
  | [] => true
  | op :: ops => op.floatFree && operatorsFloatFree ops

/-- Whether a query holds no float. -/
def Query.floatFree : Query → Bool
  | ⟨_, generator, body, terminal, operators, _⟩ =>
    generator.floatFree && bodyFloatFree body && terminalFloatFree terminal &&
      operatorsFloatFree operators

end

/-- Whether the body of a lambda holds no float. -/
def Lambda.floatFree (l : Lambda) : Bool := l.body.floatFree

/-! The functions on options and lists are the general ones. -/

theorem optionalExprFloatFree_eq_all (o : Option Expr) :
    optionalExprFloatFree o = o.all Expr.floatFree := by
  cases o <;> rfl

theorem exprsFloatFree_eq_all (es : List Expr) : exprsFloatFree es = es.all Expr.floatFree :=
  eq_all_of_cons rfl (fun _ _ => rfl) es

theorem keysFloatFree_eq_all (ks : List SortKey) : keysFloatFree ks = ks.all SortKey.floatFree :=
  eq_all_of_cons rfl (fun _ _ => rfl) ks

theorem bodyFloatFree_eq_all (cs : List Clause) : bodyFloatFree cs = cs.all Clause.floatFree :=
  eq_all_of_cons rfl (fun _ _ => rfl) cs

theorem terminalFloatFree_eq_all (o : Option Terminal) :
    terminalFloatFree o = o.all Terminal.floatFree := by
  cases o <;> rfl

theorem operatorsFloatFree_eq_all (ops : List ResultOp) :
    operatorsFloatFree ops = ops.all ResultOp.floatFree :=
  eq_all_of_cons rfl (fun _ _ => rfl) ops

theorem optionalExprToJson_eq (o : Option Expr) :
    optionalExprToJson o = optionToJson Expr.toJson o := by
  cases o <;> simp only [optionalExprToJson, optionToJson]

theorem exprsToJson_eq_map (es : List Expr) : exprsToJson es = es.map Expr.toJson :=
  eq_map_of_cons rfl (fun _ _ => rfl) es

theorem keysToJson_eq_map (ks : List SortKey) : keysToJson ks = ks.map SortKey.toJson :=
  eq_map_of_cons rfl (fun _ _ => rfl) ks

theorem bodyToJson_eq_map (cs : List Clause) : bodyToJson cs = cs.map Clause.toJson :=
  eq_map_of_cons rfl (fun _ _ => rfl) cs

theorem terminalToJson_eq (o : Option Terminal) :
    terminalToJson o = optionToJson Terminal.toJson o := by
  cases o <;> simp only [terminalToJson, optionToJson]

theorem operatorsToJson_eq_map (ops : List ResultOp) :
    operatorsToJson ops = ops.map ResultOp.toJson :=
  eq_map_of_cons rfl (fun _ _ => rfl) ops

/-! ### Optional values are not written as `null` -/

theorem Expr.toJson_ne_null (e : Expr) : e.toJson ≠ .null := by
  cases e with
  | create type members args => cases members <;> simp [Expr.toJson]
  | _ => simp [Expr.toJson]

theorem Terminal.toJson_ne_null (t : Terminal) : t.toJson ≠ .null := by
  cases t <;> simp [Terminal.toJson]

theorem Lambda.toJson_ne_null (l : Lambda) : l.toJson ≠ .null := by
  simp [Lambda.toJson]

/-! ### One step of the readers -/

@[simp] theorem operatorFields?_object (origin : Origin) (name : String) (j : Json) :
    operatorFields? origin name (.object [(name, j)]) = some [(name, j)] := by
  cases origin <;> simp [operatorFields?]

variable {origin : Origin} {fuel : Nat}

/-- The record that a from clause over an expression is written as. -/
def fromExprRecord (source : Source) (generator : Expr) (projection : Option Expr)
    (previous : Position) : Json :=
  .object
    [("source", source.toJson), ("from_expression", generator.toJson),
     ("projection_expression", optionToJson Expr.toJson projection),
     ("previous_clause", previous.toJson)]

/-- Every reader undoes its writer on values without floats whose documents are lower than
`fuel`. -/
structure Reads (origin : Origin) (fuel : Nat) : Prop where
  expr : Undoes (Expr.readWithin origin fuel) Expr.toJson Expr.floatFree fuel
  key : Undoes (SortKey.readWithin origin fuel) SortKey.toJson SortKey.floatFree fuel
  clause : Undoes (Clause.readWithin origin fuel) Clause.toJson Clause.floatFree fuel
  terminal : Undoes (Terminal.readWithin origin fuel) Terminal.toJson Terminal.floatFree fuel
  operator : Undoes (ResultOp.readWithin origin fuel) ResultOp.toJson ResultOp.floatFree fuel
  query : Undoes (Query.readWithin origin fuel) Query.toJson Query.floatFree fuel
  /-- The record of a from clause over an expression, whose reader is one of its own. -/
  fromExpr (kind : FromKind) (source : Source) {generator : Expr} {projection : Option Expr}
    (previous : Position) (hgenerator : generator.floatFree)
    (hprojection : projection.all Expr.floatFree)
    (hlow : (fromExprRecord source generator projection previous).height < fuel) :
    Clause.readFrom origin kind fuel (fromExprRecord source generator projection previous) =
      some (.fromExpr kind source generator projection previous)

namespace Reads

theorem expr_succ (h : Reads origin fuel) :
    Undoes (Expr.readWithin origin (fuel + 1)) Expr.toJson Expr.floatFree (fuel + 1) := by
  intro e hfree hlow
  cases e with
  | constant value type =>
    rw [Expr.floatFree] at hfree
    simp [Expr.toJson, Expr.readWithin, Literal.ofJson?_toJson hfree]
  | param p => simp [Expr.toJson, Expr.readWithin]
  | item ref => simp [Expr.toJson, Expr.readWithin]
  | member object name type =>
    rw [Expr.floatFree] at hfree
    simp only [Expr.toJson, height_variant_object, heightMembers_cons] at hlow
    have hobject := h.expr object hfree (by omega)
    simp [Expr.toJson, Expr.readWithin, hobject]
  | convert operand type =>
    rw [Expr.floatFree] at hfree
    simp only [Expr.toJson, height_variant_object, heightMembers_cons] at hlow
    have hoperand := h.expr operand hfree (by omega)
    simp [Expr.toJson, Expr.readWithin, hoperand]
  | unary op operand type =>
    rw [Expr.floatFree] at hfree
    simp only [Expr.toJson, height_variant_object, heightMembers_cons] at hlow
    have hoperand := h.expr operand hfree (by omega)
    simp [Expr.toJson, Expr.readWithin, hoperand]
  | binary op left right type =>
    rw [Expr.floatFree, Bool.and_eq_true] at hfree
    simp only [Expr.toJson, height_variant_object, heightMembers_cons] at hlow
    have hleft := h.expr left hfree.1 (by omega)
    have hright := h.expr right hfree.2 (by omega)
    simp [Expr.toJson, Expr.readWithin, hleft, hright]
  | call object method args type =>
    rw [Expr.floatFree, optionalExprFloatFree_eq_all, exprsFloatFree_eq_all,
      Bool.and_eq_true] at hfree
    simp only [Expr.toJson, optionalExprToJson_eq, exprsToJson_eq_map, height_variant_object,
      heightMembers_cons, height_array] at hlow
    have hobject := h.expr.option hfree.1 (by omega)
    have hargs := h.expr.list hfree.2 (by omega)
    simp [Expr.toJson, optionalExprToJson_eq, exprsToJson_eq_map, Expr.readWithin,
      optional_cons_self Expr.toJson_ne_null hobject, items?_map hargs]
  | create type members args =>
    rw [Expr.floatFree, exprsFloatFree_eq_all] at hfree
    have hargs : ∀ e ∈ args, Expr.readWithin origin fuel e.toJson = some e := by
      refine h.expr.list hfree ?_
      cases members <;>
        simp only [Expr.toJson, exprsToJson_eq_map, height_variant_object, heightMembers_cons,
          height_array] at hlow <;>
        omega
    -- The list of members is written only if it is not empty.
    cases members with
    | nil => simp [Expr.toJson, exprsToJson_eq_map, Expr.readWithin, items?_map hargs]
    | cons m ms =>
      have hnames : Json.items? Json.string? (.array ((m :: ms).map .string)) = some (m :: ms) :=
        items?_map fun _ _ => rfl
      rw [List.map_cons] at hnames
      simp [Expr.toJson, exprsToJson_eq_map, Expr.readWithin, hnames, items?_map hargs]
  | lambda params body =>
    rw [Expr.floatFree] at hfree
    simp only [Expr.toJson, height_variant_object, heightMembers_cons] at hlow
    have hbody := h.expr body hfree (by omega)
    simp [Expr.toJson, Expr.readWithin, hbody]
  | subQuery query =>
    rw [Expr.floatFree] at hfree
    simp only [Expr.toJson, height_variant] at hlow
    have hquery := h.query query hfree (by omega)
    simp [Expr.toJson, Expr.readWithin, hquery]

theorem key_succ (h : Reads origin fuel) :
    Undoes (SortKey.readWithin origin (fuel + 1)) SortKey.toJson SortKey.floatFree (fuel + 1) := by
  rintro ⟨key, direction, owner⟩ hfree hlow
  rw [SortKey.floatFree] at hfree
  simp only [SortKey.toJson, height_object, heightMembers_cons] at hlow
  have hkey := h.expr key hfree (by omega)
  simp [SortKey.toJson, SortKey.readWithin, hkey, Position.toJson_ne_null]

theorem fromExpr_succ (h : Reads origin fuel) (kind : FromKind) (source : Source)
    {generator : Expr} {projection : Option Expr} (previous : Position)
    (hgenerator : generator.floatFree) (hprojection : projection.all Expr.floatFree)
    (hlow : (fromExprRecord source generator projection previous).height < fuel + 1) :
    Clause.readFrom origin kind (fuel + 1)
        (fromExprRecord source generator projection previous) =
      some (.fromExpr kind source generator projection previous) := by
  simp only [fromExprRecord, height_object, heightMembers_cons] at hlow
  have hgenerator := h.expr generator hgenerator (by omega)
  have hprojection := h.expr.option hprojection (by omega)
  simp [fromExprRecord, Clause.readFrom, hgenerator,
    optional_cons_self Expr.toJson_ne_null hprojection]

theorem clause_succ (h : Reads origin fuel) :
    Undoes (Clause.readWithin origin (fuel + 1)) Clause.toJson Clause.floatFree (fuel + 1) := by
  intro c hfree hlow
  cases c with
  | fromExpr kind source generator projection previous =>
    rw [Clause.floatFree, optionalExprFloatFree_eq_all, Bool.and_eq_true] at hfree
    simp only [Clause.toJson, optionalExprToJson_eq, height_variant] at hlow ⊢
    -- The reader of this record spends fuel once more, so its height must be known as a whole.
    rw [← fromExprRecord] at hlow ⊢
    have hrecord := h.fromExpr kind source previous hfree.1 hfree.2 (by omega)
    cases kind <;> simp [Clause.readWithin, hrecord]
  | fromQuery source query projection previous =>
    rw [Clause.floatFree, optionalExprFloatFree_eq_all, Bool.and_eq_true] at hfree
    simp only [Clause.toJson, optionalExprToJson_eq, height_variant_object,
      heightMembers_cons] at hlow
    have hquery := h.query query hfree.1 (by omega)
    have hprojection := h.expr.option hfree.2 (by omega)
    simp [Clause.toJson, optionalExprToJson_eq, Clause.readWithin, hquery,
      optional_cons_self Expr.toJson_ne_null hprojection]
  | filter predicate previous =>
    rw [Clause.floatFree] at hfree
    simp only [Clause.toJson, height_variant_object, heightMembers_cons] at hlow
    have hpredicate := h.expr predicate hfree (by omega)
    simp [Clause.toJson, Clause.readWithin, hpredicate]
  | define source value previous =>
    rw [Clause.floatFree] at hfree
    simp only [Clause.toJson, height_variant_object, heightMembers_cons] at hlow
    have hvalue := h.expr value hfree (by omega)
    simp [Clause.toJson, Clause.readWithin, hvalue]
  | orderBy keys previous =>
    rw [Clause.floatFree, keysFloatFree_eq_all] at hfree
    simp only [Clause.toJson, keysToJson_eq_map, height_variant_object, heightMembers_cons,
      height_array] at hlow
    have hkeys := h.key.list hfree (by omega)
    simp [Clause.toJson, keysToJson_eq_map, Clause.readWithin, items?_map hkeys]

theorem terminal_succ (h : Reads origin fuel) :
    Undoes (Terminal.readWithin origin (fuel + 1)) Terminal.toJson Terminal.floatFree
      (fuel + 1) := by
  intro t hfree hlow
  cases t with
  | select selector previous =>
    rw [Terminal.floatFree] at hfree
    simp only [Terminal.toJson, height_variant_object, heightMembers_cons] at hlow
    have hselector := h.expr selector hfree (by omega)
    simp [Terminal.toJson, Terminal.readWithin, hselector]
  | group key element previous =>
    rw [Terminal.floatFree, Bool.and_eq_true] at hfree
    simp only [Terminal.toJson, height_variant_object, heightMembers_cons] at hlow
    have hkey := h.expr key hfree.1 (by omega)
    have helement := h.expr element hfree.2 (by omega)
    simp [Terminal.toJson, Terminal.readWithin, hkey, helement]

theorem operator_succ (h : Reads origin fuel) :
    Undoes (ResultOp.readWithin origin (fuel + 1)) ResultOp.toJson ResultOp.floatFree
      (fuel + 1) := by
  intro op hfree hlow
  cases op with
  | cast kind type => cases kind <;> simp [ResultOp.toJson, ResultOp.readWithin]
  | plain op => cases op <;> simp [ResultOp.toJson, PlainOp.name, ResultOp.readWithin]
  | pick op orDefault =>
    cases op <;> simp [ResultOp.toJson, PickOp.name, ResultOp.readWithin, ResultOp.readPick]
  | argument op arg =>
    rw [ResultOp.floatFree] at hfree
    simp only [ResultOp.toJson, height_variant_object, heightMembers_cons] at hlow
    have harg := h.expr arg hfree (by omega)
    cases op <;> simp [ResultOp.toJson, ArgumentOp.name, ResultOp.readWithin, harg]

theorem query_succ (h : Reads origin fuel) :
    Undoes (Query.readWithin origin (fuel + 1)) Query.toJson Query.floatFree (fuel + 1) := by
  rintro ⟨source, generator, body, terminal, operators, resultType⟩ hfree hlow
  simp only [Query.floatFree, bodyFloatFree_eq_all, terminalFloatFree_eq_all,
    operatorsFloatFree_eq_all, Bool.and_eq_true] at hfree
  obtain ⟨⟨⟨hgenerator, hbody⟩, hterminal⟩, hoperators⟩ := hfree
  simp only [Query.toJson, bodyToJson_eq_map, terminalToJson_eq, operatorsToJson_eq_map,
    height_object, heightMembers_cons, height_array] at hlow
  have hgenerator := h.expr generator hgenerator (by omega)
  have hbody := h.clause.list hbody (by omega)
  have hterminal := h.terminal.option hterminal (by omega)
  have hoperators := h.operator.list hoperators (by omega)
  simp [Query.toJson, bodyToJson_eq_map, terminalToJson_eq, operatorsToJson_eq_map,
    Query.readWithin, hgenerator, items?_map hbody,
    optional_cons_self Terminal.toJson_ne_null hterminal, items?_map hoperators]

end Reads

/-- Whatever the fuel is, every reader undoes its writer on what is lower than it. -/
theorem reads_within (origin : Origin) (fuel : Nat) : Reads origin fuel := by
  induction fuel with
  | zero =>
    exact ⟨.zero, .zero, .zero, .zero, .zero, .zero,
      fun _ _ _ _ _ _ _ hlow => absurd hlow (Nat.not_lt_zero _)⟩
  | succ fuel ih =>
    exact ⟨ih.expr_succ, ih.key_succ, ih.clause_succ, ih.terminal_succ, ih.operator_succ,
      ih.query_succ, ih.fromExpr_succ⟩

/-! ### The height is fuel enough -/

theorem Expr.ofJson?_toJson {e : Expr} (h : e.floatFree) : Expr.ofJson? origin e.toJson = some e :=
  (reads_within origin _).expr e h (Nat.lt_succ_self _)

theorem Clause.ofJson?_toJson {c : Clause} (h : c.floatFree) :
    Clause.ofJson? origin c.toJson = some c :=
  (reads_within origin _).clause c h (Nat.lt_succ_self _)

theorem ResultOp.ofJson?_toJson {op : ResultOp} (h : op.floatFree) :
    ResultOp.ofJson? origin op.toJson = some op :=
  (reads_within origin _).operator op h (Nat.lt_succ_self _)

theorem Query.ofJson?_toJson {q : Query} (h : q.floatFree) :
    Query.ofJson? origin q.toJson = some q :=
  (reads_within origin _).query q h (Nat.lt_succ_self _)

theorem Lambda.ofJson?_toJson {l : Lambda} (h : l.floatFree) :
    Lambda.ofJson? origin l.toJson = some l := by
  have hbody : Expr.ofJson? origin l.body.toJson = some l.body := Expr.ofJson?_toJson h
  simp [Lambda.toJson, Lambda.ofJson?, hbody]

end QueryFold
