import Mathlib.Data.List.Nodup
import QueryFold.Encoding.Language

/-!
# Reading what was written: records, options and lists

A record is written as an object whose members have different names, so it is read as a
record, and each field is found by its name. What a reader does with a field depends on the
value only, so it is enough to know that the values are read back: `Undoes` says that of all
values that satisfy a condition and whose documents are low enough, and passes from a value
to an option and to a list.
-/

namespace QueryFold

/-! ### Functions on lists by recursion -/

section Lists

variable {α β : Type}

theorem eq_map_of_cons {f : List α → List β} {g : α → β} (hnil : f [] = [])
    (hcons : ∀ a l, f (a :: l) = g a :: f l) (l : List α) : f l = l.map g := by
  induction l with
  | nil => exact hnil
  | cons a l ih => rw [hcons, ih, List.map_cons]

theorem eq_all_of_cons {f : List α → Bool} {p : α → Bool} (hnil : f [] = true)
    (hcons : ∀ a l, f (a :: l) = (p a && f l)) (l : List α) : f l = l.all p := by
  induction l with
  | nil => exact hnil
  | cons a l ih => rw [hcons, ih, List.all_cons]

end Lists

namespace Json

/-! ### Heights -/

theorem height_array (items : List Json) : (array items).height = heightItems items + 1 := by
  simp only [height]

theorem height_object (members : List (String × Json)) :
    (object members).height = heightMembers members + 1 := by
  simp only [height]

theorem heightMembers_cons (name : String) (j : Json) (members : List (String × Json)) :
    heightMembers ((name, j) :: members) = max j.height (heightMembers members) := rfl

theorem height_variant (name : String) (content : Json) :
    (variant name content).height = content.height + 1 := by
  simp [variant, height_object, heightMembers]

theorem height_variant_object (name : String) (members : List (String × Json)) :
    (variant name (object members)).height = heightMembers members + 2 := by
  rw [height_variant, height_object]

theorem height_le_heightItems {j : Json} {items : List Json} (h : j ∈ items) :
    j.height ≤ heightItems items := by
  induction items with
  | nil => cases h
  | cons item items ih =>
    simp only [heightItems]
    rcases List.mem_cons.mp h with rfl | h
    · omega
    · have := ih h
      omega

/-! ### Variants -/

variable {α : Type} {members : List (String × Json)} {name : String} {read : Json → Option α}
  {write : α → Json}

@[simp] theorem variant?_string (s : String) : (string s).variant? = some (s, none) := rfl

@[simp] theorem variant?_variant (name : String) (content : Json) :
    (variant name content).variant? = some (name, some content) := rfl

@[simp] theorem plainVariant?_string (s : String) : (string s).plainVariant? = some s := rfl

@[simp] theorem plainVariant?_variant_object (name : String) :
    (variant name (object members)).plainVariant? = none := rfl

@[simp] theorem variant_ne_null (name : String) (content : Json) : variant name content ≠ null := by
  simp [variant]

/-! ### Records -/

@[simp] theorem fields?_object {names : List String} {mandatory : Nat}
    (h : (members.map Prod.fst).Nodup) :
    (object members).fields? names mandatory = some members := by
  have hall : names.all fun name => members.countP (·.1 == name) ≤ 1 := by
    simp only [List.all_eq_true, decide_eq_true_eq]
    intro name _
    calc members.countP (·.1 == name)
        = (members.map Prod.fst).count name := by rw [List.count, List.countP_map]; rfl
      _ ≤ 1 := List.nodup_iff_count_le_one.mp h name
  simp [fields?, hall]

@[simp] theorem field_cons_self (j : Json) : field ((name, j) :: members) name read = read j := by
  simp [field]

@[simp] theorem field_cons_of_ne {other : String} {j : Json} (h : name ≠ other) :
    field ((other, j) :: members) name read = field members name read := by
  simp [field, List.lookup_cons, beq_eq_false_iff_ne.mpr h]

@[simp] theorem optional_cons_of_ne {other : String} {j : Json} (h : name ≠ other) :
    optional ((other, j) :: members) name read = optional members name read := by
  simp [optional, List.lookup_cons, beq_eq_false_iff_ne.mpr h]

/-- An optional field is read back if its value is, because no value is written as `null`. -/
@[simp] theorem optional_cons_self {o : Option α} (hnull : ∀ a, write a ≠ null)
    (h : ∀ a ∈ o, read (write a) = some a) :
    optional ((name, optionToJson write o) :: members) name read = some o := by
  cases o with
  | none => simp [optional, optionToJson]
  | some a =>
    have hread : read (write a) = some a := h a rfl
    have hne : write a ≠ null := hnull a
    cases hj : write a <;> simp_all [optional, optionToJson]

@[simp] theorem defaulted_nil {default : α} : defaulted [] name read default = some default := rfl

@[simp] theorem defaulted_cons_self {default : α} (j : Json) :
    defaulted ((name, j) :: members) name read default = read j := by
  simp [defaulted]

@[simp] theorem defaulted_cons_of_ne {other : String} {j : Json} {default : α} (h : name ≠ other) :
    defaulted ((other, j) :: members) name read default = defaulted members name read default := by
  simp [defaulted, List.lookup_cons, beq_eq_false_iff_ne.mpr h]

/-! ### Lists and basic values -/

@[simp] theorem items?_map {l : List α} (h : ∀ a ∈ l, read (write a) = some a) :
    items? read (array (l.map write)) = some l := by
  simp only [items?, List.mapM_map]
  induction l with
  | nil => rfl
  | cons a l ih =>
    rw [List.forall_mem_cons] at h
    simp [h.1, ih h.2]

@[simp] theorem string?_string (s : String) : (string s).string? = some s := rfl

@[simp] theorem bool?_bool (b : Bool) : (bool b).bool? = some b := rfl

@[simp] theorem nat?_int (n : Nat) : (int n).nat? = some n := by
  simp [nat?]

@[simp] theorem word?_int (n : UInt32) : (int n.toNat).word? = some n := by
  have hlt : (n.toNat : Int) < UInt32.size := by exact_mod_cast n.toNat_lt_size
  rw [word?, if_pos ⟨Int.natCast_nonneg _, hlt⟩]
  simp

@[simp] theorem integer?_int (i : Int64) : (int i.toInt).integer? = some i := by
  rw [integer?, if_pos ⟨i.minValue_le_toInt, i.toInt_le⟩, Int64.ofInt_toInt]

/-! ### Values of a kind -/

/-- The reader undoes the writer on the values that satisfy `p` and whose documents are lower than
`fuel`. -/
def Undoes (read : Json → Option α) (write : α → Json) (p : α → Bool) (fuel : Nat) : Prop :=
  ∀ a, p a → (write a).height < fuel → read (write a) = some a

namespace Undoes

variable {p : α → Bool} {fuel : Nat}

theorem zero : Undoes read write p 0 :=
  fun _ _ h => absurd h (Nat.not_lt_zero _)

theorem option (h : Undoes read write p fuel) {o : Option α} (hp : o.all p)
    (hlow : (optionToJson write o).height < fuel) : ∀ a ∈ o, read (write a) = some a := by
  rintro a rfl
  exact h a hp hlow

theorem list (h : Undoes read write p fuel) {l : List α} (hp : l.all p)
    (hlow : heightItems (l.map write) < fuel) : ∀ a ∈ l, read (write a) = some a := by
  intro a ha
  have hle : (write a).height ≤ heightItems (l.map write) :=
    height_le_heightItems (List.mem_map_of_mem ha)
  exact h a (List.all_eq_true.mp hp a ha) (by omega)

end Undoes

end Json

end QueryFold
