import RuleExpr.Declarations
import RuleExpr.Value.Convert

/-!
# Values of a Type

Which values may stand where a value of a type is asked for.  Types are told apart by their keys
only, so what follows holds of types among which a key stands for one type, and whose hierarchies
agree about fields; `Coherent` says so of a set of types.  In such a set a value keeps its types on
the way up: it is assignable to everything above a type that it is assignable to.
-/

namespace RuleExpr

/-- Failures that a well-typed evaluation may end with. -/
def EvalError.isExpected : EvalError → Bool
  | nullValue _ | divisionByZero | indexOutOfBounds _ _ | invalidConversion _ _ | overflow _
  | negativeArraySize _ => true
  | _ => false

/-- An answer in `S`, or an expected failure. -/
def Lands {α : Type} (S : α → Prop) : Except EvalError α → Prop
  | .ok a => S a
  | .error e => e.isExpected

namespace Lands

variable {α β : Type} {S S' : α → Prop} {T : β → Prop} {x : Except EvalError α}

theorem imp (hx : Lands S x) (h : ∀ a, S a → S' a) : Lands S' x := by
  cases x with
  | ok a => exact h a hx
  | error e => exact hx

theorem bind {f : α → Except EvalError β} (hx : Lands S x) (hf : ∀ a, S a → Lands T (f a)) :
    Lands T (x >>= f) := by
  cases x with
  | ok a => exact hf a hx
  | error e => exact hx

theorem map {f : α → β} (hx : Lands S x) (hf : ∀ a, S a → T (f a)) : Lands T (f <$> x) := by
  cases x with
  | ok a => exact hf a hx
  | error e => exact hx

end Lands

namespace Ty

/-- Types of numbers of a kind; the common super-type holds numbers of every kind. -/
def holds (t : Ty) (kind : NumericKind) : Bool :=
  match t with
  | number => true
  | wrapper quantity => quantity.numeric = kind
  | t => t.numericKind? = some kind

/-- Declared classes and interfaces. -/
def isDeclared : Ty → Bool
  | record _ _ _ | interface _ _ _ => true
  | _ => false

/-- Types that hold objects. -/
def isClass : Ty → Bool
  | number | record _ _ _ | interface _ _ _ => true
  | _ => false

/-- Types whose values may be anything. -/
def isTop : Ty → Bool
  | object | void => true
  | _ => false

theorem holds_ofNumericKind (kind : NumericKind) : (ofNumericKind kind).holds kind = true := by
  cases kind <;> rfl

theorem holds_wrapper (quantity : MetaKind) :
    (wrapper quantity).holds quantity.numeric = true :=
  decide_eq_true rfl

theorem holds_of_numericKind? {t : Ty} {kind : NumericKind} (h : t.numericKind? = some kind) :
    t.holds kind = true := by
  cases t <;> simp_all [holds, numericKind?]

end Ty

/-- A value may stand where a value of the type is asked for.  An object has every field that is
visible on a class. -/
inductive Assignable (d : Declarations) : Value → Ty → Prop
  | null {t : Ty} (ht : t.isPrimitive = false) : Assignable d .null t
  | bool {b : Bool} {t : Ty} (ht : t.isBooleanLike) : Assignable d (.bool b) t
  | number {v : Value} {t : Ty} {kind : NumericKind} (hv : v.numericKind? = some kind)
      (ht : t.holds kind) : Assignable d v t
  | string {text : String} : Assignable d (.string text) .string
  | array {elements : List Value} {t component : Ty} (ht : t.component? = some component)
      (helements : ∀ v ∈ elements, Assignable d v component) : Assignable d (.array elements) t
  | object {typeName : String} {fields : List (String × Value)} {t : Ty} (ht : t.isClass)
      (hpresent : ∀ name field, d.field? t name = some field →
        (Assoc.get? fields field.name).isSome)
      (hfields : ∀ name field v, d.field? t name = some field →
        Assoc.get? fields field.name = some v → Assignable d v field.ty) :
      Assignable d (.object typeName fields) t
  | top {v : Value} {t : Ty} (ht : t.isTop) : Assignable d v t

namespace Assignable

variable {d : Declarations} {v : Value} {t u : Ty}

theorem eq_null (h : Assignable d v .null) : v = .null := by
  cases h with
  | null => rfl
  | bool ht | array ht | object ht | top ht => cases ht
  | number _ ht => simp [Ty.holds, Ty.numericKind?] at ht

theorem exists_bool (h : Assignable d v .boolean) : ∃ b, v = .bool b := by
  cases h with
  | bool => exact ⟨_, rfl⟩
  | number _ ht => simp [Ty.holds, Ty.numericKind?, Primitive.numeric?] at ht
  | null ht | array ht | object ht | top ht => cases ht

theorem exists_int (h : Assignable d v .int) : ∃ i, v = .int i := by
  cases h with
  | number hv ht =>
    simp only [Ty.holds, Ty.numericKind?, Primitive.numeric?, decide_eq_true_eq,
      Option.some.injEq] at ht
    subst ht
    cases v with
    | int i => exact ⟨i, rfl⟩
    | _ => cases hv
  | bool ht | null ht | array ht | object ht | top ht => cases ht

theorem null_or_bool (h : Assignable d v (.boxed .boolean)) : v = .null ∨ ∃ b, v = .bool b := by
  cases h with
  | null => exact .inl rfl
  | bool => exact .inr ⟨_, rfl⟩
  | number _ ht => simp [Ty.holds, Ty.numericKind?, Primitive.numeric?] at ht
  | array ht | object ht | top ht => cases ht

theorem null_or_string (h : Assignable d v .string) : v = .null ∨ ∃ text, v = .string text := by
  cases h with
  | null => exact .inl rfl
  | string => exact .inr ⟨_, rfl⟩
  | number _ ht => simp [Ty.holds, Ty.numericKind?] at ht
  | bool ht | array ht | object ht | top ht => cases ht

/-- What a type with elements holds. -/
theorem null_or_array {component : Ty} (ht : t.component? = some component)
    (h : Assignable d v t) :
    v = .null ∨ ∃ elements, v = .array elements ∧ ∀ e ∈ elements, Assignable d e component := by
  have hother : t.isBooleanLike = false ∧ t.isClass = false ∧ t.isTop = false ∧
      ∀ kind, t.holds kind = false := by
    cases t <;> simp_all [Ty.component?, Ty.isBooleanLike, Ty.isClass, Ty.isTop, Ty.holds,
      Ty.numericKind?]
  obtain ⟨hbool, hclass, htop, hnumber⟩ := hother
  cases h with
  | null => exact .inl rfl
  | array ht' helements =>
    rw [ht] at ht'
    cases ht'
    exact .inr ⟨_, rfl, helements⟩
  | string => cases ht
  | bool ht' => exact absurd ht' (Bool.eq_false_iff.1 hbool)
  | number _ ht' => exact absurd ht' (Bool.eq_false_iff.1 (hnumber _))
  | object ht' => exact absurd ht' (Bool.eq_false_iff.1 hclass)
  | top ht' => exact absurd ht' (Bool.eq_false_iff.1 htop)

theorem isNull_eq_false_of_isPrimitive (ht : t.isPrimitive = true) (h : Assignable d v t) :
    v.isNull = false := by
  cases h with
  | null ht' =>
    rw [ht] at ht'
    cases ht'
  | number hv => cases v <;> first | rfl | cases hv
  | top ht' => cases t <;> simp_all [Ty.isTop, Ty.isPrimitive, Ty.primitive?]
  | _ => rfl

/-- A boxed value is the value itself. -/
theorem box (h : Assignable d v t) : Assignable d v t.box := by
  cases t with
  | primitive p =>
    cases h with
    | bool ht => cases p <;> first | exact .bool rfl | cases ht
    | number hv ht => exact .number hv ht
    | null ht | array ht | object ht | top ht => cases ht
  | _ => exact h

/-- Without its null, a boxed type holds what it boxes. -/
theorem unbox {p : Primitive} (hv : v.isNull = false) (h : Assignable d v (.boxed p)) :
    Assignable d v (.primitive p) := by
  cases h with
  | null => cases hv
  | bool ht => cases p <;> first | exact .bool rfl | cases ht
  | number hv ht => exact .number hv ht
  | array ht | object ht | top ht => cases ht

/-- A value that was never written. -/
theorem defaultValue (d : Declarations) (t : Ty) : Assignable d t.defaultValue t := by
  cases t with
  | primitive p =>
    cases p with
    | boolean => exact .bool rfl
    | _ => exact .number rfl rfl
  | _ => exact .null rfl

end Assignable

/-- A set of types with everything that is found from them by going up, down and to arrays. -/
structure Ty.Closed (O : Ty → Prop) : Prop where
  builtin : ∀ {t : Ty} {key : TypeKey}, t.id? = some (.builtin key) → O t
  component : ∀ {t u : Ty}, O t → t.component? = some u → O u
  super : ∀ {t u : Ty}, O t → u ∈ t.supers → O u
  array : ∀ {t : Ty}, O t → O (.array t)

/-- Types in which a key stands for one type.  Only classes and interfaces declare fields, they
extend each other or the class of numbers, and what is visible above a type is visible on it with
the same type. -/
structure Coherent (d : Declarations) (O : Ty → Prop) : Prop extends Ty.Closed O where
  eq_of_key : ∀ {t u : Ty}, O t → O u → t.key = u.key → t = u
  declares : ∀ {t : Ty}, O t → d.ownFields t ≠ [] → t.isDeclared
  extends_class : ∀ {t u : Ty}, O t → t.isDeclared → u ∈ t.supers → u.isClass
  inherited : ∀ {t u : Ty} {name : String} {field : Field}, O t → u ∈ t.supers →
    d.field? u name = some field →
    ∃ own, d.field? t name = some own ∧ own.name = field.name ∧ own.ty = field.ty

theorem Ty.isDeclared_or_number_of_super {t u : Ty} (hu : u ∈ t.supers) :
    t.isDeclared = true ∨ u = .number := by
  cases t with
  | boxed p =>
    simp only [supers] at hu
    split at hu
    · exact .inr (List.mem_singleton.1 hu)
    · cases hu
  | bigInteger | bigDecimal => exact .inr (List.mem_singleton.1 hu)
  | record | interface => exact .inl rfl
  | _ => cases hu

theorem Ty.supers_of_isBooleanLike {t : Ty} (h : t.isBooleanLike) : t.supers = [] := by
  unfold isBooleanLike at h
  split at h
  · rfl
  · rfl
  · cases h

namespace Coherent

variable {d : Declarations} {O : Ty → Prop} {v : Value} {t u : Ty}

theorem isClass_of_super (hd : Coherent d O) (ht : O t) (hu : u ∈ t.supers) : u.isClass := by
  rcases Ty.isDeclared_or_number_of_super hu with hdeclared | rfl
  · exact hd.extends_class ht hdeclared hu
  · rfl

theorem ownFields_eq_nil (hd : Coherent d O) (ht : O t) (hdeclared : t.isDeclared = false) :
    d.ownFields t = [] := by
  refine Decidable.byContradiction fun hne => ?_
  exact absurd (hd.declares ht hne) (Bool.eq_false_iff.1 hdeclared)

theorem field?_number (hd : Coherent d O) (name : String) : d.field? .number name = none := by
  have hown := hd.ownFields_eq_nil (t := .number) (hd.builtin rfl) rfl
  rw [Declarations.field?, hown]
  rfl

/-- Fields are visible on classes and interfaces only. -/
theorem isDeclared_of_field {name : String} {field : Field} (hd : Coherent d O) (ht : O t)
    (h : d.field? t name = some field) : t.isDeclared := by
  unfold Declarations.field? at h
  split at h
  case h_1 own hown =>
    refine hd.declares ht fun hnil => ?_
    rw [hnil] at hown
    cases hown
  case h_2 =>
    obtain ⟨⟨u, hu⟩, -, hfield⟩ := List.exists_of_findSome?_eq_some h
    rcases Ty.isDeclared_or_number_of_super hu with hdeclared | hnumber
    · exact hdeclared
    · replace hfield : d.field? u name = some field := hfield
      rw [hnumber, hd.field?_number] at hfield
      cases hfield

/-- A value keeps its types one level up. -/
theorem assignable_of_super (hd : Coherent d O) (ht : O t) (hu : u ∈ t.supers)
    (h : Assignable d v t) : Assignable d v u := by
  have hclass := hd.isClass_of_super ht hu
  have hnull : u.isPrimitive = false := by
    cases u <;> first | rfl | cases hclass
  cases h with
  | null => exact .null hnull
  | bool ht' =>
    rw [Ty.supers_of_isBooleanLike ht'] at hu
    cases hu
  | number hv ht' =>
    rcases Ty.isDeclared_or_number_of_super hu with hdeclared | rfl
    · cases t <;> simp_all [Ty.isDeclared, Ty.holds, Ty.numericKind?]
    · exact .number hv rfl
  | string => cases hu
  | array ht' => cases t <;> simp_all [Ty.component?, Ty.supers]
  | object _ hpresent hfields =>
    refine .object hclass ?_ ?_
    · intro name field hfield
      obtain ⟨own, hown, hname, -⟩ := hd.inherited ht hu hfield
      rw [← hname]
      exact hpresent name own hown
    · intro name field w hfield hw
      obtain ⟨own, hown, hname, hty⟩ := hd.inherited ht hu hfield
      rw [← hname] at hw
      rw [← hty]
      exact hfields name own w hown hw
  | top ht' => cases t <;> simp_all [Ty.isTop, Ty.supers]

end Coherent

end RuleExpr
