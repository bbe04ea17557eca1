import RuleExpr.Proofs.Binding.Answers
import RuleExpr.Proofs.Imports
import RuleExpr.Proofs.UpcastOrder

/-!
# Structural Equality

A type that is added again or imported under a key that is taken stands for the known one if the two
are structurally equal, and the binder goes on with the known one.  Structural equality is an
equivalence that fixes the key of a type, the keys of its super-types, and its own fields with the
keys of their types.  It compares the kinds of types by their tags, and the tag of a collection does
not tell its element: collections of one key are equal whatever they hold.

`Declarations.ReadAlike` says what has to come out the same: the types of the elements, of the own
fields and of the aggregates that are read off a value of either type.  It holds of equal types
exactly if their elements have the same key, which is so for arrays and whatever is no aggregate.
-/

namespace RuleExpr

open BindM

namespace Declarations

variable {d : Declarations} {t u : Ty}

/-- Own fields by their names and the keys of their types. -/
def ownLayout (d : Declarations) (t : Ty) : List (String × TypeKey) :=
  (d.ownFields t).map fun (name, field) => (name, field.ty.key)

theorem structurallyEqual_iff : d.structurallyEqual t u = true ↔
    t.key = u.key ∧ t.tag = u.tag ∧ t.supers.map Ty.key = u.supers.map Ty.key ∧
      d.ownLayout t = d.ownLayout u := by
  simp only [structurallyEqual, ownLayout, Bool.and_eq_true, decide_eq_true_iff, and_assoc]

theorem structurallyEqual_equivalence (d : Declarations) :
    Equivalence fun t u => d.structurallyEqual t u = true where
  refl t := structurallyEqual_iff.2 ⟨rfl, rfl, rfl, rfl⟩
  symm h := by
    obtain ⟨hkey, htag, hsupers, hlayout⟩ := structurallyEqual_iff.1 h
    exact structurallyEqual_iff.2 ⟨hkey.symm, htag.symm, hsupers.symm, hlayout.symm⟩
  trans h h' := by
    obtain ⟨hkey, htag, hsupers, hlayout⟩ := structurallyEqual_iff.1 h
    obtain ⟨hkey', htag', hsupers', hlayout'⟩ := structurallyEqual_iff.1 h'
    exact structurallyEqual_iff.2 ⟨hkey.trans hkey', htag.trans htag', hsupers.trans hsupers',
      hlayout.trans hlayout'⟩

end Declarations

namespace Ty

variable {t u : Ty}

/-- Key of the element type of an array or collection. -/
def elementKey? (t : Ty) : Option TypeKey := t.component?.map key

def isCollection (t : Ty) : Bool := t.tag = "collection"

theorem component?_eq_none (harray : t.isArray = false) (hcollection : t.isCollection = false) :
    t.component? = none := by
  cases t with
  | array => cases harray
  | list | collection => cases hcollection
  | _ => rfl

/-- The keys of arrays tell the keys of their elements. -/
theorem elementKey?_eq (hkey : t.key = u.key) (ht : t.isCollection = false)
    (hu : u.isCollection = false) : t.elementKey? = u.elementKey? := by
  cases harray : t.isArray with
  | true =>
    have harray' : u.isArray = true := isArray_eq_of_key hkey ▸ harray
    cases t with
    | array =>
      cases u with
      | array => exact congrArg some (key_array_inj hkey)
      | _ => cases harray'
    | _ => cases harray
  | false =>
    have harray' : u.isArray = false := isArray_eq_of_key hkey ▸ harray
    rw [elementKey?, elementKey?, component?_eq_none harray ht, component?_eq_none harray' hu]

theorem isCollection_eq (htag : t.tag = u.tag) : t.isCollection = u.isCollection := by
  rw [isCollection, isCollection, htag]

end Ty

namespace BindM

variable {α : Type} {σ : BindSettings} {s : BindState}

/-- Key of the type that a run ends with, and the context after it. -/
def keyed (act : BindM BoundNode) (σ : BindSettings) (s : BindState) :
    Except BindError TypeKey × BindState :=
  ((act σ s).1.map (·.ty.key), (act σ s).2)

theorem keyed_bind {act : BindM α} {f g : α → BindM BoundNode}
    (h : ∀ a s', act σ s = (.ok a, s') → (f a).keyed σ s' = (g a).keyed σ s') :
    (act >>= f).keyed σ s = (act >>= g).keyed σ s := by
  unfold keyed
  rcases hact : act σ s with ⟨e | a, s'⟩
  · rw [run_bind_of_error hact, run_bind_of_error hact]
  · rw [run_bind_of_ok hact, run_bind_of_ok hact]
    exact h a s' hact

end BindM

section

variable {d : Declarations} {t u : Ty} {σ : BindSettings} {s : BindState} {node : SyntaxNode}
  {shape : BoundShape} {span : Span}

theorem Ty.name_eq (h : t.key = u.key) : t.name = u.name := by
  rw [name, name, h]

theorem accessElement_keyed (hkey : t.key = u.key) (helement : t.elementKey? = u.elementKey?)
    (index : BoundNode) :
    (accessElement node ⟨shape, t, span⟩ index).keyed σ s =
      (accessElement node ⟨shape, u, span⟩ index).keyed σ s := by
  unfold accessElement
  by_cases herror : ((⟨shape, t, span⟩ : BoundNode).isError || index.isError) = true
  · have herror' : ((⟨shape, u, span⟩ : BoundNode).isError || index.isError) = true := herror
    rw [if_pos herror, if_pos herror']
  · have herror' : ¬((⟨shape, u, span⟩ : BoundNode).isError || index.isError) = true := herror
    rw [if_neg herror, if_neg herror']
    unfold Ty.elementKey? at helement
    dsimp only
    cases ht : t.component? with
    | none =>
      rw [ht] at helement
      rw [Option.map_eq_none_iff.1 helement.symm, Ty.name_eq hkey]
    | some component =>
      rw [ht] at helement
      obtain ⟨component', hu, hcomponent⟩ := Option.map_eq_some_iff.1 helement.symm
      rw [hu]
      refine BindM.keyed_bind fun index s' _ => ?_
      by_cases hindex : index.isError = true
      · rw [if_pos hindex, if_pos hindex]
      · rw [if_neg hindex, if_neg hindex]
        exact Prod.ext (congrArg Except.ok hcomponent.symm) rfl

/-- Own fields of one name have types of one key. -/
theorem exists_ownField (hlayout : d.ownLayout t = d.ownLayout u) {name : String} {field : Field}
    (h : Assoc.get? (d.ownFields t) name = some field) :
    ∃ field', Assoc.get? (d.ownFields u) name = some field' ∧ field'.ty.key = field.ty.key := by
  have hget (t : Ty) : Assoc.get? (d.ownLayout t) name =
      (Assoc.get? (d.ownFields t) name).map (·.ty.key) := by
    rw [Declarations.ownLayout, Assoc.get?, List.find?_map, Option.map_map, Assoc.get?,
      Option.map_map]
    rfl
  have hkey := hget u
  rw [← hlayout, hget t, h] at hkey
  exact Option.map_eq_some_iff.1 hkey.symm

theorem field?_of_ownField {name : String} {field : Field}
    (h : Assoc.get? (d.ownFields t) name = some field) : d.field? t name = some field := by
  rw [Declarations.field?, h]

theorem accessField_keyed (hkey : t.key = u.key)
    (hlayout : s.workspace.declarations.ownLayout t = s.workspace.declarations.ownLayout u)
    (hown : (Assoc.get? (s.workspace.declarations.ownFields t) node.text).isSome) :
    (accessField node ⟨shape, t, span⟩).keyed σ s =
      (accessField node ⟨shape, u, span⟩).keyed σ s := by
  obtain ⟨field, hfield⟩ := Option.isSome_iff_exists.1 hown
  obtain ⟨field', hfield', hsame⟩ := exists_ownField hlayout hfield
  unfold accessField
  by_cases herror : (⟨shape, t, span⟩ : BoundNode).isError = true
  · have herror' : (⟨shape, u, span⟩ : BoundNode).isError = true := herror
    rw [if_pos herror, if_pos herror']
  · have herror' : ¬(⟨shape, u, span⟩ : BoundNode).isError = true := herror
    rw [if_neg herror, if_neg herror']
    dsimp only
    rw [← Ty.isArray_eq_of_key hkey]
    split
    · rfl
    · have hrun {t : Ty} {field : Field}
          (h : Assoc.get? (s.workspace.declarations.ownFields t) node.text = some field) :
          fieldOf t node.text σ s = (.ok (some field), s) := by
        rw [← field?_of_ownField h]
        rfl
      unfold BindM.keyed
      rw [run_bind_of_ok (hrun hfield), run_bind_of_ok (hrun hfield')]
      exact Prod.ext (congrArg Except.ok hsame.symm) rfl

theorem declareLoopVar_spec {element declared : Ty} {loop : LoopVariable} {s' : BindState}
    (hrun : declareLoopVar node element declared σ s = (.ok (some loop), s')) :
    loop.var.ty = declared ∧ (loop.elementCast.isNone = true ↔ declared.key = element.key) := by
  have hadd {cast? : Option Cast} {s : BindState}
      (hrun : (addVar LocalVar.localNs node.text declared node.span >>= fun var? =>
        pure (var?.map (LoopVariable.mk · cast?))) σ s = (.ok (some loop), s')) :
      loop.var.ty = declared ∧ loop.elementCast = cast? := by
    obtain ⟨var?, s₁, hvar, hpure⟩ := bind_eq_ok.1 hrun
    obtain ⟨hloop, -⟩ := pure_eq_ok.1 hpure
    obtain ⟨var, rfl, rfl⟩ := Option.map_eq_some_iff.1 hloop
    exact ⟨(addVar_eq_some hvar).2.2, rfl⟩
  unfold declareLoopVar at hrun
  dsimp only at hrun
  split at hrun
  case isTrue hkey =>
    obtain ⟨hty, hcast⟩ := hadd hrun
    simp [hty, hcast, hkey]
  case isFalse hkey =>
    obtain ⟨cast?, s₁, -, hrest⟩ := bind_eq_ok.1 hrun
    cases cast? with
    | some cast =>
      obtain ⟨hty, hcast⟩ := hadd hrest
      simp [hty, hcast, hkey]
    | none =>
      obtain ⟨-, s₂, -, hpure⟩ := bind_eq_ok.1 hrest
      cases (pure_eq_ok.1 hpure).1

theorem hiddenLoopVar_spec {body : SyntaxNode} {element : Ty} {loop : LoopVariable}
    {s' : BindState} (hrun : hiddenLoopVar body element σ s = (.ok (some loop), s')) :
    loop.var.ty = element ∧ loop.elementCast = none := by
  obtain ⟨context, s₁, -, hrest⟩ := bind_eq_ok.1 hrun
  obtain ⟨settings, s₂, -, hrest⟩ := bind_eq_ok.1 hrest
  obtain ⟨var?, s₃, hadd, hrest⟩ := bind_eq_ok.1 hrest
  cases var? with
  | none => cases (pure_eq_ok.1 hrest).1
  | some var =>
    obtain ⟨-, s₄, -, hpure⟩ := bind_eq_ok.1 hrest
    cases (pure_eq_ok.1 hpure).1
    exact ⟨(addVar_eq_some hadd).2.2, rfl⟩

end

/-- Variables of loops over elements of two types, with types of the same key that are primitive
alike if the elements are, and elements that are converted to both or to neither. -/
structure LoopVariable.Matches (e e' : Ty) (loop loop' : LoopVariable) : Prop where
  key : loop.var.ty.key = loop'.var.ty.key
  primitive : e.isPrimitive = e'.isPrimitive → loop.var.ty.isPrimitive = loop'.var.ty.isPrimitive
  cast : loop.elementCast.isNone = loop'.elementCast.isNone

section

variable {t u e e' : Ty} {σ : BindSettings} {s s' s₁ s₁' : BindState} {loop loop' : LoopVariable}

/-- A variable is declared with a written type, which is the same in both loops, or has the type of
the elements. -/
theorem namedLoopVar_matches {node : SyntaxNode} (hkey : e.key = e'.key)
    (hrun : namedLoopVar node e σ s = (.ok (some loop), s₁))
    (hrun' : namedLoopVar node e' σ s = (.ok (some loop'), s₁')) :
    LoopVariable.Matches e e' loop loop' := by
  unfold namedLoopVar at hrun hrun'
  split at hrun
  case isFalse hkind =>
    obtain ⟨-, s₂, -, hpure⟩ := bind_eq_ok.1 hrun
    cases (pure_eq_ok.1 hpure).1
  case isTrue hkind =>
    rw [if_pos hkind] at hrun'
    obtain ⟨declared?, s₂, hdeclared, hrest⟩ := bind_eq_ok.1 hrun
    obtain ⟨declared?', s₂', hdeclared', hrest'⟩ := bind_eq_ok.1 hrun'
    cases declared? with
    | none => cases (pure_eq_ok.1 hrest).1
    | some declared =>
    cases declared?' with
    | none => cases (pure_eq_ok.1 hrest').1
    | some declared' =>
      obtain ⟨hty, hcast⟩ := declareLoopVar_spec hrest
      obtain ⟨hty', hcast'⟩ := declareLoopVar_spec hrest'
      rw [← hkey] at hcast'
      unfold declaredLoopType at hdeclared hdeclared'
      cases hchildren : node.children with
      -- No type is written, so each variable has the type of its elements.
      | nil =>
        rw [hchildren] at hdeclared hdeclared'
        obtain rfl := Option.some.inj (pure_eq_ok.1 hdeclared).1
        obtain rfl := Option.some.inj (pure_eq_ok.1 hdeclared').1
        rw [hkey] at hcast hcast'
        refine ⟨by rw [hty, hty', hkey], fun hprimitive => by rw [hty, hty', hprimitive], ?_⟩
        exact Bool.eq_iff_iff.2 (by simp [hcast, hcast'])
      -- The written type is resolved in one context, to the same type in both loops.
      | cons type rest =>
        rw [hchildren] at hdeclared hdeclared'
        cases hdeclared.symm.trans hdeclared'
        refine ⟨by rw [hty, hty'], fun _ => by rw [hty, hty'], ?_⟩
        exact Bool.eq_iff_iff.2 (hcast.trans hcast'.symm)

theorem loop_of_bindLoopBody {kind : AggregateKind} {body : Child} {loop? : Option LoopVariable}
    {n : BoundNode} (hrun : bindLoopBody kind body loop? σ s = (.ok (some (loop, n)), s₁)) :
    loop? = some loop := by
  cases loop? with
  | none => cases (pure_eq_ok.1 hrun).1
  | some found =>
    rw [bindLoopBody] at hrun
    split at hrun
    all_goals
      obtain ⟨bound, s₂, -, hpure⟩ := bind_eq_ok.1 hrun
      obtain ⟨hanswer, -⟩ := pure_eq_ok.1 hpure
      split at hanswer
      · cases hanswer
      · cases hanswer
        rfl

/-- Loops over elements of one key declare variables that match. -/
theorem bindLoop_matches {kind : AggregateKind} {var? : Option Child} {body : Child}
    {n n' : BoundNode} (hkey : e.key = e'.key)
    (hrun : bindLoop kind e var? body σ s = (.ok (some (loop, n)), s₁))
    (hrun' : bindLoop kind e' var? body σ s = (.ok (some (loop', n')), s₁')) :
    LoopVariable.Matches e e' loop loop' := by
  cases var? with
  | some var =>
    rw [bindLoop_some] at hrun hrun'
    obtain ⟨loop?, s₂, hloop, hbody⟩ := bind_eq_ok.1 hrun
    obtain ⟨loop?', s₂', hloop', hbody'⟩ := bind_eq_ok.1 hrun'
    rw [loop_of_bindLoopBody hbody] at hloop
    rw [loop_of_bindLoopBody hbody'] at hloop'
    exact namedLoopVar_matches hkey hloop hloop'
  | none =>
    rw [bindLoop_none] at hrun hrun'
    obtain ⟨loop?, s₂, hloop, hbody⟩ := bind_eq_ok.1 hrun
    obtain ⟨loop?', s₂', hloop', hbody'⟩ := bind_eq_ok.1 hrun'
    rw [loop_of_bindLoopBody hbody] at hloop
    rw [loop_of_bindLoopBody hbody'] at hloop'
    obtain ⟨rfl, hcast⟩ := hiddenLoopVar_spec hloop
    obtain ⟨rfl, hcast'⟩ := hiddenLoopVar_spec hloop'
    exact ⟨hkey, id, by rw [hcast, hcast']⟩

theorem arrayOf_key (component : Ty) :
    (BindM.arrayOf component σ s).1.map Ty.key = .ok (Ty.array component).key := by
  obtain ⟨known, hknown, hkey⟩ :=
    TypeSpace.arrayOf_fst (s.workspace.space s.owner.space) component
  have hrun : (BindM.arrayOf component σ s).1 =
      .ok ((s.workspace.space s.owner.space).arrayOf component).1 := rfl
  rw [hrun, hknown]
  exact congrArg Except.ok (Ty.key_array hkey)

theorem Ty.box_key_eq (hkey : e.key = e'.key) (hprimitive : e.isPrimitive = e'.isPrimitive) :
    e.box.key = e'.box.key := by
  cases e with
  | primitive p =>
    cases e' with
    | primitive q =>
      have hsame : p = q := by
        revert hkey
        cases p <;> cases q <;> decide
      rw [hsame]
    | _ => cases hprimitive
  | _ =>
    cases e' with
    | primitive q => cases hprimitive
    | _ => exact hkey

/-- The type of an aggregate goes by the keys of the source and of the loop variable. -/
theorem aggregateType_key {kind : AggregateKind} {shape : BoundShape} {span : Span}
    {n n' : BoundNode} (hkey : t.key = u.key) (hloop : LoopVariable.Matches e e' loop loop')
    (hprimitive : kind = .selectFirst → e.isPrimitive = e'.isPrimitive)
    (hbody : kind = .collect → n.ty = n'.ty) :
    (aggregateType kind ⟨shape, t, span⟩ loop n σ s).1.map Ty.key =
      (aggregateType kind ⟨shape, u, span⟩ loop' n' σ s').1.map Ty.key := by
  cases kind with
  | selectAll =>
    simp only [aggregateType, ← Ty.isArray_eq_of_key hkey, ← hloop.cast]
    split
    · exact congrArg Except.ok hkey
    · rw [arrayOf_key, arrayOf_key, Ty.key_array hloop.key]
  | selectFirst =>
    exact congrArg Except.ok (Ty.box_key_eq hloop.key (hloop.primitive (hprimitive rfl)))
  | collect => simp only [aggregateType, hbody rfl, arrayOf_key]

end

/-! ## Reading alike -/

/-- Expressions on a value come out with types of the same keys, whichever of the two types the
value has: elements with whatever is reported about them, own fields, and aggregates whose loops can
be bound.  What is collected has the type of the body; and where a primitive type and a declared one
share the key of the elements, boxing the first one sets the two apart. -/
structure Declarations.ReadAlike (d : Declarations) (t u : Ty) : Prop where
  element : ∀ node shape span index σ s,
    (accessElement node ⟨shape, t, span⟩ index).keyed σ s =
      (accessElement node ⟨shape, u, span⟩ index).keyed σ s
  ownField : ∀ (node : SyntaxNode) shape span σ s, s.workspace.declarations = d →
    (Assoc.get? (d.ownFields t) node.text).isSome →
    (accessField node ⟨shape, t, span⟩).keyed σ s = (accessField node ⟨shape, u, span⟩).keyed σ s
  aggregate : ∀ e e', t.component? = some e → u.component? = some e' →
    ∀ kind var? body σ s loop n s₁ loop' n' s₁',
      bindLoop kind e var? body σ s = (.ok (some (loop, n)), s₁) →
      bindLoop kind e' var? body σ s = (.ok (some (loop', n')), s₁') →
      (kind = .selectFirst → e.isPrimitive = e'.isPrimitive) →
      (kind = .collect → n.ty = n'.ty) → ∀ shape span,
        (aggregateType kind ⟨shape, t, span⟩ loop n σ s₁).1.map Ty.key =
          (aggregateType kind ⟨shape, u, span⟩ loop' n' σ s₁').1.map Ty.key

section

variable {d : Declarations} {t u e e' : Ty} {σ : BindSettings} {s : BindState}

/-- An element at an integer, of a value that is null. -/
def elementOf (t : Ty) : BindM BoundNode :=
  accessElement ⟨.index, none, [], .nowhere⟩ ⟨.literal .null, t, .nowhere⟩
    ⟨.literal (.int 0), .int, .nowhere⟩

theorem elementOf_keyed (h : t.component? = some e) : (elementOf t).keyed σ s = (.ok e.key, s) := by
  unfold elementOf accessElement
  dsimp only
  rw [h]
  rfl

theorem elementOf_reports (h : t.component? = none) :
    ((elementOf t).keyed σ s).2.diagnostics.length = s.diagnostics.length + 1 := by
  unfold elementOf accessElement
  dsimp only
  rw [h]
  exact List.length_append

/-- The key of the elements shows in any context. -/
theorem elementKey?_eq_of_elementOf (h : (elementOf t).keyed σ s = (elementOf u).keyed σ s) :
    t.elementKey? = u.elementKey? := by
  unfold Ty.elementKey?
  cases ht : t.component? with
  | none =>
    cases hu : u.component? with
    | none => rfl
    | some e =>
      have hreports := elementOf_reports (σ := σ) (s := s) ht
      rw [h, elementOf_keyed hu] at hreports
      exact absurd hreports (Nat.ne_of_lt (Nat.lt_succ_self _))
  | some e =>
    rw [elementOf_keyed ht] at h
    cases hu : u.component? with
    | none =>
      have hreports := elementOf_reports (σ := σ) (s := s) hu
      rw [← h] at hreports
      exact absurd hreports (Nat.ne_of_lt (Nat.lt_succ_self _))
    | some e' =>
      rw [elementOf_keyed hu] at h
      exact congrArg some (Except.ok.inj (Prod.mk.inj h).1)

theorem Declarations.readAlike_iff (h : d.structurallyEqual t u = true) :
    d.ReadAlike t u ↔ t.elementKey? = u.elementKey? := by
  obtain ⟨hkey, -, -, hlayout⟩ := structurallyEqual_iff.1 h
  constructor
  · intro hread
    exact elementKey?_eq_of_elementOf (σ := ⟨⟨[]⟩, .standard⟩)
      (s := .start (.empty "Rules" "rules" 0) .empty) (hread.element _ _ _ _ _ _)
  · intro helement
    refine ⟨fun node shape span index σ s => accessElement_keyed hkey helement index,
      fun node shape span σ s hd hown => ?_, ?_⟩
    · subst hd
      exact accessField_keyed hkey hlayout hown
    · intro e e' ht hu kind var? body σ s loop n s₁ loop' n' s₁' hrun hrun' hprimitive hbody shape
        span
      rw [Ty.elementKey?, Ty.elementKey?, ht, hu] at helement
      have hsame : e.key = e'.key := Option.some.inj helement
      exact aggregateType_key hkey (bindLoop_matches hsame hrun hrun') hprimitive hbody

end

section

variable {d : Declarations} {t known : Ty}

theorem RuleModule.addType_structurallyEqual {m m' : RuleModule}
    (h : m.addType d t = .ok (known, m')) : d.structurallyEqual known t = true := by
  unfold addType at h
  split at h
  · split at h
    case isTrue hequal =>
      cases h
      exact hequal
    case isFalse => cases h
  · cases h
    exact (Declarations.structurallyEqual_equivalence d).refl t

/-- An import that is no error leaves a type of the same structure under the key. -/
theorem Imports.addType_structurallyEqual {own : TypeTable} {dependency : String} {i : Imports}
    (h : (addType d own dependency i t).errors = i.errors) :
    ∃ known, (Assoc.get? own t.key <|> Assoc.get? (addType d own dependency i t).types t.key) =
      some known ∧ d.structurallyEqual known t = true := by
  unfold addType at h ⊢
  split at h
  case h_1 known hknown =>
    split at h
    case isTrue hequal =>
      rw [if_pos hequal]
      exact ⟨known, hknown, hequal⟩
    case isFalse => simp [addError] at h
  case h_2 hnone =>
    refine ⟨t, ?_, (Declarations.structurallyEqual_equivalence d).refl t⟩
    have hfree : Assoc.get? own t.key = none ∧ Assoc.get? i.types t.key = none := by
      simpa using hnone
    simp [Assoc.get?_append, Assoc.get?_cons, hfree]

end

theorem structurallyEqual_collection_iff {d : Declarations} {id id' : Nat} {name : QName}
    {e e' : Ty} : d.structurallyEqual (.collection id name e) (.collection id' name e') = true ↔
      d.ownLayout (.collection id name e) = d.ownLayout (.collection id' name e') := by
  rw [Declarations.structurallyEqual_iff]
  exact ⟨fun h => h.2.2.2, fun h => ⟨rfl, rfl, rfl, h⟩⟩

/-- Structural equality is an equivalence that fixes the key of a type, its super-types and its own
fields by their keys, and the key of the elements unless both types are collections, whose elements
it does not compare.  A type that is added or imported without an error stands for one that is
structurally equal, and what is read off the two is alike exactly if their elements have the same
key. -/
theorem structural_equality_reads_alike_iff (d : Declarations) :
    Equivalence (fun t u => d.structurallyEqual t u = true) ∧
    (∀ t u, d.structurallyEqual t u = true →
      t.key = u.key ∧ t.supers.map Ty.key = u.supers.map Ty.key ∧
      d.ownLayout t = d.ownLayout u ∧ t.isCollection = u.isCollection ∧
      (t.isCollection = false → t.elementKey? = u.elementKey?) ∧
      (d.ReadAlike t u ↔ t.elementKey? = u.elementKey?)) ∧
    (∀ id id' name e e',
      d.structurallyEqual (.collection id name e) (.collection id' name e') = true ↔
        d.ownLayout (.collection id name e) = d.ownLayout (.collection id' name e')) ∧
    (∀ (m : RuleModule) t known m', m.addType d t = .ok (known, m') →
      d.structurallyEqual known t = true) ∧
    ∀ own dependency (i : Imports) t, (i.addType d own dependency t).errors = i.errors →
      ∃ known, (Assoc.get? own t.key <|> Assoc.get? (i.addType d own dependency t).types t.key) =
        some known ∧ d.structurallyEqual known t = true := by
  refine ⟨d.structurallyEqual_equivalence, fun t u h => ?_,
    fun id id' name e e' => structurallyEqual_collection_iff,
    fun m t known m' => RuleModule.addType_structurallyEqual,
    fun own dependency i t => Imports.addType_structurallyEqual⟩
  obtain ⟨hkey, htag, hsupers, hlayout⟩ := Declarations.structurallyEqual_iff.1 h
  have hcollection := Ty.isCollection_eq htag
  exact ⟨hkey, hsupers, hlayout, hcollection,
    fun ht => Ty.elementKey?_eq hkey ht (hcollection ▸ ht), Declarations.readAlike_iff h⟩

namespace Bags

def numbers : Ty := .collection 0 ⟨"rules", "Bag"⟩ .int

def words : Ty := .collection 1 ⟨"rules", "Bag"⟩ .string

def owner : RuleModule := .empty "Rules" "rules" 0

theorem structurallyEqual_bags : Declarations.empty.structurallyEqual numbers words = true :=
  structurallyEqual_collection_iff.2 rfl

end Bags

open Bags in
/-- A bag of strings is taken for the bag of integers that was added before it, whose elements are
integers. -/
theorem bags_of_one_name_merge :
    Declarations.empty.structurallyEqual numbers words = true ∧
    numbers.elementKey? = some Ty.int.key ∧ words.elementKey? = some Ty.string.key ∧
    (∃ m, owner.addType .empty numbers = .ok (numbers, m) ∧
      m.addType .empty words = .ok (numbers, m)) ∧
    (∀ σ s, (elementOf numbers).keyed σ s = (.ok Ty.int.key, s)) ∧
    (∀ σ s, (elementOf words).keyed σ s = (.ok Ty.string.key, s)) ∧
    Ty.int.key ≠ Ty.string.key := by
  refine ⟨structurallyEqual_bags, rfl, rfl, ⟨{ owner with types := [(numbers.key, numbers)] }, rfl,
    ?_⟩, fun σ s => elementOf_keyed rfl, fun σ s => elementOf_keyed rfl, by decide⟩
  have hknown : Assoc.get? [(numbers.key, numbers)] words.key = some numbers := rfl
  rw [RuleModule.addType, hknown]
  exact if_pos structurallyEqual_bags

end RuleExpr
