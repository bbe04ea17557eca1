import RuleExpr.Proofs.BuiltModules
import RuleExpr.Proofs.OwnMethods
import RuleExpr.Proofs.Soundness.Assignable
import RuleExpr.Proofs.TypeConflicts
import Mathlib.Data.List.Nodup

/-!
# Methods That Read Fields

A field comes with a method that reads it.  The two are not in step in two ways, and the main
statements say that there are no others.

The method is added without a look at the methods that are there, and its name is that of the field
with a capital.  So it can have the key of an earlier method, or two fields can lead to one name,
and a call of it is ambiguous.  This is the only way in which two own methods get one key: adding a
method and binding one refuse a key that is taken.

A field that has no constant reads as null, while its method answers with the value of an unwritten
variable.  The two differ for primitive types, for which null is no value.
-/

namespace RuleExpr

open BindM BindState

/-- What is declared in a module. -/
inductive Declaration where
  | method (method : Method)
  | field (id : Nat) (field : Field)
  | definition (name : String) (params : List (String × Ty)) (returns : Option Ty)
    (body : SyntaxNode) (config : Config)
  | datatype (name : String) (supers : List Ty) (fields : List (String × Ty))

/-- An operation that is refused leaves the module as it is. -/
def RuleModule.unlessRefused (m : RuleModule) : Except ModuleError RuleModule → RuleModule
  | .ok changed => changed
  | .error _ => m

namespace Declaration

def apply (s : ModuleState) : Declaration → ModuleState
  | method f => { s with owner := s.owner.unlessRefused (s.owner.addMethod f) }
  | field id f => { s with owner := s.owner.unlessRefused (s.owner.addField id f) }
  | definition name params returns body config =>
    let (_, m, w) := bindMethod s.owner s.workspace name params returns body config
    ⟨m, w⟩
  | datatype name supers fields =>
    let (result, w) := s.owner.declareDatatype s.workspace name supers fields
    ⟨s.owner.orAfter result, w⟩

/-- A field is added although the key of the method that reads it is taken. -/
def Clashes (s : ModuleState) : Declaration → Prop
  | field _ f => Assoc.contains s.owner.fields f.name = false ∧
    ∃ g ∈ s.owner.methods, g.key = ⟨RuleModule.accessorName f.name, []⟩
  | _ => False

end Declaration

namespace ModuleState

/-- The declarations one after the other. -/
def declareAll (s : ModuleState) (declarations : List Declaration) : ModuleState :=
  declarations.foldl Declaration.apply s

/-- One of the declarations clashes with what was declared before it. -/
def AccessorClash (s : ModuleState) : List Declaration → Prop
  | [] => False
  | declaration :: rest => declaration.Clashes s ∨ (declaration.apply s).AccessorClash rest

end ModuleState

/-- Types, dependencies and imports have nothing to do with the own methods. -/
theorem ModuleState.Step.methods_eq {edit : Edit} {s s' : ModuleState} (h : Step edit s s') :
    s'.owner.methods = s.owner.methods := by
  cases h <;> rfl

namespace RuleModule

/-- No two own methods have one key. -/
def KeysDistinct (m : RuleModule) : Prop := (m.methods.map Method.key).Nodup

variable {m m' : RuleModule} {f : Method}

theorem keysDistinct_congr (h : m'.methods = m.methods) : m'.KeysDistinct ↔ m.KeysDistinct := by
  rw [KeysDistinct, KeysDistinct, h]

theorem keysDistinct_concat (h : m'.methods = m.methods ++ [f]) :
    m'.KeysDistinct ↔ m.KeysDistinct ∧ ∀ g ∈ m.methods, g.key ≠ f.key := by
  rw [KeysDistinct, h, List.map_append, List.map_singleton, ← List.concat_eq_append,
    List.nodup_concat, and_comm]
  simp [KeysDistinct]

theorem keysDistinct_addMethod (hadd : m.addMethod f = .ok m') :
    m'.KeysDistinct ↔ m.KeysDistinct := by
  obtain ⟨hnew, rfl⟩ := addMethod_eq_ok.1 hadd
  rw [keysDistinct_concat rfl]
  exact and_iff_left hnew

theorem Remembers.methods_eq (h : m.Remembers m') : m'.methods = m.methods := by
  rcases h with rfl | ⟨-, rfl⟩ <;> rfl

theorem keysDistinct_bindMethod (m : RuleModule) (w : Workspace) (name : String)
    (params : List (String × Ty)) (returns : Option Ty) (body : SyntaxNode) (config : Config) :
    (bindMethod m w name params returns body config).2.1.KeysDistinct ↔ m.KeysDistinct := by
  obtain ⟨m₁, hm₁, hresult⟩ := bindMethod_cases m w name params returns body config
  have himports : (m.ensureImports w).1.methods = m.methods :=
    (ModuleState.step_ensureImports (rfl : Edit.ensureImports.keepsImports = true) m w).methods_eq
  have hsame : m₁.KeysDistinct ↔ m.KeysDistinct :=
    keysDistinct_congr (hm₁.methods_eq.trans himports)
  -- Only a method that is added could bring a key in, and it is refused if its key is taken.
  rcases hresult with hfailed | ⟨diagnostics, hrefused | ⟨f, hadded⟩⟩
  · rw [hfailed, hsame]
  · rw [hrefused, ← hsame]
    exact keysDistinct_congr rfl
  · rw [keysDistinct_addMethod hadded, ← hsame]
    exact keysDistinct_congr rfl

end RuleModule

/-- What one declaration does to the keys. -/
theorem Declaration.keysDistinct_apply (s : ModuleState) (declaration : Declaration) :
    (declaration.apply s).owner.KeysDistinct ↔
      s.owner.KeysDistinct ∧ ¬declaration.Clashes s := by
  cases declaration with
  | method f =>
    simp only [Clashes, not_false_eq_true, and_true]
    change (s.owner.unlessRefused (s.owner.addMethod f)).KeysDistinct ↔ _
    match hadd : s.owner.addMethod f with
    | .ok changed => exact RuleModule.keysDistinct_addMethod hadd
    | .error e => exact Iff.rfl
  | field id f =>
    change (s.owner.unlessRefused (s.owner.addField id f)).KeysDistinct ↔ _
    cases hcontains : Assoc.contains s.owner.fields f.name with
    | true =>
      -- A field of a known name is refused, and adds no accessor.
      have hrefused : s.owner.addField id f = .error (.duplicateField s.owner.name f.name) :=
        if_pos hcontains
      rw [hrefused, Clashes, hcontains]
      simp [RuleModule.unlessRefused]
    | false =>
      -- The accessor is added without a look at the methods that are there.
      rw [RuleModule.addField_eq_ok.2 ⟨hcontains, rfl⟩]
      rw [RuleModule.unlessRefused, RuleModule.keysDistinct_concat rfl, Clashes, hcontains]
      simp [RuleModule.accessor, Method.key, Method.head, MethodHead.key]
  | definition name params returns body config =>
    simp only [Clashes, not_false_eq_true, and_true]
    exact RuleModule.keysDistinct_bindMethod s.owner s.workspace name params returns body config
  | datatype name supers fields =>
    simp only [Clashes, not_false_eq_true, and_true]
    have hstep := ModuleState.step_declareDatatype
      (rfl : (Edit.declareDatatype name supers fields).keepsImports = true) s.owner s.workspace
      name supers fields
    exact RuleModule.keysDistinct_congr hstep.methods_eq

theorem ModuleState.keysDistinct_declareAll (s : ModuleState) (declarations : List Declaration) :
    (s.declareAll declarations).owner.KeysDistinct ↔
      s.owner.KeysDistinct ∧ ¬s.AccessorClash declarations := by
  induction declarations generalizing s with
  | nil => simp [declareAll, AccessorClash]
  | cons declaration rest ih =>
    calc ((declaration.apply s).declareAll rest).owner.KeysDistinct
        ↔ (declaration.apply s).owner.KeysDistinct ∧ ¬(declaration.apply s).AccessorClash rest :=
          ih (declaration.apply s)
      _ ↔ s.owner.KeysDistinct ∧ ¬s.AccessorClash (declaration :: rest) := by
          rw [declaration.keysDistinct_apply, AccessorClash, not_or, and_assoc]

namespace RuleModule

variable {m : RuleModule} {f : Method} {arguments : List Ty}

/-- A call that has exactly the parameters of an own method is a call of that method, as far as
the own methods are concerned. -/
def ExactCallsFound (m : RuleModule) : Prop :=
  ∀ f ∈ m.methods, ∀ arguments : List Ty, arguments.map Ty.key = f.params.map Ty.key →
    Overload.resolve Library.registry m.methods f.name arguments =
      .ok (.found (Overload.exactly arguments f))

theorem exactMatches_methods (hexact : arguments.map Ty.key = f.params.map Ty.key) :
    Overload.exactMatches m.methods f.name arguments = m.methods.filter (·.key = f.key) := by
  have hkey : (⟨f.name, arguments.map Ty.key⟩ : MethodKey) = f.key :=
    congrArg (MethodKey.mk f.name) hexact
  rw [Overload.exactMatches, hkey]

theorem KeysDistinct.declaresOnce (h : m.KeysDistinct) (hf : f ∈ m.methods) : m.DeclaresOnce f :=
  ⟨hf, List.count_eq_one_of_mem h (List.mem_map_of_mem hf)⟩

theorem KeysDistinct.exactCallsFound (h : m.KeysDistinct) : m.ExactCallsFound := by
  intro f hf arguments hexact
  have hmatches : Overload.exactMatches m.methods f.name arguments = [f] := by
    rw [exactMatches_methods hexact, (h.declaresOnce hf).filter_eq]
  exact Overload.resolve_exact Library.registry_separates hmatches

/-- Two own methods of one key are ambiguous. -/
theorem ExactCallsFound.keysDistinct (h : m.ExactCallsFound) : m.KeysDistinct := by
  rw [KeysDistinct, List.nodup_iff_count_le_one]
  intro key
  by_cases hkey : key ∈ m.methods.map Method.key
  · obtain ⟨f, hf, rfl⟩ := List.mem_map.1 hkey
    obtain ⟨first, rest, hcons⟩ : ∃ first rest, m.methods.filter (·.key = f.key) = first :: rest :=
      List.exists_cons_of_ne_nil (List.ne_nil_of_mem (List.mem_filter.2 ⟨hf, by simp⟩))
    -- The call with the parameters of `f` is found, so there is no second method of its key.
    have hfound := h f hf f.params rfl
    rw [Overload.resolve_exact Library.registry_separates
      ((exactMatches_methods rfl).trans hcons)] at hfound
    cases rest with
    | nil =>
      rw [List.count, List.countP_map, List.countP_eq_length_filter]
      exact Nat.le_of_eq (congrArg List.length hcons)
    | cons second others => cases hfound
  · rw [List.count_eq_zero_of_not_mem hkey]
    exact Nat.zero_le 1

end RuleModule

/-- Whatever is declared in a new module, by declarations that succeed or fail, its own methods
have different keys exactly if no field came after a method with the key of the method that reads
it; and only then is every call with exactly the parameters of an own method clear. -/
theorem keysDistinct_iff_no_clash (name ns : String) (space : Nat) (w : Workspace)
    (declarations : List Declaration) :
    let start := ModuleState.new name ns space w
    let m := (start.declareAll declarations).owner
    (m.KeysDistinct ↔ ¬start.AccessorClash declarations) ∧
    (m.ExactCallsFound ↔ ¬start.AccessorClash declarations) := by
  intro start m
  have hstart : start.owner.KeysDistinct := List.nodup_nil
  have hkeys : m.KeysDistinct ↔ ¬start.AccessorClash declarations := by
    rw [ModuleState.keysDistinct_declareAll]
    exact and_iff_right hstart
  have hcalls : m.ExactCallsFound ↔ m.KeysDistinct :=
    ⟨RuleModule.ExactCallsFound.keysDistinct, RuleModule.KeysDistinct.exactCallsFound⟩
  exact ⟨hkeys, hcalls.trans hkeys⟩

/-- The fields `a` and `A` are both read by `getA`, and so by neither. -/
theorem fields_share_accessor :
    let m := ((ModuleState.new "Rules" "rules" 0 .empty).declareAll
      [.field 1 (.plain "a" .int "Rules"), .field 2 (.plain "A" .int "Rules")]).owner
    m.methods.map Method.key = [⟨"getA", []⟩, ⟨"getA", []⟩] ∧ ¬m.KeysDistinct ∧
    Overload.resolve Library.registry m.methods "getA" [] = .ok (.ambiguous m.methods) := by
  intro m
  have hkeys : m.methods.map Method.key = [⟨"getA", []⟩, ⟨"getA", []⟩] := by decide +kernel
  refine ⟨hkeys, ?_, rfl⟩
  rw [RuleModule.KeysDistinct, hkeys]
  decide

theorem Ty.defaultValue_eq_null_iff (t : Ty) : t.defaultValue = .null ↔ t.isPrimitive = false := by
  cases t with
  | primitive p => cases p <;> simp [Ty.defaultValue, Ty.isPrimitive, Ty.primitive?]
  | _ => exact iff_of_true rfl rfl

namespace Field

/-- What the field reads as where it is named. -/
def read (field : Field) : Value := field.constant.getD .null

/-- What the method that reads the field answers with. -/
def answer (field : Field) : Value := field.constant.getD field.ty.defaultValue

/-- The field has a constant, or null is a value of its type. -/
def ReadsDefinite (field : Field) : Prop :=
  field.constant.isSome = true ∨ field.ty.isPrimitive = false

variable {field : Field} {d : Declarations}

theorem read_eq_answer_iff (field : Field) : field.read = field.answer ↔ field.ReadsDefinite := by
  unfold read answer ReadsDefinite
  cases field.constant with
  | some value => simp
  | none =>
    rw [Option.getD_none, Option.getD_none, eq_comm, Ty.defaultValue_eq_null_iff]
    simp

theorem assignable_answer (h : ∀ value, field.constant = some value → Assignable d value field.ty) :
    Assignable d field.answer field.ty := by
  unfold answer
  cases hconstant : field.constant with
  | some value => exact h value hconstant
  | none => exact .defaultValue d field.ty

theorem assignable_read_iff
    (h : ∀ value, field.constant = some value → Assignable d value field.ty) :
    Assignable d field.read field.ty ↔ field.ReadsDefinite := by
  constructor
  · intro hread
    cases hconstant : field.constant with
    | some value => exact .inl (by rw [hconstant, Option.isSome_some])
    | none =>
      -- The null that is read is no value of a primitive type.
      refine .inr (Bool.eq_false_iff.2 fun hprimitive => ?_)
      rw [read, hconstant] at hread
      cases hread.isNull_eq_false_of_isPrimitive hprimitive
  · intro hdefinite
    rw [field.read_eq_answer_iff.2 hdefinite]
    exact assignable_answer h

end Field

/-! ## Fields of built modules -/

namespace RuleModule

/-- A field is filed under its name, and there is a method that reads it. -/
def HasAccessors (m : RuleModule) : Prop :=
  ∀ name field, (name, field) ∈ m.fields →
    field.name = name ∧ ∃ id, m.accessor id field ∈ m.methods

variable {m m' : RuleModule}

theorem HasAccessors.of_subset (h : m.HasAccessors) (hname : m'.name = m.name)
    (hfields : m'.fields = m.fields) (hmethods : m.methods ⊆ m'.methods) : m'.HasAccessors := by
  intro name field hmem
  rw [hfields] at hmem
  obtain ⟨hfield, id, haccessor⟩ := h name field hmem
  have hsame : m'.accessor id field = m.accessor id field := by
    rw [accessor, accessor, hname]
  exact ⟨hfield, id, hsame ▸ hmethods haccessor⟩

theorem HasAccessors.addField {id : Nat} {field : Field} (h : m.HasAccessors)
    (hadd : m.addField id field = .ok m') : m'.HasAccessors := by
  obtain ⟨-, rfl⟩ := addField_eq_ok.1 hadd
  intro name other hmem
  rcases List.mem_append.1 hmem with hold | hnew
  · obtain ⟨hname, id', haccessor⟩ := h name other hold
    exact ⟨hname, id', List.mem_append_left _ haccessor⟩
  · obtain ⟨rfl, rfl⟩ := Prod.mk.inj (List.mem_singleton.1 hnew)
    exact ⟨rfl, id, List.mem_append_right _ (List.mem_singleton_self _)⟩

theorem HasAccessors.remembers (h : m.HasAccessors) (hm' : m.Remembers m') : m'.HasAccessors := by
  rcases hm' with rfl | ⟨-, rfl⟩
  · exact h
  · exact h.of_subset rfl rfl (List.Subset.refl _)

theorem Built.hasAccessors (h : m.Built) : m.HasAccessors := by
  induction h with
  | new name ns space => exact fun _ _ hmem => nomatch hmem
  | addType _ hadd ih =>
    rcases addType_eq_ok hadd with rfl | rfl
    · exact ih
    · exact ih.of_subset rfl rfl (List.Subset.refl _)
  | addMethod _ hadd ih =>
    obtain ⟨-, rfl⟩ := addMethod_eq_ok.1 hadd
    exact ih.of_subset rfl rfl (List.subset_append_left _ _)
  | addField _ hadd ih => exact ih.addField hadd
  | @getField m _ name ih => exact ih.remembers (m.getField_snd name)
  | @allFields m _ ih => exact ih.remembers m.allFields_snd
  | addDependency _ _ _ _ ih => exact ih.of_subset rfl rfl (List.Subset.refl _)
  | setFilter _ _ ih | importDependencies _ _ ih | report _ _ ih =>
    exact ih.of_subset rfl rfl (List.Subset.refl _)

end RuleModule

/-- A name that stands for an own field where it is bound: neither a local variable nor a field of
a receiver comes first. -/
structure NamesOwnField (σ : BindSettings) (s : BindState) (node : SyntaxNode) (field : Field) :
    Prop where
  kind : node.kind = .identifier
  own : Assoc.get? s.owner.fields node.text = some field
  nesting : s.depth < σ.config.maxBindDepth
  noVariable : s.findVar LocalVar.localNs node.text σ.config.strictVariableLookup = none
  noReceiver : s.findReceiverField node.text = none

section OwnField

variable {σ : BindSettings} {s : BindState} {node : SyntaxNode} {field : Field}

/-- An own field is found without a look at the dependencies. -/
theorem getField_own {name : String} (h : Assoc.get? s.owner.fields name = some field) :
    getField name σ s = (.ok (some field), s) := by
  have hown : s.owner.getField name = (some field, s.owner) := by
    rw [RuleModule.getField, h]
  rw [getField, run_bind_of_ok (get_eq_ok.2 ⟨rfl, rfl⟩), hown]
  rfl

theorem bindIdentifier_own
    (hvariable : s.findVar LocalVar.localNs node.text σ.config.strictVariableLookup = none)
    (hreceiver : s.findReceiverField node.text = none)
    (hfield : Assoc.get? s.owner.fields node.text = some field) :
    bindIdentifier node σ s = (.ok ⟨.moduleField field, field.ty, node.span⟩, s) := by
  have hlookup : lookupVar node.text σ s = (.ok none, s) :=
    congrArg (fun var? => (Except.ok var?, s)) hvariable
  rw [bindIdentifier, run_bind_of_ok hlookup]
  dsimp only
  rw [run_bind_of_ok (get_eq_ok.2 ⟨rfl, rfl⟩), hreceiver]
  exact run_bind_of_ok (getField_own hfield)

theorem NamesOwnField.bind_eq (h : NamesOwnField σ s node field) :
    bind node σ s = (.ok ⟨.moduleField field, field.ty, node.span⟩, s) := by
  have hname : bindKind node (childrenOf node.children) σ { s with depth := s.depth + 1 } =
      (.ok ⟨.moduleField field, field.ty, node.span⟩, { s with depth := s.depth + 1 }) := by
    rw [bindKind, h.kind]
    exact bindIdentifier_own h.noVariable h.noReceiver h.own
  obtain ⟨kind, text?, children, span⟩ := node
  rw [bind]
  exact nested_of_lt h.nesting hname

end OwnField

/-- In every module that can be built and every context in which a name stands for an own field,
the name and the method that reads the field give the same value exactly if the field has a
constant or null is a value of its type.  The method always answers with a value of the type,
provided that a constant is one; the name reads as one under the same condition only. -/
theorem read_eq_accessor_iff {σ : BindSettings} {s : BindState} {node : SyntaxNode} {field : Field}
    (hbuilt : s.owner.Built) (hnode : NamesOwnField σ s node field) :
    let n : BoundNode := ⟨.moduleField field, field.ty, node.span⟩
    bind node σ s = (.ok n, s) ∧ field.name = node.text ∧
    ∃ id, s.owner.accessor id field ∈ s.owner.methods ∧
      (∀ frames : Frames, n.eval frames = (.ok field.read, frames)) ∧
      (∀ receiver arguments (frames : Frames),
        (s.owner.accessor id field).invoke receiver arguments frames =
          (.ok field.answer, frames)) ∧
      (field.read = field.answer ↔ field.ReadsDefinite) ∧
      ∀ d, (∀ value, field.constant = some value → Assignable d value field.ty) →
        Assignable d field.answer field.ty ∧
        (Assignable d field.read field.ty ↔ field.ReadsDefinite) := by
  intro n
  obtain ⟨hname, id, haccessor⟩ := hbuilt.hasAccessors _ _ (Assoc.mem_of_get? hnode.own)
  refine ⟨hnode.bind_eq, hname, id, haccessor, ?_, ?_, field.read_eq_answer_iff, ?_⟩
  · intro frames
    rw [BoundNode.eval, BoundShape.eval]
    rfl
  · intro receiver arguments frames
    rw [RuleModule.accessor, Method.invoke]
    rfl
  · exact fun d hconstant =>
      ⟨Field.assignable_answer hconstant, Field.assignable_read_iff hconstant⟩

namespace Limit

def fixed : Field := .ofConstant "limit" .int "Rules" (.int 5)

def plain : Field := .plain "limit" .int "Rules"

/-- A module with one field. -/
def owner (field : Field) : RuleModule :=
  { RuleModule.empty "Rules" "rules" 0 with
    methods := [(RuleModule.empty "Rules" "rules" 0).accessor 1 field]
    fields := [(field.name, field)] }

def name : SyntaxNode := .leaf .identifier "limit" .nowhere

theorem built_owner (field : Field) : (owner field).Built := by
  have hadd : (RuleModule.empty "Rules" "rules" 0).addField 1 field = .ok (owner field) := rfl
  exact (RuleModule.Built.new "Rules" "rules" 0).addField hadd

theorem namesOwnField_fixed :
    NamesOwnField (.standard .standard) (start (owner fixed) .empty) name fixed where
  kind := rfl
  own := rfl
  nesting := by decide
  noVariable := rfl
  noReceiver := rfl

end Limit

/-- The constant is read by its name and by its method. -/
theorem read_eq_accessor_iff_limit :
    let s := start (Limit.owner Limit.fixed) .empty
    s.owner.Built ∧ NamesOwnField (.standard .standard) s Limit.name Limit.fixed ∧
    ∃ n, bind Limit.name (.standard .standard) s = (.ok n, s) ∧
      ∃ f ∈ s.owner.methods, ∀ frames : Frames, n.eval frames = (.ok (.int 5), frames) ∧
        f.invoke none [] frames = (.ok (.int 5), frames) := by
  intro s
  have hbuilt : s.owner.Built := (Limit.built_owner Limit.fixed).ensureImports .empty
  obtain ⟨hbind, -, id, haccessor, hread, hanswer, -⟩ :=
    read_eq_accessor_iff hbuilt Limit.namesOwnField_fixed
  exact ⟨hbuilt, Limit.namesOwnField_fixed, _, hbind, _, haccessor,
    fun frames => ⟨hread frames, hanswer none [] frames⟩⟩

/-- Without the constant the name reads as null, which is no number, and the method answers with
zero. -/
theorem limit_reads_null :
    (RuleModule.empty "Rules" "rules" 0).addField 1 Limit.plain = .ok (Limit.owner Limit.plain) ∧
    (∃ e, (bindExpression Limit.name (Limit.owner Limit.plain) .empty .standard).1 = .ok e ∧
      e.root.ty = .int ∧ e.evaluate = .ok .null) ∧
    (∃ f ∈ (Limit.owner Limit.plain).methods, f.name = "getLimit" ∧
      ∀ frames : Frames, f.invoke none [] frames = (.ok (.int 0), frames)) ∧
    ∀ d, ¬Assignable d .null .int := by
  refine ⟨rfl, ⟨_, rfl, rfl, rfl⟩, ⟨_, List.mem_singleton_self _, by decide +kernel, ?_⟩, ?_⟩
  · intro frames
    rfl
  · intro d h
    cases h.isNull_eq_false_of_isPrimitive rfl

end RuleExpr
