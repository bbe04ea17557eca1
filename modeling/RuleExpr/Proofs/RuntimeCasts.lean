import RuleExpr.Proofs.Cast.Written
import RuleExpr.Proofs.Soundness.Instances
import RuleExpr.Proofs.Soundness.Modules

/-!
# Casts at Run Time

Most kinds of casts do not look at their value: they rest on which types they were found between.
For casts that binding inserts by itself this is enough.  An instance of the source comes out as an
instance of the target, or the conversion of a number fails.  It takes types that are told apart by
their keys, and classes that do not extend a type whose values have a form of their own.

Of the casts that are written, those that narrow a number convert it, and those that go down a
hierarchy hand on whatever they are given.
-/

namespace RuleExpr

variable {O : Ty → Prop} {classOf : String → Option Ty} {v : Value} {a b t : Ty} {c : Cast}

/-- Null is refused where the target is primitive; all else is up to the kind of the cast. -/
theorem Cast.apply_cases (c : Cast) (v : Value) (frames : Frames) :
    v.isNull ∧ c.target.isPrimitive ∧
        (c.apply v frames).1 = .error (.nullValue c.target.name) ∨
      (v.isNull → c.target.isPrimitive = false) ∧
        (c.apply v frames).1 = (c.kind.apply v frames).1 := by
  obtain ⟨source, target, kind, implicit, distance⟩ := c
  rw [Cast.apply]
  split
  case isTrue hnull =>
    rw [Bool.and_eq_true] at hnull
    exact .inl ⟨hnull.1, hnull.2, rfl⟩
  case isFalse hnull =>
    refine .inr ⟨fun hv => ?_, rfl⟩
    simpa [hv] using hnull

/-- An instance of the type, or the failure to convert to it. -/
def YieldsInstance (classOf : String → Option Ty) (t : Ty) (answer : Except EvalError Value) :
    Prop :=
  (∃ w, answer = .ok w ∧ InstanceOf classOf w t) ∨
    ∃ value kind, answer = .error (.invalidConversion value kind)

theorem convert_yields {kind : NumericKind} (ht : t.holds kind)
    (hnull : v.isNull → t.isPrimitive = false) : YieldsInstance classOf t (v.convert kind) := by
  rcases v.convert_cases kind with ⟨hv, h⟩ | ⟨-, ⟨converted, h, hkind⟩ | h⟩
  · exact .inl ⟨.null, h, .null (hnull hv)⟩
  · exact .inl ⟨converted, h, .number hkind ht⟩
  · exact .inr ⟨_, _, h⟩

/-- A cast of the library converts to a kind of numbers that its target holds. -/
theorem CastLibrary.Calls.converts {entry : Conversion} (hO : Ty.Keyed O) (hb : O b)
    (h : Library.casts.Calls a b c entry) :
    ∃ kind, b.holds kind ∧ ∀ v (frames : Frames), (c.kind.apply v frames).1 = v.convert kind := by
  obtain ⟨kind, hholds, ⟨key, hbuiltin⟩, hconvert⟩ := Library.casts_convertsTo h.mem
  obtain rfl := hO.eq_of_key (hO.builtin hbuiltin) hb h.target_key
  refine ⟨kind, hholds, fun v frames => ?_⟩
  rw [h.kind_eq, CastKind.apply, hconvert]
  rfl

/-- The target of a cast is the type that was asked for. -/
theorem Ty.Keyed.cast_target (hO : Ty.Keyed O) (ha : O a) (hb : O b)
    (h : Library.registry.cast a b = .ok (some c)) : c.target = b :=
  hO.eq_of_key ((Library.registry_keeps hO.toClosed).cast ha hb h) hb (Registry.cast_endpoints h).2

theorem Ty.Keyed.implicitCast_target (hO : Ty.Keyed O) (ha : O a) (hb : O b)
    (h : Library.registry.implicitCast a b = .ok (some c)) : c.target = b := by
  rcases Registry.implicitCast_eq_some h with ⟨hkey, rfl⟩ | hcast
  · exact hO.eq_of_key ha hb hkey
  · exact hO.cast_target ha hb hcast

theorem Library.registry_cast_cases (h : Library.registry.cast a b = .ok (some c)) :
    structuralCast a b = some c ∨ ∃ entry, Library.casts.Calls a b c entry := by
  obtain ⟨provider, hmem, hcast⟩ := Registry.firstCast_provider h
  rcases List.mem_cons.1 hmem with rfl | hmem
  · exact .inl (Except.ok.inj hcast)
  · rw [List.mem_singleton.1 hmem] at hcast
    exact .inr (CastLibrary.cast_calls hcast)

theorem Library.registry_cast_marked (h : Library.registry.cast a b = .ok (some c)) :
    IsStructural a b c ∧ c.Marked ∨ ∃ entry, Library.casts.Calls a b c entry :=
  (registry_cast_cases h).imp_left fun hcast =>
    ⟨structuralCast_structural hcast, structuralCast_marked hcast⟩

theorem Library.registry_cast_of_structural (h : structuralCast a b = some c) :
    Library.registry.cast a b = .ok (some c) := by
  have hprovider : Provider.structural.cast a b = .ok (some c) := congrArg Except.ok h
  rw [Registry.cast, registry, Registry.firstCast, hprovider]
  exact if_pos (structuralCast_structural h).endpoints

theorem Library.registry_implicitCast_of_structural (hkey : a.key ≠ b.key)
    (h : structuralCast a b = some c) (himplicit : c.implicit = true) :
    Library.registry.implicitCast a b = .ok (some c) := by
  rw [Registry.implicitCast, if_neg hkey, registry_cast_of_structural h]
  exact congrArg Except.ok (Option.filter_eq_some_iff.2 ⟨rfl, himplicit⟩)

theorem Registry.implicit_of_implicitCast {r : Registry}
    (h : r.implicitCast a b = .ok (some c)) : c.implicit = true := by
  by_cases hkey : a.key = b.key
  · rw [implicitCast, if_pos hkey] at h
    cases h
    rfl
  · exact (cast_of_implicitCast hkey h).2

section Inserted

variable (hO : Ty.Nominal O) (hclasses : ClassesIn classOf O) (ha : O a) (hb : O b)

include hO hclasses ha hb

/-- Casts up, and of null, hand on instances of the target. -/
theorem StructuralKind.instanceOf {kind : CastKind} (h : StructuralKind a b kind)
    (hkind : kind = .upcast ∨ kind = .nullToReference) (hv : InstanceOf classOf v a) :
    InstanceOf classOf v b := by
  induction h generalizing v with
  | null hreference =>
    rw [hv.eq_null hO hclasses]
    exact .null (Ty.isPrimitive_of_isReference hreference)
  | object => exact .root
  | up hancestor => exact hv.of_ancestor hO hclasses ha hb hancestor
  | array _ _ _ hinner ih =>
    rcases hv.null_or_array hO hclasses ha with rfl | ⟨elements, rfl, helements⟩
    · exact .null rfl
    · apply InstanceOf.array rfl
      intro e he
      exact ih (hO.component ha rfl) (hO.component hb rfl) hinner (helements e he)
  | _ => simp at hkind

/-- What a structural cast makes of an instance of its source, unless it goes down. -/
theorem StructuralKind.yields {kind : CastKind} (h : StructuralKind a b kind)
    (hkind : kind ≠ .downcast) (hv : InstanceOf classOf v a)
    (hnull : v.isNull → b.isPrimitive = false) (frames : Frames) :
    YieldsInstance classOf b (kind.apply v frames).1 := by
  have hhanded {w : Value} (hw : InstanceOf classOf w b) : YieldsInstance classOf b (.ok w) :=
    .inl ⟨w, rfl, hw⟩
  cases h with
  | identity hkey =>
    obtain rfl := hO.eq_of_key ha hb hkey
    rw [CastKind.apply]
    exact hhanded hv
  | null hreference =>
    rw [CastKind.apply]
    exact hhanded (StructuralKind.instanceOf hO hclasses ha hb (.null hreference) (.inr rfl) hv)
  | boxObject | object =>
    rw [CastKind.apply]
    exact hhanded .root
  | box p =>
    rw [CastKind.apply]
    exact hhanded (hv.box hO hclasses)
  | unbox p =>
    -- Null does not come this far, as the target is primitive.
    have hpresent : v.isNull = false := by
      rw [Bool.eq_false_iff]
      intro hnone
      cases hnull hnone
    rw [CastKind.apply]
    exact hhanded (hv.unbox hO hclasses hpresent)
  | widen _ hwanted | narrow _ hwanted =>
    rw [CastKind.apply]
    exact convert_yields (Ty.holds_of_numericKind? hwanted) hnull
  | boxAncestor hancestor =>
    rw [CastKind.apply]
    exact hhanded ((hv.box hO hclasses).of_ancestor hO hclasses (hO.builtin rfl) hb hancestor)
  | unboxUnchecked hp =>
    rw [CastKind.apply]
    exact convert_yields (Ty.holds_of_numericKind? hp) hnull
  | up hancestor =>
    rw [CastKind.apply]
    exact hhanded (hv.of_ancestor hO hclasses ha hb hancestor)
  | down => exact absurd rfl hkind
  | array ha' hb' h hkind' =>
    rw [CastKind.apply]
    exact hhanded
      (StructuralKind.instanceOf hO hclasses ha hb (.array ha' hb' h hkind') (.inl rfl) hv)

/-- An inserted cast gives an instance of its target for every instance of its source. -/
theorem implicitCast_yields (h : Library.registry.implicitCast a b = .ok (some c))
    (hv : InstanceOf classOf v a) (hnull : v.isNull → b.isPrimitive = false) (frames : Frames) :
    YieldsInstance classOf b (c.kind.apply v frames).1 := by
  rcases Registry.implicitCast_eq_some h with ⟨hkey, rfl⟩ | hcast
  · exact StructuralKind.yields hO hclasses ha hb (.identity hkey) nofun hv hnull frames
  · rcases Library.registry_cast_marked hcast with ⟨hstructural, hmarked⟩ | ⟨entry, hcalls⟩
    · apply StructuralKind.yields hO hclasses ha hb hstructural.kind ?_ hv hnull frames
      intro hdown
      have himplicit := Registry.implicit_of_implicitCast h
      rw [hmarked.implicit_eq, hdown] at himplicit
      cases himplicit
    · obtain ⟨kind, hholds, hconvert⟩ := hcalls.converts hO.toKeyed hb
      rw [hconvert]
      exact convert_yields hholds hnull

end Inserted

/-- Declared types convert along inheritance only. -/
theorem structuralCast_declared (hkey : a.key ≠ b.key) (ha : a.isDeclared) (hb : b.isDeclared) :
    structuralCast a b = referenceCast a b := by
  cases a with
  | record | interface =>
    cases b with
    | record | interface =>
      rw [structuralCast, if_neg hkey]
      · rfl
      · nofun
    | _ => cases hb
  | _ => cases ha

/-- Casts up are lifted to arrays at the same cost. -/
theorem structuralCast_array_of_up {distance : Nat}
    (hkey : (Ty.array a).key ≠ (Ty.array b).key) (ha : a.isPrimitive = false)
    (hb : b.isPrimitive = false)
    (h : structuralCast a b = some (.ofImplicit a b .upcast distance)) :
    structuralCast (.array a) (.array b) =
      some (.ofImplicit (.array a) (.array b) .upcast distance) := by
  rw [structuralCast, if_neg hkey]
  simp only [ha, hb, h]
  rfl

/-- Types over given classes are nominal if the classes extend each other and the types that may be
extended. -/
theorem Ty.over_nominal {own : List Ty}
    (hown : ∀ t ∈ own, t.isDeclared ∧ ∀ u ∈ t.supers, Over own u ∧ u.isExtendable)
    (hkeys : ((builtins ++ own).map key).Nodup) : Nominal (Over own) where
  toClosed := over_closed fun t ht => ⟨(hown t ht).1, fun u hu => ((hown t ht).2 u hu).1⟩
  eq_of_key := Over.eq_of_key hkeys
  extendable := by
    intro t u ht hu
    rcases isDeclared_or_number_of_super hu with hdeclared | rfl
    · have hmem : t ∈ own := by
        cases t with
        | record | interface => exact ht.mem_own rfl nofun
        | _ => cases hdeclared
      exact ((hown t hmem).2 u hu).2
    · rfl

namespace Purse

def asset : Ty := .interface 0 ⟨"rules", "Asset"⟩ []

def money : Ty := .record 1 ⟨"rules", "Money"⟩ [asset]

def coin : Ty := .record 2 ⟨"rules", "Coin"⟩ [money]

def types : List Ty := [asset, money, coin]

/-- The class of an object by its name. -/
def classNamed (typeName : String) : Option Ty :=
  if typeName = "Coin" then some coin else if typeName = "Money" then some money else none

theorem over_types {t : Ty} (h : t ∈ types) (harray : t.isArray = false) : Ty.Over types t :=
  Ty.over_of_mem (List.mem_append_right _ h) harray

theorem nominal : Ty.Nominal (Ty.Over types) := by
  have hasset : Ty.Over types asset := over_types (by simp [types]) rfl
  have hmoney : Ty.Over types money := over_types (by simp [types]) rfl
  refine Ty.over_nominal ?_ (by decide +kernel)
  refine List.forall_mem_cons.2 ⟨⟨rfl, List.forall_mem_nil _⟩, List.forall_mem_cons.2 ⟨?_, ?_⟩⟩
  · exact ⟨rfl, List.forall_mem_singleton.2 ⟨hasset, rfl⟩⟩
  · exact List.forall_mem_singleton.2 ⟨rfl, List.forall_mem_singleton.2 ⟨hmoney, rfl⟩⟩

theorem classesIn : ClassesIn classNamed (Ty.Over types) := by
  intro typeName c h
  unfold classNamed at h
  split at h
  · cases h
    exact over_types (by simp [types]) rfl
  · split at h <;> cases h
    exact over_types (by simp [types]) rfl

theorem structuralCast_money :
    structuralCast money asset = some (.ofImplicit money asset .upcast 2) := by
  have hlevels : money.ancestorDistance asset = some 1 := by decide +kernel
  rw [structuralCast_declared (by decide) rfl rfl, referenceCast, hlevels]
  rfl

theorem structuralCast_coin :
    structuralCast coin asset = some (.ofImplicit coin asset .upcast 4) := by
  have hlevels : coin.ancestorDistance asset = some 2 := by decide +kernel
  rw [structuralCast_declared (by decide) rfl rfl, referenceCast, hlevels]
  rfl

theorem structuralCast_asset :
    structuralCast asset coin = some (.ofExplicit asset coin .downcast 4) := by
  have hnot : asset.ancestorDistance coin = none := by decide +kernel
  have hlevels : coin.ancestorDistance asset = some 2 := by decide +kernel
  rw [structuralCast_declared (by decide) rfl rfl, referenceCast, hnot, hlevels]
  rfl

theorem not_instanceOf_coin : ¬InstanceOf classNamed (.object "Money" []) coin := by
  intro h
  rcases h.isA_of_object rfl with hobject | hisA
  · cases hobject
  · have hnot : ¬money.IsA coin := by decide +kernel
    exact hnot hisA

end Purse

/-- Casts that are inserted are sound at run time.  An instance of the source comes out as an
instance of the target, or its conversion fails; null is refused just where the target is
primitive. -/
theorem implicit_casts_keep_instances (hO : Ty.Nominal O) (hclasses : ClassesIn classOf O)
    (ha : O a) (hb : O b) (h : Library.registry.implicitCast a b = .ok (some c))
    (hv : InstanceOf classOf v a) (frames : Frames) :
    let answer := (c.apply v frames).1
    ((∃ w, answer = .ok w ∧ InstanceOf classOf w b) ∨
      (∃ target, answer = .error (.nullValue target)) ∨
      ∃ value kind, answer = .error (.invalidConversion value kind)) ∧
    ((∃ target, answer = .error (.nullValue target)) ↔ v.isNull ∧ b.isPrimitive) := by
  intro answer
  have htarget : c.target = b := hO.implicitCast_target ha hb h
  rcases c.apply_cases v frames with ⟨hv', hprimitive, hanswer⟩ | ⟨hnull, hanswer⟩
  · rw [htarget] at hprimitive
    exact ⟨.inr (.inl ⟨_, hanswer⟩), fun _ => ⟨hv', hprimitive⟩, fun _ => ⟨_, hanswer⟩⟩
  · rw [htarget] at hnull
    have hyields := implicitCast_yields hO hclasses ha hb h hv hnull frames
    rw [← hanswer] at hyields
    refine ⟨hyields.imp_right .inr, fun ⟨target, hrefused⟩ => ?_, fun ⟨hv', hprimitive⟩ => ?_⟩
    · rcases hyields with ⟨w, hw, -⟩ | ⟨value, kind, hfails⟩
      · cases hrefused.symm.trans hw
      · cases hrefused.symm.trans hfails
    · rw [hnull hv'] at hprimitive
      cases hprimitive

/-- A purse of coins, one drawer being empty and one missing, is cast to an array of arrays of
assets; a missing number is refused as an `int`. -/
theorem implicit_casts_keep_purse :
    let drawers := Ty.array (.array Purse.coin)
    let assets := Ty.array (.array Purse.asset)
    let purse := Value.array [.array [.object "Coin" [], .null], .array [], .null]
    Ty.Nominal (Ty.Over Purse.types) ∧ ClassesIn Purse.classNamed (Ty.Over Purse.types) ∧
      Library.registry.implicitCast drawers assets =
        .ok (some (.ofImplicit drawers assets .upcast 4)) ∧
      InstanceOf Purse.classNamed purse drawers ∧ InstanceOf Purse.classNamed purse assets ∧
      Library.registry.implicitCast (.boxed .int) .int =
        .ok (some (.ofImplicit (.boxed .int) .int .unboxing Distance.unboxing)) ∧
      ∃ target, ((Cast.ofImplicit (.boxed .int) .int .unboxing Distance.unboxing).apply .null
        (Frames.single 0)).1 = .error (.nullValue target) := by
  intro drawers assets purse
  have hO := Purse.nominal
  have hdrawers : Ty.Over Purse.types drawers :=
    hO.array (hO.array (Purse.over_types (by simp [Purse.types]) rfl))
  have hassets : Ty.Over Purse.types assets :=
    hO.array (hO.array (Purse.over_types (by simp [Purse.types]) rfl))
  have hcast : structuralCast drawers assets = some (.ofImplicit drawers assets .upcast 4) :=
    structuralCast_array_of_up (by decide) rfl rfl
      (structuralCast_array_of_up (by decide) rfl rfl Purse.structuralCast_coin)
  have himplicit := Library.registry_implicitCast_of_structural (by decide) hcast rfl
  have hdrawer : ∀ v ∈ [Value.object "Coin" [], .null],
      InstanceOf Purse.classNamed v Purse.coin := by
    refine List.forall_mem_cons.2 ⟨?_, List.forall_mem_singleton.2 (.null rfl)⟩
    exact .object rfl ⟨Purse.coin, .refl, rfl⟩
  have hpurse : InstanceOf Purse.classNamed purse drawers := by
    apply InstanceOf.array rfl
    refine List.forall_mem_cons.2 ⟨.array rfl hdrawer, List.forall_mem_cons.2 ⟨?_, ?_⟩⟩
    · exact .array rfl (List.forall_mem_nil _)
    · exact List.forall_mem_singleton.2 (.null rfl)
  have hunbox : Library.registry.implicitCast (.boxed .int) .int =
      .ok (some (.ofImplicit (.boxed .int) .int .unboxing Distance.unboxing)) := rfl
  refine ⟨hO, Purse.classesIn, himplicit, hpurse, ?_, hunbox, ?_⟩
  · have hsound := (implicit_casts_keep_instances hO Purse.classesIn hdrawers hassets himplicit
      hpurse (.single 0)).1
    rcases hsound with ⟨w, hw, hinstance⟩ | ⟨target, hrefused⟩ | ⟨value, kind, hfails⟩
    · cases hw
      exact hinstance
    · cases hrefused
    · cases hfails
  · exact (implicit_casts_keep_instances hO Purse.classesIn (hO.builtin rfl) (hO.builtin rfl)
      hunbox (.null rfl) (.single 0)).2.2 ⟨rfl, rfl⟩

/-- An instance of the source comes out of the cast as it went in, and is no instance of the
target. -/
structure Cast.Escapes (classOf : String → Option Ty) (c : Cast) (v : Value) : Prop where
  source : InstanceOf classOf v c.source
  answer : ∀ frames : Frames, (c.apply v frames).1 = .ok v
  target : ¬InstanceOf classOf v c.target

/-- A class that extends just the given type. -/
def Ty.subclass (super : Ty) : Ty := .record 0 ⟨"rules", "Odd"⟩ [super]

/-- An object of a class below a type with the key of the source escapes from casts that hand on
their values, unless the target is above the class. -/
theorem Cast.escapes_subclass {super : Ty} (hkey : super.key = c.source.key)
    (hhands : ∀ frames : Frames, (c.apply (.object "Odd" []) frames).1 = .ok (.object "Odd" []))
    (hobject : c.target.isObject = false) (htarget : ¬super.subclass.IsA c.target) :
    c.Escapes (fun _ => some super.subclass) (.object "Odd" []) where
  source := .object rfl ⟨super, .single List.mem_cons_self, hkey⟩
  answer := hhands
  target h := by
    rcases h.isA_of_object rfl with htop | hisA
    · rw [htop] at hobject
      cases hobject
    · exact htarget hisA

/-- Inserted casts are not sound for objects of classes below a boxed or a primitive type, the type
of null or an array, nor where two types share a key: there the class is below another `Money` than
the one that is an asset. -/
theorem implicit_casts_lose_instances :
    let other := Ty.record 3 ⟨"rules", "Money"⟩ []
    (∃ c, Library.registry.implicitCast (.boxed .int) .int = .ok (some c) ∧
      c.Escapes (fun _ => some (Ty.boxed .int).subclass) (.object "Odd" [])) ∧
    (∃ c, Library.registry.implicitCast .int (.boxed .int) = .ok (some c) ∧
      c.Escapes (fun _ => some Ty.int.subclass) (.object "Odd" [])) ∧
    (∃ c, Library.registry.implicitCast .null .string = .ok (some c) ∧
      c.Escapes (fun _ => some Ty.null.subclass) (.object "Odd" [])) ∧
    (∃ c, Library.registry.implicitCast (.array .string) (.array .object) = .ok (some c) ∧
      c.Escapes (fun _ => some (Ty.array .string).subclass) (.object "Odd" [])) ∧
    ∃ c, Library.registry.implicitCast Purse.money Purse.asset = .ok (some c) ∧
      c.Escapes (fun _ => some other.subclass) (.object "Odd" []) := by
  intro other
  have hmoney := Library.registry_implicitCast_of_structural (by decide)
    Purse.structuralCast_money rfl
  refine ⟨⟨_, rfl, ?_⟩, ⟨_, rfl, ?_⟩, ⟨_, rfl, ?_⟩, ⟨_, rfl, ?_⟩, ⟨_, hmoney, ?_⟩⟩
  · exact Cast.escapes_subclass rfl (fun _ => rfl) rfl (by decide +kernel)
  · exact Cast.escapes_subclass rfl (fun _ => rfl) rfl (by decide +kernel)
  · exact Cast.escapes_subclass rfl (fun _ => rfl) rfl (by decide +kernel)
  · exact Cast.escapes_subclass rfl (fun _ => rfl) rfl (by decide +kernel)
  · exact Cast.escapes_subclass rfl (fun _ => rfl) rfl (by decide +kernel)

/-! ## Casts that are written -/

/-- A cast that is written goes down to a reference, or converts to a kind of numbers that its
target holds. -/
theorem Ty.Keyed.written_cases (hO : Ty.Keyed O) (hb : O b)
    (h : Library.registry.cast a b = .ok (some c)) (hwritten : c.implicit = false) :
    c.kind = .downcast ∧ c.target.isPrimitive = false ∨
      c.isDowncast = false ∧ ∃ kind, b.holds kind ∧
        ∀ v (frames : Frames), (c.kind.apply v frames).1 = v.convert kind := by
  rcases Library.registry_cast_marked h with ⟨hstructural, hmarked⟩ | ⟨entry, hcalls⟩
  · have himplicit := hmarked.implicit_eq
    have hkind := hstructural.kind
    cases hc : c.kind with
    | downcast => exact .inl ⟨rfl, hmarked.target_of_downcast hc⟩
    | narrowing kind =>
      rw [hc] at hkind
      refine .inr ⟨by rw [Cast.isDowncast, hc], kind, ?_, fun v frames => rfl⟩
      cases hkind with
      | narrow _ hwanted => exact Ty.holds_of_numericKind? hwanted
      | unboxUnchecked hp => exact Ty.holds_of_numericKind? hp
    | _ =>
      rw [hwritten, hc] at himplicit
      cases himplicit
  · refine .inr ⟨?_, hcalls.converts hO hb⟩
    rw [Cast.isDowncast, hcalls.kind_eq]

theorem Cast.apply_downcast (hkind : c.kind = .downcast) (htarget : c.target.isPrimitive = false)
    (v : Value) (frames : Frames) : (c.apply v frames).1 = .ok v := by
  rcases c.apply_cases v frames with ⟨-, hprimitive, -⟩ | ⟨-, hanswer⟩
  · rw [htarget] at hprimitive
    cases hprimitive
  · rw [hanswer, hkind, CastKind.apply]
    rfl

/-- A cast that converts to numbers of its target refuses null, or gives an instance or fails. -/
theorem Cast.apply_converts {kind : NumericKind} (hholds : c.target.holds kind)
    (hconvert : ∀ v (frames : Frames), (c.kind.apply v frames).1 = v.convert kind) (v : Value)
    (frames : Frames) :
    (∃ target, (c.apply v frames).1 = .error (.nullValue target)) ∨
      YieldsInstance classOf c.target (c.apply v frames).1 := by
  rcases c.apply_cases v frames with ⟨-, -, hrefused⟩ | ⟨hnull, hanswer⟩
  · exact .inl ⟨_, hrefused⟩
  · rw [hanswer, hconvert]
    exact .inr (convert_yields hholds hnull)

/-- A cast down hands on any value.  Every other cast that is written gives an instance of its
target or fails.  So a written cast is checked at run time just if it does not go down, or its value
happens to be an instance of the target. -/
theorem written_casts_checked_iff (hO : Ty.Keyed O) (ha : O a) (hb : O b)
    (h : Library.registry.cast a b = .ok (some c)) (hwritten : c.implicit = false)
    (classOf : String → Option Ty) (v : Value) (frames : Frames) :
    let answer := (c.apply v frames).1
    (c.isDowncast → answer = .ok v) ∧
    (c.isDowncast = false → (∃ target, answer = .error (.nullValue target)) ∨
      (∃ w, answer = .ok w ∧ InstanceOf classOf w b) ∨
      ∃ value kind, answer = .error (.invalidConversion value kind)) ∧
    ((∀ w, answer = .ok w → InstanceOf classOf w b) ↔
      (c.isDowncast → InstanceOf classOf v b)) := by
  intro answer
  obtain rfl : c.target = b := hO.cast_target ha hb h
  rcases hO.written_cases hb h hwritten with ⟨hkind, hreference⟩ | ⟨hother, kind, hholds, hconvert⟩
  · -- A cast down hands on its value, so it is checked only if the value happens to fit.
    have hdown : c.isDowncast = true := by rw [Cast.isDowncast, hkind]
    have hanswer : answer = .ok v := Cast.apply_downcast hkind hreference v frames
    refine ⟨fun _ => hanswer, fun hother => ?_, fun hchecked _ => hchecked v hanswer, ?_⟩
    · rw [hdown] at hother
      cases hother
    · intro hinstance w hw
      cases hanswer.symm.trans hw
      exact hinstance hdown
  · have hanswer : (∃ target, answer = .error (.nullValue target)) ∨
        YieldsInstance classOf c.target answer := Cast.apply_converts hholds hconvert v frames
    refine ⟨fun hdown => ?_, fun _ => hanswer, fun _ hdown => ?_, fun _ w hw => ?_⟩
    · rw [hother] at hdown
      cases hdown
    · rw [hother] at hdown
      cases hdown
    · rcases hanswer with ⟨target, hrefused⟩ | ⟨w', hw', hinstance⟩ | ⟨value, kind, hfails⟩
      · cases hrefused.symm.trans hw
      · cases hw'.symm.trans hw
        exact hinstance
      · cases hfails.symm.trans hw

/-- An asset is cast to a coin unchecked, so money passes for one; a number that is narrowed is
converted. -/
theorem written_casts_checked_iff_coin :
    let down := Cast.ofExplicit Purse.asset Purse.coin .downcast 4
    let narrow := Cast.ofExplicit (.primitive .long) .int (.narrowing .int) 1
    Ty.Keyed (Ty.Over Purse.types) ∧
      Library.registry.cast Purse.asset Purse.coin = .ok (some down) ∧
      (down.apply (.object "Money" []) (Frames.single 0)).1 = .ok (.object "Money" []) ∧
      ¬(∀ w, (down.apply (.object "Money" []) (Frames.single 0)).1 = .ok w →
        InstanceOf Purse.classNamed w Purse.coin) ∧
      Library.registry.cast (.primitive .long) .int = .ok (some narrow) ∧
      ∀ w, (narrow.apply (.long 7) (Frames.single 0)).1 = .ok w →
        InstanceOf Purse.classNamed w .int := by
  intro down narrow
  have hO := Purse.nominal.toKeyed
  have hasset : Ty.Over Purse.types Purse.asset := Purse.over_types (by simp [Purse.types]) rfl
  have hcoin : Ty.Over Purse.types Purse.coin := Purse.over_types (by simp [Purse.types]) rfl
  have hdown := Library.registry_cast_of_structural Purse.structuralCast_asset
  have hnarrow : Library.registry.cast (.primitive .long) .int = .ok (some narrow) := rfl
  have hmoney := written_casts_checked_iff hO hasset hcoin hdown rfl Purse.classNamed
    (.object "Money" []) (.single 0)
  have hseven := written_casts_checked_iff hO (hO.builtin rfl) (hO.builtin rfl) hnarrow rfl
    Purse.classNamed (.long 7) (.single 0)
  refine ⟨hO, hdown, hmoney.1 rfl, fun hchecked => ?_, hnarrow, hseven.2.2.2 nofun⟩
  exact Purse.not_instanceOf_coin (hmoney.2.2.1 hchecked rfl)

theorem not_instanceOf_string {i : Int32} : ¬InstanceOf classOf (.int i) .string := by
  intro h
  cases h with
  | number _ ht => simp [Ty.holds, Ty.numericKind?] at ht

/-- Casts down hand on values that are no instances of the target: of the root, in arrays and in a
hierarchy of classes. -/
theorem downcasts_hand_on_anything :
    (∃ c, Library.registry.cast .object .string = .ok (some c) ∧ c.implicit = false ∧
      c.Escapes Purse.classNamed (.int 5)) ∧
    (∃ c, Library.registry.cast (.array .object) (.array .string) = .ok (some c) ∧
      c.implicit = false ∧ c.Escapes Purse.classNamed (.array [.int 5])) ∧
    ∃ c, Library.registry.cast Purse.asset Purse.coin = .ok (some c) ∧ c.implicit = false ∧
      c.Escapes Purse.classNamed (.object "Money" []) := by
  have hdown := Library.registry_cast_of_structural Purse.structuralCast_asset
  refine ⟨⟨_, rfl, rfl, ⟨.root, fun _ => rfl, not_instanceOf_string⟩⟩,
    ⟨_, rfl, rfl, ⟨?_, fun _ => rfl, ?_⟩⟩, ⟨_, hdown, rfl, ⟨?_, fun _ => rfl, ?_⟩⟩⟩
  · exact .array rfl (List.forall_mem_singleton.2 .root)
  · intro h
    cases h with
    | array ht helements =>
      cases ht
      exact not_instanceOf_string (helements (.int 5) List.mem_cons_self)
    | number hv => cases hv
  · exact .object rfl ⟨Purse.asset, .single List.mem_cons_self, rfl⟩
  · exact Purse.not_instanceOf_coin

end RuleExpr
