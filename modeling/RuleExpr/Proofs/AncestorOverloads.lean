import Mathlib.Data.List.Permutation
import RuleExpr.Proofs.HiddenVariables
import RuleExpr.Proofs.NearestOverload
import RuleExpr.Proofs.RuntimeCasts
import RuleExpr.Proofs.UpcastOrder

/-!
# Overloads for an Ancestor and for the Root

An upcast costs the same for every level of inheritance, while the way to the root of all references
has one price, whatever is passed on it.  The two prices meet: an overload for an ancestor wins over
one for the root as long as the ancestor is near, is ambiguous with it at the one depth where both
cost the same, and loses to it from there on.

The depth is the number of levels that the search upwards finds, so it is unbounded, and the
shortest way counts where several lead to the ancestor.  Arrays cost what their components cost.
-/

namespace RuleExpr

namespace Ty

/-- Arrays of a type, with the given number of dimensions. -/
def arrays (t : Ty) : Nat → Ty
  | 0 => t
  | dimensions + 1 => .array (t.arrays dimensions)

variable {a b : Ty} (dimensions : Nat)

theorem arrays_key_ne (h : a.key ≠ b.key) :
    (a.arrays dimensions).key ≠ (b.arrays dimensions).key := by
  induction dimensions with
  | zero => exact h
  | succ dimensions ih => exact fun hsame => ih (key_array_inj hsame)

theorem isPrimitive_arrays (h : a.isPrimitive = false) :
    (a.arrays dimensions).isPrimitive = false := by
  cases dimensions with
  | zero => exact h
  | succ => rfl

/-- What has something above it is not null. -/
theorem isNull_of_levels {levels : Nat} (hkey : a.key ≠ b.key)
    (h : a.ancestorDistance b = some levels) : a.isNull = false := by
  cases a with
  | null => exact absurd (key_eq_of_no_supers rfl h) hkey
  | _ => rfl

theorem isArray_of_levels {levels : Nat} (hkey : a.key ≠ b.key)
    (h : a.ancestorDistance b = some levels) : a.isArray = false := by
  cases a with
  | array => exact absurd (key_eq_of_no_supers rfl h) hkey
  | _ => rfl

end Ty

section Casts

variable {a b : Ty} {distance levels : Nat} (dimensions : Nat)

theorem structuralCast_arrays_of_up (hkey : a.key ≠ b.key) (ha : a.isPrimitive = false)
    (hb : b.isPrimitive = false)
    (h : structuralCast a b = some (.ofImplicit a b .upcast distance)) :
    structuralCast (a.arrays dimensions) (b.arrays dimensions) =
      some (.ofImplicit (a.arrays dimensions) (b.arrays dimensions) .upcast distance) := by
  induction dimensions with
  | zero => exact h
  | succ dimensions ih =>
    exact structuralCast_array_of_up (Ty.arrays_key_ne (dimensions + 1) hkey)
      (Ty.isPrimitive_arrays dimensions ha) (Ty.isPrimitive_arrays dimensions hb) ih

theorem structuralCast_to_ancestor (ha : a.isReference) (hb : b.isReference)
    (hkey : a.key ≠ b.key) (hroot : b.key ≠ Ty.object.key)
    (hlevels : a.ancestorDistance b = some levels) :
    structuralCast a b = some (.ofImplicit a b .upcast (levels * Distance.upcastStep)) := by
  rw [structuralCast_of_references ha hb (Ty.isNull_of_levels hkey hlevels) hkey
      (.inl (Ty.isArray_of_levels hkey hlevels)),
    Ty.isObject_of_key_ne hroot, Ty.isObject_of_levels hkey hlevels,
    numericCast_eq_none (Ty.numericKind?_of_levels hkey hlevels), referenceCast, hlevels]
  rfl

theorem structuralCast_to_root (ha : a.isReference) (hnull : a.isNull = false)
    (hkey : a.key ≠ Ty.object.key) :
    structuralCast a .object = some (.ofImplicit a .object .upcast Distance.toObject) :=
  structuralCast_of_references ha rfl hnull hkey (.inr rfl)

theorem implicitCast_of_up (hkey : a.key ≠ b.key) (ha : a.isReference) (hb : b.isReference)
    (h : structuralCast a b = some (.ofImplicit a b .upcast distance)) :
    Library.registry.implicitCast (a.arrays dimensions) (b.arrays dimensions) =
      .ok (some (.ofImplicit (a.arrays dimensions) (b.arrays dimensions) .upcast distance)) :=
  Library.registry_implicitCast_of_structural (Ty.arrays_key_ne dimensions hkey)
    (structuralCast_arrays_of_up dimensions hkey (Ty.isPrimitive_of_isReference ha)
      (Ty.isPrimitive_of_isReference hb) h) rfl

end Casts

namespace Overload

variable {r : Registry} {name : String} {arguments : List Ty} {s t : Selection}

theorem applicable_of_cast {m : Method} {given param : Ty} {cast : Cast} (hname : m.name = name)
    (hparam : m.params = [param]) (hcast : r.implicitCast given param = .ok (some cast)) :
    Applicable r name [given] ⟨m, [cast], min cast.distance (Distance.limit - 1)⟩ where
  name_eq := hname
  arity_eq := by
    change m.params.length = 1
    rw [hparam]
    rfl
  converts := by
    rw [hparam]
    exact .cons hcast .nil
  distance_eq := rfl

theorem resolve_two (hr : r.Answers) (hs : Applicable r name arguments s)
    (ht : Applicable r name arguments t) :
    resolve r [s.method, t.method] name arguments = .ok (outcome (least [s, t])) := by
  have hselections : selections r [s.method, t.method] name arguments = [s, t] := by
    simp only [selections, List.filterMap_cons, hs.selection?_eq, ht.selection?_eq,
      List.filterMap_nil]
  rw [resolve_eq_outcome hr, hselections]

section

variable {candidates : List Method} (hr : r.Answers) (hs : Applicable r name arguments s)
  (ht : Applicable r name arguments t) (hcandidates : candidates.Perm [s.method, t.method])

include hr hs ht hcandidates

/-- Of two applicable candidates the nearer one is found. -/
theorem resolve_two_of_lt (hlt : s.distance < t.distance) :
    resolve r candidates name arguments = .ok (.found s) := by
  have hle := Nat.le_of_lt hlt
  rcases List.perm_pair.1 hcandidates with rfl | rfl
  · rw [resolve_two hr hs ht]
    simp [least, outcome, hle, hlt]
  · rw [resolve_two hr ht hs]
    simp [least, outcome, hle, hlt]

/-- Two applicable candidates at the same distance are ambiguous. -/
theorem resolve_two_of_eq (heq : s.distance = t.distance) :
    resolve r candidates name arguments = .ok (.ambiguous candidates) := by
  rcases List.perm_pair.1 hcandidates with rfl | rfl
  · rw [resolve_two hr hs ht]
    simp [least, outcome, heq]
  · rw [resolve_two hr ht hs]
    simp [least, outcome, heq]

end

section

variable {given near far : Ty} {up top : Cast} {levels : Nat} {ancestor root : Method}
  {candidates : List Method}

/-- The two prices meet at fifty levels.  The total over the arguments stays at the largest
distance, which is farther than the root. -/
theorem resolve_ancestor_root (hnames : ∀ m ∈ [ancestor, root], m.name = name)
    (hancestor : ancestor.params = [near]) (hroot : root.params = [far])
    (hup : Library.registry.implicitCast given near = .ok (some up))
    (htop : Library.registry.implicitCast given far = .ok (some top))
    (hnear : up.distance = levels * Distance.upcastStep)
    (hfar : top.distance = Distance.toObject) (hcandidates : candidates.Perm [ancestor, root]) :
    resolve Library.registry candidates name [given] =
      .ok (if levels < 50 then .found ⟨ancestor, [up], up.distance⟩
        else if levels = 50 then .ambiguous candidates
        else .found ⟨root, [top], top.distance⟩) := by
  have hr := Library.registry_answers
  have hfirst := applicable_of_cast (hnames ancestor (by simp)) hancestor hup
  have hsecond := applicable_of_cast (hnames root (by simp)) hroot htop
  simp only [Distance.upcastStep, Distance.toObject] at hnear hfar
  have hlimit : 100 < Distance.limit - 1 := by decide
  have htotal : min top.distance (Distance.limit - 1) = top.distance := by omega
  rw [htotal] at hsecond
  -- The total of the ancestor may be cut off, but only beyond fifty levels, where it loses anyway.
  rcases Nat.lt_trichotomy levels 50 with hlt | rfl | hgt
  · have htotal' : min up.distance (Distance.limit - 1) = up.distance := by omega
    rw [htotal'] at hfirst
    rw [if_pos hlt]
    exact resolve_two_of_lt hr hfirst hsecond hcandidates (by simp only; omega)
  · refine resolve_two_of_eq hr hfirst hsecond hcandidates ?_
    simp only [hnear, hfar]
    rfl
  · rw [if_neg (Nat.lt_asymm hgt), if_neg (Nat.ne_of_gt hgt)]
    exact resolve_two_of_lt hr hsecond hfirst (hcandidates.trans (.swap _ _ _))
      (by simp only; omega)

end

namespace Lineage

/-- A class with as many classes above it as the number says, each extending the next. -/
def descendant : Nat → Ty
  | 0 => .record 0 ⟨"rules", "C" ++ toString 0⟩ []
  | n + 1 => .record (n + 1) ⟨"rules", "C" ++ toString (n + 1)⟩ [descendant n]

theorem key_descendant (n : Nat) :
    (descendant n).key = ⟨⟨"rules", "C" ++ toString n⟩, 0⟩ := by
  cases n <;> rfl

theorem key_descendant_inj {m n : Nat} (h : (descendant m).key = (descendant n).key) : m = n := by
  rw [key_descendant, key_descendant] at h
  have hname : "C" ++ toString m = "C" ++ toString n := congrArg (·.element.name) h
  exact toString_injective ((String.append_right_inj "C").1 hname)

theorem key_descendant_ne_root (n : Nat) : (descendant n).key ≠ Ty.object.key := by
  rw [key_descendant]
  intro h
  have hns : "rules" = Ty.object.key.element.ns := congrArg (·.element.ns) h
  exact absurd hns (by decide)

theorem isReference_descendant (n : Nat) : (descendant n).isReference = true := by
  cases n <;> rfl

/-- The search goes down the line one class after the other. -/
theorem levelOf_descendant {n level : Nat} {visited : List TypeKey}
    (hvisited : ∀ i ≤ n, (descendant i).key ∉ visited) :
    Ty.levelOf (descendant 0).key [(descendant n, level)] visited = some (level + n) := by
  induction n generalizing level visited with
  | zero => rw [Ty.levelOf, if_pos rfl, Nat.add_zero]
  | succ n ih =>
    have hne : (descendant (n + 1)).key ≠ (descendant 0).key := by
      intro h
      cases key_descendant_inj h
    have hrest : ∀ i ≤ n, (descendant i).key ∉ (descendant (n + 1)).key :: visited := by
      intro i hi
      rw [List.mem_cons, not_or]
      refine ⟨fun h => ?_, hvisited i (Nat.le_succ_of_le hi)⟩
      have hsame := key_descendant_inj h
      omega
    rw [Ty.levelOf, if_neg hne, if_neg (hvisited _ (Nat.le_refl _))]
    change Ty.levelOf _ [(descendant n, level + 1)] _ = _
    rw [ih hrest]
    congr 1
    omega

theorem ancestorDistance_descendant (n : Nat) :
    (descendant n).ancestorDistance (descendant 0) = some n := by
  cases n with
  | zero => exact if_pos rfl
  | succ n =>
    have hne : (descendant (n + 1)).key ≠ (descendant 0).key := by
      intro h
      cases key_descendant_inj h
    rw [Ty.ancestorDistance, if_neg hne]
    change Ty.levelOf _ [(descendant n, 0 + 1)] _ = _
    rw [levelOf_descendant fun _ _ => List.not_mem_nil]
    congr 1
    omega

theorem key_descendant_ne_top {n : Nat} (hn : n ≠ 0) :
    (descendant n).key ≠ (descendant 0).key :=
  fun h => hn (key_descendant_inj h)

theorem implicitCast_top {n : Nat} (hn : n ≠ 0) :
    Library.registry.implicitCast (descendant n) (descendant 0) =
      .ok (some (.ofImplicit (descendant n) (descendant 0) .upcast (n * Distance.upcastStep))) :=
  implicitCast_of_up 0 (key_descendant_ne_top hn) (isReference_descendant n)
    (isReference_descendant 0)
    (structuralCast_to_ancestor (isReference_descendant n) (isReference_descendant 0)
      (key_descendant_ne_top hn) (key_descendant_ne_root 0) (ancestorDistance_descendant n))

theorem implicitCast_root {n : Nat} (hn : n ≠ 0) :
    Library.registry.implicitCast (descendant n) .object =
      .ok (some (.ofImplicit (descendant n) .object .upcast Distance.toObject)) :=
  implicitCast_of_up 0 (key_descendant_ne_root n) (isReference_descendant n) rfl
    (structuralCast_to_root (isReference_descendant n)
      (Ty.isNull_of_levels (key_descendant_ne_top hn) (ancestorDistance_descendant n))
      (key_descendant_ne_root n))

/-- A method `m` of one parameter. -/
def overload (id : Nat) (param : Ty) : Method :=
  .native ⟨id, "m", [param], .void, "Rules", .static, none⟩ fun _ _ => .ok .null

theorem name_overload (first second : Ty) :
    ∀ m ∈ [overload 0 first, overload 1 second], m.name = "m" := by
  simp [overload, Method.name, Method.head]

end Lineage

/-- An overload for an ancestor wins over one for the root of all references exactly while the
ancestor is less than fifty levels up.  At fifty levels both are equally near, so a call with a
descendant is ambiguous, and above that the overload for the root is found, for the types as for
their arrays of any dimensions. -/
theorem ancestor_overload_wins_below_fifty_levels {c a : Ty} {levels : Nat} {name : String}
    {ancestor root : Method} (hclass : c.isReference)
    (hreference : a.isReference) (hproper : c.key ≠ a.key)
    (hothers : ∀ t ∈ [c, a], t.key ≠ Ty.object.key)
    (hlevels : c.ancestorDistance a = some levels) (dimensions : Nat)
    (hnames : ∀ m ∈ [ancestor, root], m.name = name)
    (hancestor : ancestor.params = [a.arrays dimensions])
    (hroot : root.params = [Ty.object.arrays dimensions]) :
    ∃ up top,
      Library.registry.implicitCast (c.arrays dimensions) (a.arrays dimensions) = .ok (some up) ∧
      Library.registry.implicitCast (c.arrays dimensions) (Ty.object.arrays dimensions) =
        .ok (some top) ∧
      up.distance = levels * 2 ∧ top.distance = 100 ∧
      (up.distance < top.distance ↔ levels < 50) ∧
      ∀ candidates, candidates.Perm [ancestor, root] →
        resolve Library.registry candidates name [c.arrays dimensions] =
          .ok (if levels < 50 then .found ⟨ancestor, [up], up.distance⟩
            else if levels = 50 then .ambiguous candidates
            else .found ⟨root, [top], top.distance⟩) := by
  obtain ⟨hcroot, haroot, -⟩ : _ ∧ _ ∧ _ := by
    simpa only [List.forall_mem_cons] using hothers
  have hup := implicitCast_of_up dimensions hproper hclass hreference
    (structuralCast_to_ancestor hclass hreference hproper haroot hlevels)
  have htop := implicitCast_of_up dimensions hcroot hclass rfl
    (structuralCast_to_root hclass (Ty.isNull_of_levels hproper hlevels) hcroot)
  refine ⟨_, _, hup, htop, rfl, rfl, ?_, fun candidates hcandidates => ?_⟩
  · simp only [Cast.ofImplicit, Distance.upcastStep, Distance.toObject]
    omega
  · exact resolve_ancestor_root hnames hancestor hroot hup htop rfl rfl hcandidates

open Lineage in
/-- Arrays of a class and of the one three levels up. -/
theorem ancestor_overload_wins_below_fifty_levels_three :
    (descendant 3).ancestorDistance (descendant 0) = some 3 ∧
    ∃ up top,
      Library.registry.implicitCast (.array (descendant 3)) (.array (descendant 0)) =
        .ok (some up) ∧
      Library.registry.implicitCast (.array (descendant 3)) (.array .object) = .ok (some top) ∧
      up.distance = 6 ∧ top.distance = 100 ∧
      ∀ candidates,
        candidates.Perm [overload 0 (.array (descendant 0)), overload 1 (.array .object)] →
        resolve Library.registry candidates "m" [.array (descendant 3)] =
          .ok (.found ⟨overload 0 (.array (descendant 0)), [up], up.distance⟩) := by
  have hothers : ∀ t ∈ [descendant 3, descendant 0], t.key ≠ Ty.object.key := by
    simp [key_descendant_ne_root]
  obtain ⟨up, top, hup, htop, hnear, hfar, -, hresolve⟩ :=
    ancestor_overload_wins_below_fifty_levels (isReference_descendant 3) (isReference_descendant 0)
      (key_descendant_ne_top (by decide)) hothers (ancestorDistance_descendant 3) 1
      (name_overload (.array (descendant 0)) (.array .object)) rfl rfl
  exact ⟨ancestorDistance_descendant 3, up, top, hup, htop, hnear, hfar, hresolve⟩

open Lineage in
/-- Fifty-one levels down the root is nearer than the class at the top, and its overload is found;
one level less and the call is ambiguous. -/
theorem root_overload_wins_at_fifty_one_levels :
    (descendant 51).ancestorDistance (descendant 0) = some 51 ∧
    ∃ up top,
      Library.registry.implicitCast (descendant 51) (descendant 0) = .ok (some up) ∧
      Library.registry.implicitCast (descendant 51) .object = .ok (some top) ∧
      up.distance = 102 ∧ top.distance = 100 ∧
      resolve Library.registry [overload 0 (descendant 0), overload 1 .object] "m"
          [descendant 51] = .ok (.found ⟨overload 1 .object, [top], 100⟩) ∧
      resolve Library.registry [overload 0 (descendant 0), overload 1 .object] "m"
          [descendant 50] = .ok (.ambiguous [overload 0 (descendant 0), overload 1 .object]) := by
  have hup := implicitCast_top (n := 51) (by decide)
  have htop := implicitCast_root (n := 51) (by decide)
  refine ⟨ancestorDistance_descendant 51, _, _, hup, htop, rfl, rfl, ?_, ?_⟩
  · exact resolve_ancestor_root (name_overload _ _) rfl rfl hup htop rfl rfl (.refl _)
  · exact resolve_ancestor_root (name_overload _ _) rfl rfl (implicitCast_top (by decide))
      (implicitCast_root (by decide)) rfl rfl (.refl _)

end Overload

end RuleExpr
