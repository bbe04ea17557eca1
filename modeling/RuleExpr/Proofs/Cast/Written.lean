import RuleExpr.Proofs.Cast.ThereAndBack

/-!
# Conversions That Have to Be Written

Which structural casts have to be written is a matter of their kind: those that go down a hierarchy
or narrow a number.  What goes down ends at a reference, so its target has room for null.
-/

namespace RuleExpr

variable {a b : Ty} {c : Cast}

/-- Kinds of structural casts that binding never inserts by itself. -/
def CastKind.isWritten : CastKind → Bool
  | downcast | narrowing _ => true
  | _ => false

/-- A cast that has to be written just if its kind says so, and that goes down to references
only. -/
structure Cast.Marked (c : Cast) : Prop where
  implicit_eq : c.implicit = !c.kind.isWritten
  target_of_downcast : c.kind = .downcast → c.target.isPrimitive = false

theorem Cast.marked_ofImplicit {kind : CastKind} {distance : Nat} (h : kind.isWritten = false) :
    (ofImplicit a b kind distance).Marked where
  implicit_eq := by
    change true = !kind.isWritten
    rw [h]
    rfl
  target_of_downcast hdown := by
    change kind = .downcast at hdown
    subst hdown
    cases h

theorem Cast.marked_identity (t : Ty) : (identity t).Marked :=
  ⟨rfl, nofun⟩

theorem Cast.marked_downcast {extra : Nat} (h : b.isPrimitive = false) :
    (ofExplicit a b .downcast extra).Marked :=
  ⟨rfl, fun _ => h⟩

theorem Cast.marked_narrowing {kind : NumericKind} {extra : Nat} :
    (ofExplicit a b (.narrowing kind) extra).Marked :=
  ⟨rfl, nofun⟩

theorem Ty.isPrimitive_of_isReference (h : b.isReference = true) : b.isPrimitive = false := by
  cases b <;> first | rfl | cases h

/-- A type below another one is a reference: a primitive type extends nothing. -/
theorem Ty.isPrimitive_of_ancestorDistance {levels : Nat} (hkey : a.key ≠ b.key)
    (h : b.ancestorDistance a = some levels) : b.isPrimitive = false := by
  cases b with
  | primitive p => exact absurd (key_eq_of_no_supers rfl h).symm hkey
  | _ => rfl

theorem scalarCast_marked (hkey : a.key ≠ b.key) (h : scalarCast a b = some c) : c.Marked := by
  cases scalarCast_cases h with
  | narrow | unboxUnchecked => exact Cast.marked_narrowing
  | fromRoot _ hb => exact Cast.marked_downcast (Ty.isPrimitive_of_isReference hb)
  | down _ hlevels => exact Cast.marked_downcast (Ty.isPrimitive_of_ancestorDistance hkey hlevels)
  | _ => exact Cast.marked_ofImplicit rfl

theorem liftToArrays_marked {inner : Cast} (h : liftToArrays (.array a) (.array b) inner = some c) :
    c.Marked := by
  rcases liftToArrays_cases h with ⟨-, rfl⟩ | ⟨-, rfl⟩
  · exact Cast.marked_ofImplicit rfl
  · exact Cast.marked_downcast rfl

/-- Of the structural casts, downcasts and narrowings are those that have to be written. -/
theorem structuralCast_marked (h : structuralCast a b = some c) : c.Marked := by
  fun_induction structuralCast a b generalizing c with
  | case1 =>
    cases h
    exact Cast.marked_identity _
  | case2 => cases h
  | case3 =>
    obtain ⟨inner, -, hlift⟩ := Option.bind_eq_some_iff.1 h
    exact liftToArrays_marked hlift
  | case4 _ _ hkey => exact scalarCast_marked hkey h

end RuleExpr
