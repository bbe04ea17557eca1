import RuleExpr.Ty.Basic

/-!
# Interned Array Types

A type space holds one array type for each key that was asked for, so that equal array types of
one compilation unit are also the same type.  The space keeps the components alone, so that all it
answers with are arrays.
-/

namespace RuleExpr

structure TypeSpace where
  /-- Components of the array types, no two of them with the same key. -/
  components : List Ty

namespace TypeSpace

def empty : TypeSpace := ⟨[]⟩

/-- The array type over `component`, entered into the space if it is new. -/
def arrayOf (space : TypeSpace) (component : Ty) : Ty × TypeSpace :=
  match space.components.find? (·.key = component.key) with
  | some known => (.array known, space)
  | none => (.array component, ⟨space.components ++ [component]⟩)

def arrayWithDimensions (space : TypeSpace) (element : Ty) : Nat → Ty × TypeSpace
  | 0 => (element, space)
  | dimensions + 1 =>
    let (component, space) := space.arrayWithDimensions element dimensions
    space.arrayOf component

/-- Number of array types in the space. -/
def count (space : TypeSpace) : Nat := space.components.length

/-- An array over a type of the key asked for, if not over the type itself. -/
theorem arrayOf_fst (space : TypeSpace) (component : Ty) :
    ∃ known, (space.arrayOf component).1 = .array known ∧ known.key = component.key := by
  unfold arrayOf
  split
  case h_1 known hfind =>
    exact ⟨known, rfl, by simpa using List.find?_some hfind⟩
  case h_2 => exact ⟨component, rfl, rfl⟩

end TypeSpace

end RuleExpr
