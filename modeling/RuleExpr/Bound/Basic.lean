import RuleExpr.Bound.Method
import RuleExpr.Syntax.Node

/-!
# Bound Trees

The result of binding: a tree in which every node has a type and every name is resolved.  Methods,
casts and nodes refer to one another, since a method may be defined by a bound body and a
conversion may call a method; they are finite trees all the same, so a body can only call methods
that were complete before it.
-/

namespace RuleExpr

mutual

inductive Method where
  /-- Computed by the host from the receiver and the arguments. -/
  | native (head : MethodHead)
    (run : Option Value → List Value → Except EvalError Value)
  /-- A bound body, run in a frame of its own with the arguments in the slots of the parameters.
  A parameter that repeats an earlier name has no slot. -/
  | defined (head : MethodHead) (paramSlots : List (Option Nat)) (frameSize : Nat)
    (body : BoundNode)

/-- What happens to a value when a cast is applied. -/
inductive CastKind where
  | identity
  | nullToReference
  | widening (target : NumericKind)
  /-- Loses information; never inserted by itself. -/
  | narrowing (target : NumericKind)
  | boxing
  | unboxing
  | upcast
  /-- Never inserted by itself. -/
  | downcast
  | method (method : Method)

/-- A conversion between two types.  The distance ranks it among the others. -/
structure Cast where
  source : Ty
  target : Ty
  kind : CastKind
  implicit : Bool
  distance : Nat

inductive BoundShape where
  | literal (value : Value)
  | localVar (name : String) (slot : Nat)
  | moduleField (field : Field)
  | fieldAccess (target : BoundNode) (field : String)
  | arrayLength (array : BoundNode)
  | arrayElement (array index : BoundNode)
  | cast (operand : BoundNode) (cast : Cast)
  | methodCall (method : Method) (target : Option BoundNode) (arguments : List BoundNode)
  | constructor (method : Method) (arguments : List BoundNode)
  | conditional (condition yes : BoundNode) (no : Option BoundNode)
  | and (left right : BoundNode)
  | or (left right : BoundNode)
  | block (statements : List BoundNode)
  | varDecl (slot : Nat) (initial : BoundNode)
  | newArray (element : Ty) (size : BoundNode)
  | arrayInit (elements : List BoundNode)
  /-- Runs the body for every element of the source, which is converted and stored first. -/
  | aggregate (kind : AggregateKind) (source : BoundNode) (slot : Nat)
    (elementCast : Option Cast) (body : BoundNode)
  /-- Stands for a part that could not be bound. -/
  | error (message : String)

structure BoundNode where
  shape : BoundShape
  ty : Ty
  span : Span

end

namespace Method

def head : Method → MethodHead
  | native head _ => head
  | defined head _ _ _ => head

def name (m : Method) : String := m.head.name

def params (m : Method) : List Ty := m.head.params

def returns (m : Method) : Ty := m.head.returns

def arity (m : Method) : Nat := m.head.arity

def key (m : Method) : MethodKey := m.head.key

def signature (m : Method) : String := m.head.signature

end Method

def CastKind.label : CastKind → String
  | identity => "identity"
  | nullToReference => "null"
  | widening _ => "widening"
  | narrowing _ => "narrowing"
  | boxing => "boxing"
  | unboxing => "unboxing"
  | upcast => "upcast"
  | downcast => "downcast"
  | method _ => "method"

namespace Cast

def isIdentity (c : Cast) : Bool :=
  match c.kind with
  | .identity => true
  | _ => false

/-- Kind, end points and distance on one line. -/
def render (c : Cast) : String :=
  c.kind.label ++ " " ++ c.source.name ++ " -> " ++ c.target.name ++
    " (" ++ toString c.distance ++ ")"

end Cast

namespace BoundNode

def failure (message : String) (span : Span) : BoundNode := ⟨.error message, .error, span⟩

def isError (node : BoundNode) : Bool :=
  match node.shape with
  | .error _ => true
  | _ => false

/-- Direct children in the order of evaluation. -/
def children (node : BoundNode) : List BoundNode :=
  match node.shape with
  | .literal _ | .localVar _ _ | .moduleField _ | .error _ => []
  | .fieldAccess target _ => [target]
  | .arrayLength array => [array]
  | .arrayElement array index => [array, index]
  | .cast operand _ => [operand]
  | .methodCall _ target arguments => target.toList ++ arguments
  | .constructor _ arguments => arguments
  | .conditional condition yes no => condition :: yes :: no.toList
  | .and left right => [left, right]
  | .or left right => [left, right]
  | .block statements => statements
  | .varDecl _ initial => [initial]
  | .newArray _ size => [size]
  | .arrayInit elements => elements
  | .aggregate _ source _ _ body => [source, body]

theorem sizeOf_lt_of_mem_children {node child : BoundNode} (h : child ∈ node.children) :
    sizeOf child < sizeOf node := by
  obtain ⟨shape, ty, span⟩ := node
  have hlist {xs : List BoundNode} (hx : child ∈ xs) : sizeOf child < sizeOf xs :=
    List.sizeOf_lt_of_mem hx
  cases shape with
  | methodCall method target arguments =>
    cases target <;> simp only [children, Option.toList, List.nil_append, List.cons_append,
      List.mem_cons] at h
    · have := hlist h
      simp
      omega
    · rcases h with rfl | h
      · simp
        omega
      · have := hlist h
        simp
        omega
  | conditional condition yes no =>
    cases no <;> simp only [children, Option.toList, List.mem_cons, List.not_mem_nil,
      or_false] at h
    · rcases h with rfl | rfl <;> (simp; omega)
    · rcases h with rfl | rfl | rfl <;> (simp; omega)
  | constructor method arguments =>
    have : sizeOf child < sizeOf arguments := hlist h
    simp
    omega
  | block statements =>
    have : sizeOf child < sizeOf statements := hlist h
    simp
    omega
  | arrayInit elements =>
    have : sizeOf child < sizeOf elements := hlist h
    simp
    omega
  | literal | localVar | moduleField | error => simp [children] at h
  | fieldAccess | arrayLength | cast | varDecl | newArray =>
    simp only [children, List.mem_singleton] at h
    subst h
    simp
    omega
  | arrayElement | and | or | aggregate =>
    simp only [children, List.mem_cons, List.not_mem_nil, or_false] at h
    rcases h with rfl | rfl <;> (simp; omega)

/-- Whether the node or one below it could not be bound. -/
def containsError (node : BoundNode) : Bool :=
  node.isError || node.children.attach.any fun ⟨child, _⟩ => child.containsError
termination_by sizeOf node
decreasing_by exact sizeOf_lt_of_mem_children ‹_›

end BoundNode

end RuleExpr
