import RuleExpr.Bound.Basic
import RuleExpr.Frames
import RuleExpr.Value.Convert

/-!
# Evaluation

A bound tree is evaluated in a stack of frames.  The frames are kept when an evaluation fails, so
that what a failed evaluation leaves behind can be spoken of.  Evaluation follows the tree, through
the bodies of the methods it calls, and therefore always ends.

The evaluator knows its state by the slots that it loads from and stores to, and by the frames that
methods run in.  Whatever has these can be evaluated in.
-/

namespace RuleExpr

/-- Actions that may fail and keep their state then. -/
abbrev Fallible (σ : Type) := ExceptT EvalError (StateM σ)

def Fallible.ofResult {σ α : Type} (r : Except EvalError α) : Fallible σ α := fun st => (r, st)

/-- A state to evaluate in. -/
class Machine (σ : Type) where
  load : Nat → Fallible σ Value
  store : Nat → Value → Fallible σ Unit
  /-- Runs an action in a new frame, which is closed again whether or not it succeeds. -/
  inFrame : Nat → Fallible σ Value → Fallible σ Value

/-- Puts the arguments into the slots of the parameters. -/
def Machine.storeArguments {σ : Type} [Machine σ] :
    List (Option Nat) → List Value → Fallible σ Unit
  | some slot :: slots, argument :: arguments => do
    store slot argument
    storeArguments slots arguments
  | none :: slots, _ :: arguments => storeArguments slots arguments
  | _, _ => pure ()

abbrev EvalM := Fallible Frames

namespace EvalM

def load (slot : Nat) : EvalM Value := fun frames => (frames.load slot, frames)

def store (slot : Nat) (value : Value) : EvalM Unit := fun frames =>
  match frames.store slot value with
  | .ok frames' => (.ok (), frames')
  | .error e => (.error e, frames)

def inFrame (size : Nat) (act : EvalM Value) : EvalM Value := fun frames =>
  let (result, frames') := act (frames.push size)
  match frames'.pop with
  | .ok frames'' => (result, frames'')
  | .error e => (.error e, frames')

end EvalM

-- Where a tree is evaluated and no machine is named, it is the frames.
@[default_instance]
instance : Machine Frames := ⟨EvalM.load, EvalM.store, EvalM.inFrame⟩

namespace Loop

variable {m : Type → Type} [Monad m]

/-- One step of a loop: the element as the loop variable holds it, and the value of the body. -/
abbrev Step (m : Type → Type) := Value → m (Value × Value)

def isTrue : Value → Bool
  | .bool true => true
  | _ => false

def selectAll (step : Step m) : List Value → m (List Value)
  | [] => pure []
  | value :: rest => do
    let (element, outcome) ← step value
    let selected ← selectAll step rest
    pure (if isTrue outcome then element :: selected else selected)

/-- Stops at the first element that is selected; null if there is none. -/
def selectFirst (step : Step m) : List Value → m Value
  | [] => pure .null
  | value :: rest => do
    let (element, outcome) ← step value
    if isTrue outcome then pure element else selectFirst step rest

def collect (step : Step m) : List Value → m (List Value)
  | [] => pure []
  | value :: rest => do
    let (_, outcome) ← step value
    let outcomes ← collect step rest
    pure (outcome :: outcomes)

def run (kind : AggregateKind) (step : Step m) (elements : List Value) : m Value :=
  match kind with
  | .selectAll => Value.array <$> selectAll step elements
  | .selectFirst => selectFirst step elements
  | .collect => Value.array <$> collect step elements

end Loop

namespace Value

/-- The elements of an array; `type` is named when there are none. -/
def expectArray (type : Ty) : Value → Except EvalError (List Value)
  | array elements => .ok elements
  | null => .error (.nullValue type.name)
  | other => .error (.typeMismatch type.name other.label)

def expectCondition : Value → Except EvalError Bool
  | bool value => .ok value
  | null => .error (.nullValue "boolean")
  | other => .error (.typeMismatch "boolean" other.label)

def expectInt : Value → Except EvalError Int
  | int value => .ok value.toInt
  | other => .error (.typeMismatch "int" other.label)

/-- The field of an object; `type` is named when the value is none. -/
def readField (type : Ty) (name : String) : Value → Except EvalError Value
  | object _ fields =>
    match Assoc.get? fields name with
    | some value => .ok value
    | none => .error (.unknownField name)
  | null => .error (.nullValue type.name)
  | other => .error (.typeMismatch type.name other.label)

def elementAt (elements : List Value) (position : Int) : Except EvalError Value :=
  match if 0 ≤ position then elements[position.toNat]? else none with
  | some value => .ok value
  | none => .error (.indexOutOfBounds position elements.length)

/-- An array of `size` unwritten elements. -/
def newArray (element : Ty) (size : Int) : Except EvalError Value :=
  if size < 0 then .error (.negativeArraySize size)
  else .ok (.array (List.replicate size.toNat element.defaultValue))

end Value

section

variable {σ : Type} [Machine σ]

open Fallible Machine

mutual

def BoundNode.eval : BoundNode → Fallible σ Value
  | ⟨shape, ty, _⟩ => shape.eval ty

/-- Evaluates a node of type `ty`. -/
def BoundShape.eval (ty : Ty) : BoundShape → Fallible σ Value
  | .literal value => pure value
  | .localVar _ slot => load slot
  | .moduleField field => pure (field.constant.getD .null)
  | .fieldAccess target field => do
    let value ← target.eval
    ofResult (value.readField target.ty field)
  | .arrayLength array => do
    let elements ← array.evalArray
    pure (.int (Int32.ofNat elements.length))
  | .arrayElement array index => do
    let elements ← array.evalArray
    let position ← ofResult (← index.eval).expectInt
    ofResult (Value.elementAt elements position)
  | .cast operand cast => do
    let value ← operand.eval
    cast.apply value
  | .methodCall method none arguments => do
    let values ← evalAll arguments
    method.invoke none values
  | .methodCall method (some target) arguments => do
    let receiver ← target.eval
    if receiver.isNull then
      throw (.nullValue target.ty.name)
    let values ← evalAll arguments
    method.invoke (some receiver) values
  | .constructor method arguments => do
    let values ← evalAll arguments
    method.invoke none values
  | .conditional condition yes none => do
    if ← condition.evalCondition then yes.eval else pure ty.defaultValue
  | .conditional condition yes (some no) => do
    if ← condition.evalCondition then yes.eval else no.eval
  | .and left right => do
    if ← left.evalCondition then Value.bool <$> right.evalCondition else pure (.bool false)
  | .or left right => do
    if ← left.evalCondition then pure (.bool true) else Value.bool <$> right.evalCondition
  | .block statements => do
    let values ← evalAll statements
    pure (values.getLast?.getD .null)
  | .varDecl slot initial => do
    let value ← initial.eval
    store slot value
    pure value
  | .newArray element size => do
    let size ← ofResult (← size.eval).expectInt
    ofResult (Value.newArray element size)
  | .arrayInit elements => Value.array <$> evalAll elements
  | .aggregate kind source slot none body => do
    let elements ← source.evalArray
    Loop.run kind (fun element => do
      store slot element
      let outcome ← body.eval
      pure (element, outcome)) elements
  | .aggregate kind source slot (some cast) body => do
    let elements ← source.evalArray
    Loop.run kind (fun element => do
      let element ← cast.apply element
      store slot element
      let outcome ← body.eval
      pure (element, outcome)) elements
  | .error message => throw (.unbound message)

/-- Evaluates a node whose value is an array. -/
def BoundNode.evalArray : BoundNode → Fallible σ (List Value)
  | ⟨shape, ty, _⟩ => do
    let value ← shape.eval ty
    ofResult (value.expectArray ty)

/-- Evaluates a node whose value is a truth value. -/
def BoundNode.evalCondition : BoundNode → Fallible σ Bool
  | ⟨shape, ty, _⟩ => do
    let value ← shape.eval ty
    ofResult value.expectCondition

/-- Evaluates nodes one after the other. -/
def evalAll : List BoundNode → Fallible σ (List Value)
  | [] => pure []
  | node :: rest => do
    let value ← node.eval
    let values ← evalAll rest
    pure (value :: values)

def Method.invoke : Method → Option Value → List Value → Fallible σ Value
  | .native _ run, receiver, arguments => ofResult (run receiver arguments)
  | .defined _ paramSlots frameSize body, _, arguments =>
    inFrame frameSize do
      storeArguments paramSlots arguments
      body.eval

/-- Converts a value of the source type of the cast into its target type. -/
def Cast.apply : Cast → Value → Fallible σ Value
  | ⟨_, target, kind, _, _⟩, value =>
    if value.isNull && target.isPrimitive then throw (.nullValue target.name)
    else kind.apply value

def CastKind.apply : CastKind → Value → Fallible σ Value
  | .identity, value => pure value
  | .nullToReference, value => pure value
  | .boxing, value => pure value
  | .unboxing, value => pure value
  | .upcast, value => pure value
  | .downcast, value => pure value
  | .widening target, value => ofResult (value.convert target)
  | .narrowing target, value => ofResult (value.convert target)
  | .method method, value => method.invoke none [value]

end

end

/-- Evaluates a tree in a fresh frame of `frameSize` slots. -/
def BoundNode.evaluate (node : BoundNode) (frameSize : Nat) : Except EvalError Value :=
  (node.eval (Frames.single frameSize)).1

end RuleExpr
