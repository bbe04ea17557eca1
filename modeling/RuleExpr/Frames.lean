import RuleExpr.Value.Basic

/-!
# Frames of Local Variables

Every running method has a frame of numbered slots, and only the slots of the topmost frame can be
read and written.  Writing behind the end of a frame extends it with nulls.
-/

namespace RuleExpr

abbrev Frame := List Value

/-- The open frames, topmost first. -/
structure Frames where
  stack : List Frame

namespace Frames

def emptyFrame (size : Nat) : Frame := List.replicate size .null

/-- A single frame with `size` empty slots. -/
def single (size : Nat) : Frames := ⟨[emptyFrame size]⟩

def depth (frames : Frames) : Nat := frames.stack.length

/-- Opens a frame with `size` empty slots. -/
def push (frames : Frames) (size : Nat) : Frames := ⟨emptyFrame size :: frames.stack⟩

def pop (frames : Frames) : Except EvalError Frames :=
  match frames.stack with
  | [] => .error .noFrame
  | _ :: rest => .ok ⟨rest⟩

/-- Reads a slot of the topmost frame. -/
def load (frames : Frames) (slot : Nat) : Except EvalError Value :=
  match frames.stack with
  | [] => .error .noFrame
  | top :: _ =>
    match top[slot]? with
    | some value => .ok value
    | none => .error (.slotOutOfRange slot)

/-- The frame with `value` in `slot`. -/
def write (frame : Frame) (slot : Nat) (value : Value) : Frame :=
  (frame ++ emptyFrame (slot + 1 - frame.length)).set slot value

/-- Writes a slot of the topmost frame, which grows as far as is needed. -/
def store (frames : Frames) (slot : Nat) (value : Value) : Except EvalError Frames :=
  match frames.stack with
  | [] => .error .noFrame
  | top :: rest => .ok ⟨write top slot value :: rest⟩

end Frames

end RuleExpr
