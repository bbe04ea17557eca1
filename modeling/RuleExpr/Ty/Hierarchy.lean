import RuleExpr.Ty.Basic

/-!
# Super-Types

The direct super-types of a type lead to its ancestors.  `Ty.ancestorDistance` counts the levels
up to a given type and `Ty.ancestors` lists all of them, both level by level; `superclassChain`
follows the first super-type that is not an interface.

A type together with everything above it is a finite tree.  Its number of nodes is the measure by
which every walk upwards ends.
-/

namespace RuleExpr.Ty

def supers : Ty → List Ty
  | boxed kind => if kind.isNumeric then [number] else []
  | bigInteger => [number]
  | bigDecimal => [number]
  | record _ _ supers => supers
  | interface _ _ supers => supers
  | _ => []

mutual

/-- Number of nodes of the tree of super-types. -/
def weight : Ty → Nat
  | boxed kind => if kind.isNumeric then 2 else 1
  | bigInteger => 2
  | bigDecimal => 2
  | record _ _ supers => weights supers + 1
  | interface _ _ supers => weights supers + 1
  | _ => 1

def weights : List Ty → Nat
  | [] => 0
  | t :: rest => t.weight + weights rest

end

theorem weights_append (ts us : List Ty) : weights (ts ++ us) = weights ts + weights us := by
  induction ts with
  | nil => simp [weights]
  | cons t rest ih => simp [weights, ih, Nat.add_assoc]

theorem weight_le_weights {t : Ty} {ts : List Ty} (h : t ∈ ts) : t.weight ≤ weights ts := by
  induction ts with
  | nil => simp at h
  | cons u rest ih =>
    rcases List.mem_cons.1 h with rfl | h
    · simp [weights]
    · have := ih h
      simp only [weights]
      omega

theorem weight_eq (t : Ty) : t.weight = weights t.supers + 1 := by
  cases t with
  | boxed kind => cases kind <;> rfl
  | _ => simp [weight, supers, weights]

theorem weight_lt_of_mem_supers {t u : Ty} (h : u ∈ t.supers) : u.weight < t.weight := by
  have := weight_le_weights h
  rw [weight_eq t]
  omega

/-- Types waiting to be visited, with their levels. -/
abbrev Queue := List (Ty × Nat)

def queueWeight (queue : Queue) : Nat := weights (queue.map (·.1))

/-- The super-types of `t`, one level above `level`. -/
def nextLevel (t : Ty) (level : Nat) : Queue := t.supers.map (·, level + 1)

theorem queueWeight_append_nextLevel (queue : Queue) (t : Ty) (level : Nat) :
    queueWeight (queue ++ nextLevel t level) < queueWeight ((t, level) :: queue) := by
  have hmap : (nextLevel t level).map (·.1) = t.supers := by simp [nextLevel, Function.comp_def]
  simp only [queueWeight, List.map_append, List.map_cons, weights, weights_append, hmap,
    weight_eq t]
  omega

theorem queueWeight_tail (queue : Queue) (t : Ty) (level : Nat) :
    queueWeight queue < queueWeight ((t, level) :: queue) := by
  simp only [queueWeight, List.map_cons, weights, weight_eq t]
  omega

/-- Level of the first waiting type with the key `target`.  A key is expanded only once. -/
def levelOf (target : TypeKey) : Queue → List TypeKey → Option Nat
  | [], _ => none
  | (t, level) :: queue, visited =>
    if t.key = target then some level
    else if t.key ∈ visited then levelOf target queue visited
    else levelOf target (queue ++ nextLevel t level) (t.key :: visited)
termination_by queue => queueWeight queue
decreasing_by
  · exact queueWeight_tail _ _ _
  · exact queueWeight_append_nextLevel _ _ _

/-- Levels from `t` up to a type with the key of `ancestor`; zero for its own key. -/
def ancestorDistance (t ancestor : Ty) : Option Nat :=
  if t.key = ancestor.key then some 0
  else levelOf ancestor.key (nextLevel t 0) []

/-- The waiting types and everything above them, each key once, after the `found` ones. -/
def collect : Queue → Queue → Queue
  | [], found => found
  | (t, level) :: queue, found =>
    if found.any (·.1.key = t.key) then collect queue found
    else collect (queue ++ nextLevel t level) (found ++ [(t, level)])
termination_by queue => queueWeight queue
decreasing_by
  · exact queueWeight_tail _ _ _
  · exact queueWeight_append_nextLevel _ _ _

/-- All proper ancestors with their levels, nearest first. -/
def ancestors (t : Ty) : Queue := collect (nextLevel t 0) []

/-- First direct super-type that is not an interface. -/
def superclass? (t : Ty) : Option Ty := t.supers.find? (!·.isInterface)

theorem weight_lt_of_superclass? {t u : Ty} (h : t.superclass? = some u) : u.weight < t.weight :=
  weight_lt_of_mem_supers (List.mem_of_find?_eq_some h)

/-- The superclasses above `t` behind the ones already in `chain`, up to the root. -/
def extendChain (t : Ty) (chain : List Ty) : List Ty :=
  match _h : t.superclass? with
  | none => chain
  | some u =>
    if u.isObject || chain.any (·.key = u.key) then chain
    else extendChain u (chain ++ [u])
termination_by t.weight
decreasing_by exact weight_lt_of_superclass? _h

/-- Superclasses, nearest first, without the type itself and the root. -/
def superclassChain (t : Ty) : List Ty := extendChain t []

end RuleExpr.Ty
