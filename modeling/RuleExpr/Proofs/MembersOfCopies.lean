import RuleExpr.Proofs.Cast.Copies
import RuleExpr.Proofs.InheritedMembers
import RuleExpr.Proofs.Soundness.Types

/-!
# Members of Copies

Copies of a type may be declared with members of their own.  Where types of one key declare fields
of the same names and types, and methods and constructors that a caller cannot tell apart, lookup by
name finds such members on either copy, and a call is resolved alike among them.
-/

namespace RuleExpr

open List (Forall₂)

/-- A caller cannot tell the methods apart. -/
structure Method.Alike (m m' : Method) : Prop where
  name : m.name = m'.name
  params : Forall₂ Ty.IsCopy m.params m'.params
  returns : m.returns.IsCopy m'.returns

/-- Fields of one name and type, with the names that they are listed under. -/
def Field.Alike (entry entry' : String × Field) : Prop :=
  entry.1 = entry'.1 ∧ entry.2.ty.IsCopy entry'.2.ty

structure Members.Alike (m m' : Members) : Prop where
  fields : Forall₂ Field.Alike m.fields m'.fields
  methods : Forall₂ Method.Alike m.methods m'.methods
  constructors : Forall₂ Method.Alike m.constructors m'.constructors

theorem Members.Alike.refl (m : Members) : m.Alike m where
  fields := List.forall₂_same.2 fun _ _ => ⟨rfl, .refl _⟩
  methods := List.forall₂_same.2 fun _ _ => ⟨rfl, List.forall₂_same.2 fun _ _ => .refl _, .refl _⟩
  constructors :=
    List.forall₂_same.2 fun _ _ => ⟨rfl, List.forall₂_same.2 fun _ _ => .refl _, .refl _⟩

/-- A program in whose types those of one key are copies of one another, with members that look
alike. -/
structure Program.Uniform (P : Program) (O : Ty → Prop) : Prop extends P.TypesIn O where
  isCopy : ∀ {t u : Ty}, O t → O u → t.key = u.key → t.IsCopy u
  members : ∀ {t u : Ty}, O t → O u → t.key = u.key →
    (P.declarations.membersOf t).Alike (P.declarations.membersOf u)

theorem Program.Uniform.types {P : Program} {O : Ty → Prop} (h : P.Uniform O) : Ty.Uniform O :=
  ⟨h.toClosed, h.isCopy⟩

theorem forall₂_copies_iff {ts us : List Ty} :
    Forall₂ Ty.IsCopy ts us ↔ ts.map Ty.unnumbered = us.map Ty.unnumbered := by
  rw [← List.forall₂_eq_eq_eq, List.forall₂_map_left_iff, List.forall₂_map_right_iff]
  rfl

theorem keys_eq_of_copies {ts us : List Ty} (h : Forall₂ Ty.IsCopy ts us) :
    ts.map Ty.key = us.map Ty.key := by
  have hkeys := congrArg (List.map Ty.key) (forall₂_copies_iff.1 h)
  simpa only [List.map_map, Function.comp_def, Ty.key_unnumbered] using hkeys

theorem Ty.IsCopy.supers {t u : Ty} (h : t.IsCopy u) : Forall₂ Ty.IsCopy t.supers u.supers := by
  rw [forall₂_copies_iff, ← Ty.supers_unnumbered, h, Ty.supers_unnumbered]

namespace Method.Alike

variable {m m' : Method}

theorem refl (m : Method) : m.Alike m :=
  ⟨rfl, forall₂_copies_iff.2 rfl, Ty.IsCopy.refl _⟩

theorem key_eq (h : m.Alike m') : m.key = m'.key :=
  congrArg₂ MethodKey.mk h.name (keys_eq_of_copies h.params)

end Method.Alike

namespace Declarations

theorem get?_alike {table table' : List (String × Field)} (h : Forall₂ Field.Alike table table')
    (name : String) : Option.Rel (fun f f' => f.ty.IsCopy f'.ty) (Assoc.get? table name)
      (Assoc.get? table' name) := by
  induction h with
  | nil => exact .none
  | @cons entry entry' rest rest' hentry _ ih =>
    rw [Assoc.get?_cons, Assoc.get?_cons, ← hentry.1]
    split
    · exact .some hentry.2
    · exact ih

/-- An inherited method is hidden by its key, which copies share. -/
theorem addInherited_alike {methods methods' inherited inherited' : List Method}
    (h : Forall₂ Method.Alike methods methods') (h' : Forall₂ Method.Alike inherited inherited') :
    Forall₂ Method.Alike (addInherited methods inherited) (addInherited methods' inherited') := by
  unfold addInherited
  induction h' generalizing methods methods' with
  | nil => exact h
  | @cons m m' rest rest' hm _ ih =>
    have hany : (methods.any (·.key = m.key)) = methods'.any (·.key = m'.key) := by
      rw [hm.key_eq]
      clear ih
      induction h with
      | nil => rfl
      | cons hfirst _ ihRest => rw [List.any_cons, List.any_cons, hfirst.key_eq, ihRest]
    refine ih ?_
    simp only [hany]
    split
    · exact h
    · exact List.rel_append h (.cons hm .nil)

end Declarations

namespace Program.Uniform

open Declarations

variable {P : Program} {O : Ty → Prop} {name : String} (hP : P.Uniform O)

include hP

/-- A field is found with the same type on copies. -/
theorem field?_alike {t u : Ty} (ht : O t) (hu : O u) (h : t.IsCopy u) (name : String) :
    Option.Rel (fun f f' => f.ty.IsCopy f'.ty) (P.declarations.field? t name)
      (P.declarations.field? u name) := by
  induction t using Ty.inductionOnSupers generalizing u with
  | step t ih =>
    have hinherited {ts us : List Ty} (hall : Forall₂ Ty.IsCopy ts us) (hts : ts ⊆ t.supers)
        (hus : us ⊆ u.supers) : Option.Rel (fun f f' => f.ty.IsCopy f'.ty)
          (ts.findSome? (P.declarations.field? · name))
          (us.findSome? (P.declarations.field? · name)) := by
      induction hall with
      | nil => exact .none
      | @cons v w rest rest' hcopy _ ihRest =>
        rw [List.cons_subset] at hts hus
        have hfirst := ih v hts.1 (hP.super ht hts.1) (hP.super hu hus.1) hcopy
        rw [List.findSome?_cons, List.findSome?_cons]
        match P.declarations.field? v name, P.declarations.field? w name, hfirst with
        | some f, some f', hfound => exact hfound
        | none, none, _ => exact ihRest hts.2 hus.2
    have hown := get?_alike (hP.members ht hu h.key_eq).fields name
    rw [field?_eq, field?_eq]
    change Option.Rel _ ((Assoc.get? (P.declarations.membersOf t).fields name).or _)
      ((Assoc.get? (P.declarations.membersOf u).fields name).or _)
    match Assoc.get? (P.declarations.membersOf t).fields name,
      Assoc.get? (P.declarations.membersOf u).fields name, hown with
    | some f, some f', hfound => exact hfound
    | none, none, _ => exact hinherited h.supers (List.Subset.refl _) (List.Subset.refl _)

/-- The methods of a name look alike on copies. -/
theorem methodsNamed_alike {t u : Ty} (ht : O t) (hu : O u) (h : t.IsCopy u) :
    Forall₂ Method.Alike (P.declarations.methodsNamed t name)
      (P.declarations.methodsNamed u name) := by
  induction t using Ty.inductionOnSupers generalizing u with
  | step t ih =>
    have hinherited {ts us : List Ty} {methods methods' : List Method}
        (hall : Forall₂ Ty.IsCopy ts us) (hts : ts ⊆ t.supers) (hus : us ⊆ u.supers)
        (hmethods : Forall₂ Method.Alike methods methods') : Forall₂ Method.Alike
          (ts.foldl (fun methods v =>
            addInherited methods (P.declarations.methodsNamed v name)) methods)
          (us.foldl (fun methods v =>
            addInherited methods (P.declarations.methodsNamed v name)) methods') := by
      induction hall generalizing methods methods' with
      | nil => exact hmethods
      | @cons v w rest rest' hcopy _ ihRest =>
        rw [List.cons_subset] at hts hus
        have hfirst := ih v hts.1 (hP.super ht hts.1) (hP.super hu hus.1) hcopy
        exact ihRest hts.2 hus.2 (addInherited_alike hmethods hfirst)
    have hown : Forall₂ Method.Alike (P.declarations.ownMethodsNamed t name)
        (P.declarations.ownMethodsNamed u name) :=
      List.rel_filter (fun m m' hm => by simp only [hm.name]) (hP.members ht hu h.key_eq).methods
    rw [methodsNamed_eq, methodsNamed_eq]
    exact hinherited h.supers (List.Subset.refl _) (List.Subset.refl _) hown

end Program.Uniform

/-- Selections of methods that look alike, with the same conversions between copies. -/
structure Selection.Alike (s s' : Selection) : Prop where
  method : s.method.Alike s'.method
  casts : Forall₂ Cast.IsCopy s.casts s'.casts
  distance : s.distance = s'.distance

inductive Resolution.Alike : Resolution → Resolution → Prop
  | found {s s' : Selection} (h : s.Alike s') : Alike (.found s) (.found s')
  | notFound : Alike .notFound .notFound
  | ambiguous (methods methods' : List Method) : Alike (.ambiguous methods) (.ambiguous methods')

namespace Overload

variable {r : Registry} (hr : r.IgnoresNumbers) (name : String) {arguments arguments' : List Ty}

theorem totalDistance_alike {casts casts' : List Cast} (h : Forall₂ Cast.IsCopy casts casts') :
    totalDistance casts = totalDistance casts' := by
  have hfold (start : Nat) :
      casts.foldl (fun total cast => Distance.addSaturating total cast.distance) start =
        casts'.foldl (fun total cast => Distance.addSaturating total cast.distance) start := by
    induction h generalizing start with
    | nil => rfl
    | cons hcast _ ih => rw [List.foldl_cons, List.foldl_cons, hcast.distance_eq, ih]
  exact hfold 0

include hr

/-- Arguments are converted up to the first that cannot be, which has the same position. -/
theorem convertArguments_alike {params params' : List Ty}
    (harguments : Forall₂ Ty.IsCopy arguments arguments')
    (hparams : Forall₂ Ty.IsCopy params params') :
    ExceptRel (Option.Rel (Forall₂ Cast.IsCopy)) (convertArguments r arguments params)
      (convertArguments r arguments' params') := by
  induction harguments generalizing params params' with
  | nil =>
    unfold convertArguments
    exact .ok (.some .nil)
  | @cons a a' rest rest' ha _ ih =>
    cases hparams with
    | nil => exact .ok (.some .nil)
    | @cons p p' ps ps' hp hps =>
      unfold convertArguments
      have hfirst := hr.implicitCast_isCopy ha hp
      generalize r.implicitCast a p = c?, r.implicitCast a' p' = c?' at hfirst ⊢
      rcases hfirst with ⟨hc | _⟩ | e
      case error => exact .error e
      case ok.none => exact .ok .none
      case ok.some =>
        have hall := ih hps
        generalize convertArguments r rest ps = cs?, convertArguments r rest' ps' = cs?' at hall ⊢
        rcases hall with ⟨hcs | _⟩ | e
        case error => exact .error e
        case ok.none => exact .ok .none
        case ok.some => exact .ok (.some (.cons hc hcs))

theorem select?_alike {m m' : Method} (hm : m.Alike m')
    (harguments : Forall₂ Ty.IsCopy arguments arguments') :
    ExceptRel (Option.Rel Selection.Alike) (select? r name arguments m)
      (select? r name arguments' m') := by
  have harity : m.arity = m'.arity := hm.params.length_eq
  unfold select?
  rw [← hm.name, ← harity, ← harguments.length_eq]
  split
  · match convertArguments r arguments m.params, convertArguments r arguments' m'.params,
      convertArguments_alike hr harguments hm.params with
    | .error e, .error _, .error _ => exact .error e
    | .ok none, .ok none, .ok .none => exact .ok .none
    | .ok (some cs), .ok (some cs'), .ok (.some hcs) =>
      exact .ok (.some ⟨hm, hcs, totalDistance_alike hcs⟩)
  · exact .ok .none

omit hr in
theorem keepNearest_alike {best best' : List Selection} {s s' : Selection}
    (hbest : Forall₂ Selection.Alike best best') (hs : s.Alike s') :
    Forall₂ Selection.Alike (keepNearest best s) (keepNearest best' s') := by
  cases hbest with
  | nil => exact .cons hs .nil
  | cons hcurrent hrest =>
    simp only [keepNearest, hcurrent.distance, hs.distance]
    split
    · exact .cons hcurrent hrest
    · split
      · exact List.rel_append (.cons hcurrent hrest) (.cons hs .nil)
      · exact .cons hs .nil

theorem nearest_alike {candidates candidates' : List Method} {best best' : List Selection}
    (hcandidates : Forall₂ Method.Alike candidates candidates')
    (harguments : Forall₂ Ty.IsCopy arguments arguments')
    (hbest : Forall₂ Selection.Alike best best') :
    ExceptRel (Forall₂ Selection.Alike) (nearest r name arguments candidates best)
      (nearest r name arguments' candidates' best') := by
  induction hcandidates generalizing best best' with
  | nil => exact .ok hbest
  | @cons m m' rest rest' hm _ ih =>
    unfold nearest
    have hselect := select?_alike hr name hm harguments
    generalize select? r name arguments m = s?, select? r name arguments' m' = s?' at hselect ⊢
    rcases hselect with ⟨hs | _⟩ | e
    case error => exact .error e
    case ok.none => exact ih hbest
    case ok.some => exact ih (keepNearest_alike hbest hs)

/-- A call among methods that look alike, of arguments of copies, is resolved alike. -/
theorem resolve_alike {candidates candidates' : List Method}
    (hcandidates : Forall₂ Method.Alike candidates candidates')
    (harguments : Forall₂ Ty.IsCopy arguments arguments') :
    ExceptRel Resolution.Alike (resolve r candidates name arguments)
      (resolve r candidates' name arguments') := by
  unfold resolve
  match nearest r name arguments candidates [], nearest r name arguments' candidates' [],
    nearest_alike hr name hcandidates harguments .nil with
  | .error e, .error _, .error _ => exact .error e
  | .ok [], .ok [], _ => exact .ok .notFound
  | .ok [s], .ok [s'], .ok (.cons hs .nil) => exact .ok (.found hs)
  | .ok (_ :: _ :: _), .ok (_ :: _ :: _), _ => exact .ok (.ambiguous _ _)

end Overload

end RuleExpr
