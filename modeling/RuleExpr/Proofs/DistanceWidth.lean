import RuleExpr.Proofs.InternalErrors
import RuleExpr.Proofs.NearestCommonType

/-!
# Sums of Distances

A distance is kept in 32 bits, and a library takes any distance of that width for its conversions.
Two sums go over distances that are not known in advance: the price of a written conversion is
added to the distance it was registered at, and the distances from two types to a common one are
added up.  A sum that does not fit ends the whole lookup, also where it belongs to a conversion that
would not be inserted, or to a candidate that would not be chosen.

A lookup that ends with an answer has the exact sums, and the common type that it ends with is the
nearest one.  What is said here is which lookups do: a library fails by the first call that stands
for a conversion between the two types, the common type by any of its candidates, and the
conversions that follow from the types by nothing but a hierarchy out of all proportion.
-/

namespace RuleExpr

namespace CastLibrary

variable {name : String} {calls : List (Method × Nat)} {library : CastLibrary} {a b : Ty} {c : Cast}

/-- The library that takes methods with their distances, in order. -/
def ofCalls (name : String) (calls : List (Method × Nat)) : CastLibrary :=
  calls.foldl (fun library call => (library.register call.1 call.2).2) (.empty name)

theorem register_entries (library : CastLibrary) (method : Method) (distance : Nat) :
    (library.register method distance).2.entries =
      library.entries ++ (conversion? method distance).toList := by
  rw [register]
  cases conversion? method distance with
  | none => exact (List.append_nil _).symm
  | some entry => rfl

theorem ofCalls_entries (name : String) (calls : List (Method × Nat)) :
    (ofCalls name calls).entries = calls.filterMap fun call => conversion? call.1 call.2 := by
  suffices h : ∀ library : CastLibrary,
      (calls.foldl (fun library call => (library.register call.1 call.2).2) library).entries =
        library.entries ++ calls.filterMap fun call => conversion? call.1 call.2 by
    exact h (.empty name)
  induction calls with
  | nil => exact fun library => (List.append_nil _).symm
  | cons call rest ih =>
    intro library
    rw [List.foldl_cons, ih, register_entries, List.append_assoc, List.filterMap_cons]
    cases conversion? call.1 call.2 <;> rfl

/-- The method converts from the first type to the second, implicitly or not. -/
def Converts (method : Method) (a b : Ty) (implicit : Bool) : Prop :=
  method.name = (if implicit then implicitName else explicitName) ∧
    method.params.map Ty.key = [a.key] ∧ method.returns.key = b.key

instance (method : Method) (a b : Ty) (implicit : Bool) :
    Decidable (Converts method a b implicit) :=
  inferInstanceAs (Decidable (_ ∧ _ ∧ _))

/-- What a conversion is called tells whether it is implicit. -/
def isImplicit (method : Method) : Bool := method.name = implicitName

/-- A call is a conversion between two types just if its method converts from one to the other. -/
theorem conversion?_any (method : Method) (distance : Nat) (a b : Ty) (implicit : Bool) :
    ((conversion? method distance).any fun entry => entry.implicit == implicit &&
        entry.source.key = a.key && entry.method.returns.key = b.key) =
      decide (Converts method a b implicit) := by
  have hnames : implicitName ≠ explicitName := by decide
  rw [Bool.eq_iff_iff, decide_eq_true_iff]
  unfold conversion? Converts
  split
  case h_1 source hparams =>
    rw [hparams]
    by_cases himplicit : method.name = implicitName
    · rw [if_pos himplicit, himplicit]
      cases implicit <;> simp [hnames]
    · rw [if_neg himplicit]
      by_cases hwritten : method.name = explicitName
      · rw [if_pos hwritten, hwritten]
        cases implicit <;> simp [hnames.symm]
      · rw [if_neg hwritten]
        cases implicit <;> simp [himplicit, hwritten]
  case h_2 hparams =>
    have hnot : method.params.map Ty.key ≠ [a.key] := by
      intro hkeys
      obtain ⟨source, hsource, -⟩ := List.map_eq_singleton_iff.1 hkeys
      exact hparams source hsource
    simp [hnot]

/-- The conversion of the first call that converts between two types. -/
theorem matching_ofCalls (name : String) (calls : List (Method × Nat)) (a b : Ty)
    (implicit : Bool) :
    (ofCalls name calls).matching a b implicit =
      (calls.find? fun call => Converts call.1 a b implicit).bind fun call =>
        conversion? call.1 call.2 := by
  rw [matching, ofCalls_entries, List.find?_filterMap]
  simp only [conversion?_any]

/-- The call that decides about two types: the first that converts implicitly, or else the first
that has to be written. -/
def deciding? (calls : List (Method × Nat)) (a b : Ty) : Option (Method × Nat) :=
  (calls.find? fun call => Converts call.1 a b true).or
    (calls.find? fun call => Converts call.1 a b false)

/-- What a call costs, without a width. -/
def exactCost (call : Method × Nat) : Nat :=
  if isImplicit call.1 then call.2 else Distance.explicit + call.2

theorem Converts.conversion?_eq {method : Method} {implicit : Bool}
    (h : Converts method a b implicit) (distance : Nat) :
    ∃ source, conversion? method distance = some ⟨method, source, distance, implicit⟩ := by
  obtain ⟨hname, hparams, -⟩ := h
  obtain ⟨source, hparams, -⟩ := List.map_eq_singleton_iff.1 hparams
  have hnames : explicitName ≠ implicitName := by decide
  refine ⟨source, ?_⟩
  unfold conversion?
  rw [hparams]
  cases implicit with
  | true => exact if_pos hname
  | false =>
    have hwritten : method.name = explicitName := hname
    dsimp only
    rw [if_neg (hwritten ▸ hnames), if_pos hwritten]

/-- What a library answers is known from the calls that built it. -/
theorem ofCalls_cast (hcalls : ∀ call ∈ calls, call.2 < Distance.limit) :
    (ofCalls name calls).cast a b =
      match deciding? calls a b with
      | none => .ok none
      | some call =>
        if exactCost call < Distance.limit then
          .ok (some ⟨a, b, .method call.1, isImplicit call.1, exactCost call⟩)
        else .error .overflow := by
  rw [cast, matching_ofCalls, matching_ofCalls, deciding?]
  cases hfirst : calls.find? fun call => Converts call.1 a b true with
  | some call =>
    have hconverts : Converts call.1 a b true := by simpa using List.find?_some hfirst
    have himplicit : isImplicit call.1 = true := decide_eq_true hconverts.1
    have hcost : exactCost call = call.2 := if_pos himplicit
    have hfits := hcalls call (List.mem_of_find?_eq_some hfirst)
    obtain ⟨source, hentry⟩ := hconverts.conversion?_eq call.2
    rw [Option.bind_some, hentry, Option.some_or]
    dsimp only
    rw [hcost, if_pos hfits, himplicit]
    rfl
  | none =>
    rw [Option.bind_none, Option.none_or]
    cases hwritten : calls.find? fun call => Converts call.1 a b false with
    | none => rfl
    | some call =>
      have hconverts : Converts call.1 a b false := by simpa using List.find?_some hwritten
      have hnames : explicitName ≠ implicitName := by decide
      have himplicit : isImplicit call.1 = false :=
        decide_eq_false fun hname => hnames (hconverts.1.symm.trans hname)
      have hcost : exactCost call = Distance.explicit + call.2 := by
        rw [exactCost, himplicit]
        rfl
      obtain ⟨source, hentry⟩ := hconverts.conversion?_eq call.2
      rw [Option.bind_some, hentry]
      dsimp only
      rw [hcost, himplicit, Distance.add]
      split <;> rfl

/-- A library fails by the call that decides, if that call and the price do not fit together. -/
theorem ofCalls_cast_eq_error_iff (hcalls : ∀ call ∈ calls, call.2 < Distance.limit)
    {e : CastError} :
    (ofCalls name calls).cast a b = .error e ↔
      e = .overflow ∧ ∃ call ∈ deciding? calls a b, Distance.limit ≤ exactCost call := by
  rw [ofCalls_cast hcalls]
  cases deciding? calls a b with
  | none => simp
  | some call =>
    by_cases hfits : exactCost call < Distance.limit
    · simp [hfits, Nat.not_le.2 hfits]
    · simp [hfits, Nat.not_lt.1 hfits, eq_comm]

/-- A cast of a library has the exact cost of the call that decides, and this fits. -/
theorem ofCalls_cast_eq_some (hcalls : ∀ call ∈ calls, call.2 < Distance.limit)
    (h : (ofCalls name calls).cast a b = .ok (some c)) :
    ∃ call ∈ deciding? calls a b, c = ⟨a, b, .method call.1, isImplicit call.1, exactCost call⟩ ∧
      c.distance < Distance.limit := by
  rw [ofCalls_cast hcalls] at h
  split at h
  case h_1 => cases h
  case h_2 call hcall =>
    split at h
    case isTrue hfits =>
      cases h
      exact ⟨call, hcall, rfl, hfits⟩
    case isFalse => cases h

end CastLibrary

namespace Registry

variable {r : Registry} {a b t : Ty} {sum : Nat}

theorem firstCast_append {before rest : List Provider}
    (h : ∀ p ∈ before, p.cast a b = .ok none) :
    firstCast a b (before ++ rest) = firstCast a b rest := by
  induction before with
  | nil => rfl
  | cons p before ih =>
    rw [List.forall_mem_cons] at h
    rw [List.cons_append, firstCast, h.1]
    exact ih h.2

/-- A registry hands on what a library answers, if no provider before it has a cast. -/
theorem cast_eq_library {library : CastLibrary} {before after : List Provider}
    (hr : r.providers = before ++ library.provider :: after)
    (hbefore : ∀ p ∈ before, p.cast a b = .ok none) (hanswer : library.cast a b ≠ .ok none) :
    r.cast a b = library.cast a b := by
  rw [cast, hr, firstCast_append hbefore, firstCast]
  change (library.cast a b >>= _) = _
  rcases hcast : library.cast a b with e | (_ | c)
  case error => rfl
  case ok.none => exact absurd hcast hanswer
  case ok.some => exact if_pos (CastLibrary.cast_endpoints hcast)

/-- The sum of the distances from two types to a third, without a width. -/
def exactSum? (r : Registry) (a b t : Ty) : Option Nat :=
  (r.cost? a b t).map fun cost => (ofLex cost).1

theorem exactSum?_eq_some_iff : r.exactSum? a b t = some sum ↔
    ∃ f g, r.implicitCast a t = .ok (some f) ∧ r.implicitCast b t = .ok (some g) ∧
      sum = f.distance + g.distance := by
  have hdistance (a : Ty) (distance : Nat) : r.distance? a t = some distance ↔
      ∃ f, r.implicitCast a t = .ok (some f) ∧ f.distance = distance := by
    unfold distance?
    cases r.implicitCast a t with
    | error => simp
    | ok cast? => simp [Option.map_eq_some_iff]
  constructor
  · intro h
    obtain ⟨cost, hcost, rfl⟩ := Option.map_eq_some_iff.1 h
    obtain ⟨fromA, hfromA, hcost⟩ := Option.bind_eq_some_iff.1 hcost
    obtain ⟨fromB, hfromB, hcost⟩ := Option.bind_eq_some_iff.1 hcost
    cases hcost
    obtain ⟨f, hf, rfl⟩ := (hdistance a fromA).1 hfromA
    obtain ⟨g, hg, rfl⟩ := (hdistance b fromB).1 hfromB
    exact ⟨f, g, hf, hg, rfl⟩
  · rintro ⟨f, g, hf, hg, rfl⟩
    rw [exactSum?, cost?, (hdistance a _).2 ⟨f, hf, rfl⟩, (hdistance b _).2 ⟨g, hg, rfl⟩]
    rfl

/-- A score is the exact sum, where there is one. -/
theorem total_of_score? {score : Score} (h : r.score? a b t = .ok (some score)) :
    r.exactSum? a b t = some score.total := by
  obtain ⟨f, g, hf, hg, -, rfl⟩ := score?_eq_some_iff.1 h
  exact exactSum?_eq_some_iff.2 ⟨f, g, hf, hg, rfl⟩

/-- A candidate with a sum that is looked up without a failure has that sum for its score. -/
theorem score?_of_exactSum? {score? : Option Score} (hscore : r.score? a b t = .ok score?)
    (h : r.exactSum? a b t = some sum) : ∃ score ∈ score?, score.total = sum := by
  obtain ⟨f, g, hf, hg, rfl⟩ := exactSum?_eq_some_iff.1 h
  by_cases hfits : f.distance + g.distance < Distance.limit
  · rw [score?_eq_some_iff.2 ⟨f, g, hf, hg, hfits, rfl⟩] at hscore
    cases hscore
    exact ⟨_, rfl, rfl⟩
  · have hexceeds : r.Exceeds a b t := ⟨f, g, hf, hg, Nat.not_lt.1 hfits⟩
    rw [score?_eq_error_iff.2 (.inr (.inr ⟨rfl, hexceeds⟩))] at hscore
    cases hscore

/-- A candidate fails by the lookup of either conversion, or by the sum of their distances. -/
theorem score?_fails_iff : (∃ e, r.score? a b t = .error e) ↔
    (∃ e, r.implicitCast a t = .error e) ∨ (∃ e, r.implicitCast b t = .error e) ∨
      r.Exceeds a b t := by
  constructor
  · rintro ⟨e, hfails⟩
    rcases score?_eq_error_iff.1 hfails with hfails | ⟨-, hfails⟩ | ⟨-, hexceeds⟩
    · exact .inl ⟨e, hfails⟩
    · exact .inr (.inl ⟨e, hfails⟩)
    · exact .inr (.inr hexceeds)
  · rintro (⟨e, hfails⟩ | ⟨e, hfails⟩ | hexceeds)
    · exact ⟨e, score?_eq_error_iff.2 (.inl hfails)⟩
    · -- The first of the two conversions that fails decides on the error.
      cases hfirst : r.implicitCast a t with
      | error e' => exact ⟨e', score?_eq_error_iff.2 (.inl hfirst)⟩
      | ok f? => exact ⟨e, score?_eq_error_iff.2 (.inr (.inl ⟨⟨f?, hfirst⟩, hfails⟩))⟩
    · exact ⟨.overflow, score?_eq_error_iff.2 (.inr (.inr ⟨rfl, hexceeds⟩))⟩

/-- The common type of types of different keys is looked up without a failure just if every
candidate is; types of one key are not looked up. -/
theorem commonType_fails_iff : (∃ e, r.commonType a b = .error e) ↔
    a.key ≠ b.key ∧ ∃ t ∈ r.candidates a b, ∃ e, r.score? a b t = .error e := by
  constructor
  · rintro ⟨e, hfails⟩
    obtain ⟨hkey, t, ht, hscore⟩ := commonType_eq_error hfails
    exact ⟨hkey, t, ht, e, hscore⟩
  · rintro ⟨hkey, t, ht, e, hscore⟩
    cases hcommon : r.commonType a b with
    | error e' => exact ⟨e', rfl⟩
    | ok t? =>
      obtain ⟨score?, hanswer⟩ := exists_score_of_commonType hkey hcommon ht
      cases hscore.symm.trans hanswer

theorem left_mem_candidates (r : Registry) (a b : Ty) : a ∈ r.candidates a b := by
  rw [candidates_eq, named, ← List.singleton_append]
  have hkept := firstsBy_prefix Ty.key [a]
    (b :: r.providers.flatMap fun p => p.targets a ++ p.targets b)
  exact hkept.subset (List.mem_singleton_self a)

theorem implicitCast_of_key_eq (hkey : a.key = b.key) :
    r.implicitCast a b = .ok (some (.identity a)) :=
  if_pos hkey

/-- A common type has the least sum of all candidates. -/
theorem commonType_least (h : r.commonType a b = .ok (some t)) :
    t ∈ r.candidates a b ∧ ∃ sum, r.exactSum? a b t = some sum ∧
      ∀ u ∈ r.candidates a b, ∀ other ∈ r.exactSum? a b u, sum ≤ other := by
  by_cases hkey : a.key = b.key
  · -- Both types are the common one already, at no distance.
    rw [commonType_of_key_eq hkey] at h
    cases h
    have hsum : r.exactSum? a b a = some 0 := exactSum?_eq_some_iff.2
      ⟨_, _, implicitCast_of_key_eq rfl, implicitCast_of_key_eq hkey.symm, rfl⟩
    exact ⟨r.left_mem_candidates a b, 0, hsum, fun _ _ other _ => Nat.zero_le other⟩
  obtain ⟨hmem, score, hscore, hleast⟩ := nearest_of_commonType hkey h
  refine ⟨hmem, score.total, total_of_score? hscore, fun u hu other hother => ?_⟩
  obtain ⟨score?, hanswer⟩ := exists_score_of_commonType hkey h hu
  obtain ⟨rival, rfl, rfl⟩ := score?_of_exactSum? hanswer hother
  have hnot := hleast u hu rival hanswer
  rw [← Bool.not_eq_true, Score.better_iff] at hnot
  omega

/-- Where there is no common type, no candidate is reached from both types. -/
theorem exactSum?_of_no_commonType (h : r.commonType a b = .ok none)
    (ht : t ∈ r.candidates a b) : r.exactSum? a b t = none := by
  have hkey : a.key ≠ b.key := by
    intro hsame
    rw [commonType_of_key_eq hsame] at h
    cases h
  obtain ⟨best?, hbest, hanswer⟩ := commonType_eq_ok hkey h
  obtain rfl : best? = none := Option.map_eq_none_iff.1 hanswer
  obtain ⟨score?, hscore⟩ := exists_score_of_bestOf hbest ht
  cases hsum : r.exactSum? a b t with
  | none => rfl
  | some sum =>
    obtain ⟨score, rfl, -⟩ := score?_of_exactSum? hscore hsum
    obtain ⟨_, hchosen, -⟩ := (bestOf_spec hbest).2 (score, t) (.inr ⟨ht, hscore⟩)
    cases hchosen

end Registry

/-- When the lookups of a registry with a library fail for the width of a distance.  Between two
types the library fails exactly if the call that decides about them costs, with the price, more than
fits; every other cast has its exact cost, and the registry hands on either.  The lookup of the
common type fails exactly if the keys of the types differ and one of the candidates cannot be
scored, by a lookup or by the sum of the two distances; what is found otherwise has the least exact
sum, and there is nothing to be found where nothing is found.  The casts that follow from the types
contain the price where they have to be written, and fit as long as the price and the levels
between the two types do. -/
theorem distance_sums_overflow_iff {name : String} {calls : List (Method × Nat)}
    (hcalls : ∀ call ∈ calls, call.2 < Distance.limit) {r : Registry} {before after : List Provider}
    (hr : r.providers = before ++ (CastLibrary.ofCalls name calls).provider :: after) {a b : Ty} :
    (∀ e, (CastLibrary.ofCalls name calls).cast a b = .error e ↔ e = .overflow ∧
      ∃ call ∈ CastLibrary.deciding? calls a b, Distance.limit ≤ CastLibrary.exactCost call) ∧
    (∀ c, (CastLibrary.ofCalls name calls).cast a b = .ok (some c) →
      ∃ call ∈ CastLibrary.deciding? calls a b,
        c = ⟨a, b, .method call.1, CastLibrary.isImplicit call.1, CastLibrary.exactCost call⟩ ∧
        c.distance < Distance.limit) ∧
    ((∀ p ∈ before, p.cast a b = .ok none) →
      (CastLibrary.ofCalls name calls).cast a b ≠ .ok none →
        r.cast a b = (CastLibrary.ofCalls name calls).cast a b) ∧
    ((∃ e, r.commonType a b = .error e) ↔ a.key ≠ b.key ∧ ∃ t ∈ r.candidates a b,
      (∃ e, r.implicitCast a t = .error e) ∨ (∃ e, r.implicitCast b t = .error e) ∨
        r.Exceeds a b t) ∧
    (∀ t, r.commonType a b = .ok (some t) → t ∈ r.candidates a b ∧
      ∃ sum, r.exactSum? a b t = some sum ∧
        ∀ u ∈ r.candidates a b, ∀ other ∈ r.exactSum? a b u, sum ≤ other) ∧
    (r.commonType a b = .ok none → ∀ t ∈ r.candidates a b, r.exactSum? a b t = none) ∧
    ∀ c, structuralCast a b = some c →
      (c.implicit = false → Distance.explicit ≤ c.distance) ∧
      (Distance.explicit + a.levelsBetween b * Distance.upcastStep < Distance.limit →
        c.distance < Distance.limit) := by
  refine ⟨fun e => CastLibrary.ofCalls_cast_eq_error_iff hcalls,
    fun c => CastLibrary.ofCalls_cast_eq_some hcalls, Registry.cast_eq_library hr, ?_,
    fun t => Registry.commonType_least,
    fun h t => Registry.exactSum?_of_no_commonType h,
    fun c hc => ⟨structuralCast_price hc, ?_⟩⟩
  · simp only [Registry.commonType_fails_iff, Registry.score?_fails_iff]
  · intro hfits
    have hsmall : 1000 < Distance.limit := by decide
    exact Nat.lt_of_le_of_lt (structuralCast_distance_le hc) (max_lt hsmall hfits)

theorem Ty.eq_primitive {t : Ty} {kind : Primitive} (h : t.primitive? = some kind) :
    t = .primitive kind := by
  cases t with
  | primitive =>
    cases h
    rfl
  | _ => cases h

namespace FarConversions

/-- A conversion method. -/
def conversion (id : Nat) (name : String) (source target : Ty) : Method :=
  .native ⟨id, name, [source], target, "Far", .static, none⟩ fun _ _ => .ok .null

abbrev byte : Ty := .primitive .byte

/-- The largest distance. -/
def farthest : Nat := Distance.limit - 1

def calls : List (Method × Nat) :=
  [(conversion 0 "autocast" .int .boolean, farthest), (conversion 1 "autocast" byte .boolean, 1),
    (conversion 2 "cast" .boolean byte, farthest)]

def registry : Registry := ⟨[(CastLibrary.ofCalls "far" calls).provider, .structural]⟩

theorem distances_lt : ∀ call ∈ calls, call.2 < Distance.limit := by decide

/-- What comes out for an integer and a byte. -/
theorem outcomes :
    (registry.commonType .int byte).map (fun _ => ()) = .error .overflow ∧
    some .boolean ∈ (registry.candidates .int byte).map Ty.primitive? ∧
    registry.exactSum? .int byte .int = some 2 ∧
    registry.exactSum? .int byte .boolean = some Distance.limit := by
  decide +kernel

theorem boolean_mem_candidates : .boolean ∈ registry.candidates .int byte := by
  obtain ⟨t, ht, hboolean⟩ := List.mem_map.1 outcomes.2.1
  rwa [Ty.eq_primitive hboolean] at ht

end FarConversions

open FarConversions in
/-- The written conversion of a library does not fit, and neither does the sum for one candidate of
two types; what need not be written has the distance that it was registered at. -/
theorem distance_sums_overflow_iff_far :
    (∀ call ∈ calls, call.2 < Distance.limit) ∧
    registry.providers = [] ++ (CastLibrary.ofCalls "far" calls).provider :: [.structural] ∧
    registry.cast .boolean byte = .error .overflow ∧
    (∃ e, registry.commonType .int byte = .error e) ∧
    ∃ c, (CastLibrary.ofCalls "far" calls).cast .int .boolean = .ok (some c) ∧
      c.distance = farthest := by
  have hr : registry.providers = [] ++ (CastLibrary.ofCalls "far" calls).provider ::
      [.structural] := rfl
  obtain ⟨-, -, -, hcommon, -⟩ := distance_sums_overflow_iff distances_lt hr (a := .int) (b := byte)
  obtain ⟨hfails, -, hhands, -⟩ :=
    distance_sums_overflow_iff distances_lt hr (a := .boolean) (b := byte)
  obtain ⟨-, hcosts, -⟩ :=
    distance_sums_overflow_iff distances_lt hr (a := .int) (b := .boolean)
  refine ⟨distances_lt, hr, ?_, hcommon.2 ⟨by decide, ?_⟩, ?_⟩
  · have hlibrary : (CastLibrary.ofCalls "far" calls).cast .boolean byte = .error .overflow := by
      refine (hfails _).2 ⟨rfl, (conversion 2 "cast" .boolean byte, farthest), rfl, ?_⟩
      decide
    rw [hhands (List.forall_mem_nil _) (by simp [hlibrary]), hlibrary]
  · refine ⟨.boolean, boolean_mem_candidates, .inr (.inr ?_)⟩
    exact ⟨_, _, rfl, rfl, by decide⟩
  · have hanswers : ∃ c, (CastLibrary.ofCalls "far" calls).cast .int .boolean = .ok (some c) :=
      ⟨_, rfl⟩
    obtain ⟨c, hc⟩ := hanswers
    obtain ⟨call, hcall, rfl, -⟩ := hcosts c hc
    cases hcall
    exact ⟨_, hc, rfl⟩

open FarConversions in
/-- Two types with a sum of two for one candidate have no common type, as the sum for another one
does not fit, and a conversion with a price does not fit either. -/
theorem common_type_out_of_width :
    registry.commonType .int byte = .error .overflow ∧
    .int ∈ registry.candidates .int byte ∧ registry.exactSum? .int byte .int = some 2 ∧
    .boolean ∈ registry.candidates .int byte ∧
    registry.exactSum? .int byte .boolean = some Distance.limit ∧
    registry.cast .boolean byte = .error .overflow := by
  obtain ⟨hfails, -, hint, hboolean⟩ := outcomes
  exact ⟨eq_error_of_map hfails, registry.left_mem_candidates .int byte, hint,
    boolean_mem_candidates, hboolean, rfl⟩

end RuleExpr
