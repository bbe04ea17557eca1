import Mathlib.Algebra.GroupWithZero.Nat
import Mathlib.Data.List.MinMax
import RuleExpr.Proofs.InternalErrors
import RuleExpr.Proofs.Overload

/-!
# The Nearest Overload

Resolution goes through the candidates once and keeps the nearest of those it has seen.  What comes
out is a fact about the whole list: the applicable candidates at the least distance, in their order.
Nothing is found if there is none, a single one is found, and several are ambiguous.  The order of
the candidates is thus of no account, except for the order in which ambiguous ones are listed.

The registry is any one whose providers answer, with the end points they are asked for.
-/

namespace RuleExpr

/-- The cast that a provider answers with, if any. -/
def Provider.cast? (p : Provider) (a b : Ty) : Option Cast := (p.cast a b).toOption.join

/-- The providers answer, with the end points they are asked for. -/
def Registry.Accurate (r : Registry) : Prop :=
  ∀ p ∈ r.providers, ∀ a b : Ty, ∃ cast?, p.cast a b = .ok cast? ∧
    ∀ c ∈ cast?, c.source.key = a.key ∧ c.target.key = b.key

namespace Registry

variable {r : Registry} {a b : Ty} {c : Cast}

/-- The first provider that has a cast decides. -/
theorem Accurate.cast_eq (h : r.Accurate) (a b : Ty) :
    r.cast a b = .ok (r.providers.findSome? (·.cast? a b)) := by
  obtain ⟨providers⟩ := r
  rw [cast]
  induction providers with
  | nil => rfl
  | cons p rest ih =>
    have hrest := ih fun q hq => h q (List.mem_cons_of_mem _ hq)
    obtain ⟨cast?, hcast, hkeys⟩ := h p List.mem_cons_self a b
    rw [firstCast, List.findSome?_cons, Provider.cast?, hcast]
    cases cast? with
    | none => exact hrest
    | some c => exact if_pos (hkeys c rfl)

theorem Accurate.answers (h : r.Accurate) : r.Answers := fun a b => ⟨_, h.cast_eq a b⟩

/-- An implicit cast is the identity between types of one key, and an implicit one of the first
provider that has a cast otherwise. -/
theorem Accurate.implicitCast_eq_some_iff (h : r.Accurate) :
    r.implicitCast a b = .ok (some c) ↔
      a.key = b.key ∧ c = .identity a ∨
        a.key ≠ b.key ∧ r.providers.findSome? (·.cast? a b) = some c ∧ c.implicit = true := by
  rw [implicitCast, h.cast_eq]
  by_cases hkey : a.key = b.key
  · rw [if_pos hkey, Except.ok.injEq, Option.some.injEq]
    simp only [hkey, true_and, ne_eq, not_true, false_and, or_false]
    exact eq_comm
  · rw [if_neg hkey]
    change Except.ok ((r.providers.findSome? (·.cast? a b)).filter (·.implicit)) = .ok (some c) ↔ _
    simp [hkey, Option.filter_eq_some_iff]

theorem implicitCast_endpoints (hcast : r.implicitCast a b = .ok (some c)) :
    c.source.key = a.key ∧ c.target.key = b.key := by
  rcases implicitCast_eq_some hcast with ⟨hkey, rfl⟩ | hcast
  · exact ⟨rfl, hkey⟩
  · exact cast_endpoints hcast

end Registry

/-- The casts of a library fit if the price does for those that have to be written. -/
theorem CastLibrary.provider_accurate {library : CastLibrary}
    (h : ∀ entry ∈ library.entries, entry.implicit = false →
      Distance.explicit + entry.distance < Distance.limit) (a b : Ty) :
    ∃ cast?, library.provider.cast a b = .ok cast? ∧
      ∀ c ∈ cast?, c.source.key = a.key ∧ c.target.key = b.key := by
  cases hanswer : library.cast a b with
  | ok cast? =>
    refine ⟨cast?, hanswer, ?_⟩
    rintro c rfl
    exact cast_endpoints hanswer
  | error e =>
    obtain ⟨-, -, entry, hentry, hlimit⟩ := cast_eq_error_iff.1 hanswer
    have hfits := h entry (matching_spec hentry).1 (matching_implicit hentry)
    exact absurd hlimit (Nat.not_le.2 hfits)

theorem Library.registry_accurate : Library.registry.Accurate := by
  intro p hp a b
  rcases List.mem_cons.1 hp with rfl | hp
  · exact ⟨_, rfl, fun c hc => (structuralCast_structural hc).endpoints⟩
  · rw [List.mem_singleton.1 hp]
    refine CastLibrary.provider_accurate (fun entry hentry _ => ?_) a b
    have hle := conversion_distance_le entry hentry
    exact Nat.lt_of_le_of_lt (Nat.add_le_add_left hle _) (by decide)

namespace Overload

variable {r : Registry} {name : String} {arguments params : List Ty} {casts : List Cast}

theorem convertArguments_of_converts (h : Converts r arguments params casts) :
    convertArguments r arguments params = .ok (some casts) := by
  induction h with
  | nil => rfl
  | cons hcast _ ih =>
    rw [convertArguments, hcast]
    simp only [ih]
    rfl

/-- The casts lead from the arguments to the parameters, in order. -/
theorem Converts.endpoints (h : Converts r arguments params casts) :
    casts.map (·.source.key) = arguments.map (·.key) ∧
      casts.map (·.target.key) = params.map (·.key) := by
  induction h with
  | nil => exact ⟨rfl, rfl⟩
  | cons hcast _ ih =>
    obtain ⟨hsource, htarget⟩ := Registry.implicitCast_endpoints hcast
    simp only [List.map_cons, hsource, htarget, ih, and_self]

/-- The sum of the distances, up to the largest one. -/
theorem totalDistance_eq (casts : List Cast) :
    totalDistance casts = min (casts.map (·.distance)).sum (Distance.limit - 1) := by
  suffices h : ∀ total, total ≤ Distance.limit - 1 →
      casts.foldl (fun total cast => Distance.addSaturating total cast.distance) total =
        min (total + (casts.map (·.distance)).sum) (Distance.limit - 1) by
    rw [totalDistance, h 0 (Nat.zero_le _), Nat.zero_add]
  induction casts with
  | nil =>
    intro total htotal
    exact (Nat.min_eq_left htotal).symm
  | cons cast casts ih =>
    intro total _
    have hkept : Distance.addSaturating total cast.distance ≤ Distance.limit - 1 :=
      Nat.min_le_right _ _
    rw [List.foldl_cons, ih _ hkept, List.map_cons, List.sum_cons, Distance.addSaturating]
    omega

/-- The method of the selection is called `name`, takes as many parameters as there are arguments,
and every argument converts implicitly to its parameter, at the sum of the distances. -/
structure Applicable (r : Registry) (name : String) (arguments : List Ty) (s : Selection) :
    Prop where
  name_eq : s.method.name = name
  arity_eq : s.method.arity = arguments.length
  converts : Converts r arguments s.method.params s.casts
  distance_eq : s.distance = min (s.casts.map (·.distance)).sum (Distance.limit - 1)

theorem select?_eq_some_iff {m : Method} {s : Selection} :
    select? r name arguments m = .ok (some s) ↔ s.method = m ∧ Applicable r name arguments s := by
  constructor
  · intro h
    unfold select? at h
    split at h
    case isTrue happlies =>
      cases hcasts : convertArguments r arguments m.params with
      | error e =>
        rw [hcasts] at h
        cases h
      | ok casts? =>
        rw [hcasts] at h
        obtain ⟨casts, rfl, rfl⟩ := Option.map_eq_some_iff.1 (Except.ok.inj h)
        exact ⟨rfl, happlies.1, happlies.2, converts_of_convertArguments happlies.2 hcasts,
          totalDistance_eq casts⟩
    case isFalse => cases h
  · rintro ⟨rfl, happlicable⟩
    rw [select?, if_pos ⟨happlicable.name_eq, happlicable.arity_eq⟩,
      convertArguments_of_converts happlicable.converts]
    change Except.ok (some (Selection.mk s.method s.casts (totalDistance s.casts))) = .ok (some s)
    rw [totalDistance_eq, ← happlicable.distance_eq]

/-- The selection of a method, if it is applicable. -/
def selection? (r : Registry) (name : String) (arguments : List Ty) (m : Method) :
    Option Selection :=
  (select? r name arguments m).toOption.join

theorem selection?_eq_some_iff {m : Method} {s : Selection} :
    selection? r name arguments m = some s ↔ s.method = m ∧ Applicable r name arguments s := by
  rw [← select?_eq_some_iff, selection?]
  cases select? r name arguments m with
  | error e => simp [Except.toOption]
  | ok s? => simp [Except.toOption]

theorem Applicable.selection?_eq {s : Selection} (h : Applicable r name arguments s) :
    selection? r name arguments s.method = some s :=
  selection?_eq_some_iff.2 ⟨rfl, h⟩

theorem select?_eq_selection? (hr : r.Answers) (m : Method) :
    select? r name arguments m = .ok (selection? r name arguments m) := by
  rw [selection?]
  cases hselect : select? r name arguments m with
  | ok s? => rfl
  | error e =>
    obtain ⟨a, -, b, -, hfails⟩ := select?_eq_error hselect
    obtain ⟨cast?, hcast⟩ := hr.implicitCast a b
    cases hcast.symm.trans hfails

/-- No applicable candidate is nearer than this one. -/
def IsNearest (r : Registry) (candidates : List Method) (name : String) (arguments : List Ty)
    (m : Method) : Prop :=
  ∃ s, s.method = m ∧ Applicable r name arguments s ∧
    ∀ t, t.method ∈ candidates → Applicable r name arguments t → s.distance ≤ t.distance

/-- The applicable candidates with their conversions. -/
def selections (r : Registry) (candidates : List Method) (name : String) (arguments : List Ty) :
    List Selection :=
  candidates.filterMap (selection? r name arguments)

theorem mem_selections_iff {candidates : List Method} {s : Selection} :
    s ∈ selections r candidates name arguments ↔
      s.method ∈ candidates ∧ Applicable r name arguments s := by
  rw [selections, List.mem_filterMap]
  constructor
  · rintro ⟨m, hm, hs⟩
    obtain ⟨rfl, happlicable⟩ := selection?_eq_some_iff.1 hs
    exact ⟨hm, happlicable⟩
  · rintro ⟨hm, happlicable⟩
    exact ⟨s.method, hm, happlicable.selection?_eq⟩

/-- The selections that none of the list is nearer than. -/
def least (all : List Selection) : List Selection :=
  all.filter fun s => ∀ t ∈ all, s.distance ≤ t.distance

theorem mem_least_iff {all : List Selection} {s : Selection} :
    s ∈ least all ↔ s ∈ all ∧ ∀ t ∈ all, s.distance ≤ t.distance := by
  rw [least, List.mem_filter, decide_eq_true_iff]

theorem least_eq_filter {all : List Selection} {s : Selection} (h : s ∈ least all) :
    least all = all.filter (·.distance = s.distance) := by
  obtain ⟨hs, hle⟩ := mem_least_iff.1 h
  apply List.filter_congr
  intro t ht
  rw [decide_eq_decide]
  constructor
  · intro hmin
    exact Nat.le_antisymm (hmin s hs) (hle t ht)
  · intro heq u hu
    rw [heq]
    exact hle u hu

theorem least_eq_nil_iff {all : List Selection} : least all = [] ↔ all = [] := by
  constructor
  · intro h
    cases hs : all.argmin (·.distance) with
    | none => exact List.argmin_eq_none.1 hs
    | some s =>
      have hleast : s ∈ least all :=
        mem_least_iff.2 ⟨List.argmin_mem hs, fun t ht => List.le_of_mem_argmin ht hs⟩
      rw [h] at hleast
      cases hleast
  · rintro rfl
    rfl

section

variable {seen : List Selection} {current new : Selection}

theorem least_concat_of_le (h : current ∈ least seen) (hle : current.distance ≤ new.distance) :
    least (seen ++ [new]) =
      least seen ++ if new.distance = current.distance then [new] else [] := by
  have hstays : current ∈ least (seen ++ [new]) := by
    rw [mem_least_iff] at h ⊢
    rw [List.forall_mem_append, List.forall_mem_singleton]
    exact ⟨List.mem_append_left _ h.1, h.2, hle⟩
  rw [least_eq_filter hstays, least_eq_filter h, List.filter_append, List.filter_singleton]
  simp only [Bool.cond_decide]

theorem least_concat_of_lt (h : current ∈ least seen) (hlt : new.distance < current.distance) :
    least (seen ++ [new]) = [new] := by
  have hfarther : ∀ t ∈ seen, new.distance < t.distance := fun t ht =>
    Nat.lt_of_lt_of_le hlt ((mem_least_iff.1 h).2 t ht)
  have hnew : new ∈ least (seen ++ [new]) := by
    rw [mem_least_iff, List.forall_mem_append, List.forall_mem_singleton]
    refine ⟨List.mem_append_right _ List.mem_cons_self, fun t ht => ?_, Nat.le_refl _⟩
    exact Nat.le_of_lt (hfarther t ht)
  have hnone : seen.filter (·.distance = new.distance) = [] := by
    rw [List.filter_eq_nil_iff]
    intro t ht
    rw [decide_eq_true_iff]
    exact Nat.ne_of_gt (hfarther t ht)
  rw [least_eq_filter hnew, List.filter_append, hnone, List.nil_append]
  exact List.filter_eq_self.2 (by simp)

/-- The step: from the least of the selections so far to the least with a new one. -/
theorem keepNearest_least (seen : List Selection) (new : Selection) :
    keepNearest (least seen) new = least (seen ++ [new]) := by
  cases hbest : least seen with
  | nil =>
    obtain rfl := least_eq_nil_iff.1 hbest
    simp [keepNearest, least]
  | cons current rest =>
    have hcurrent : current ∈ least seen := by
      rw [hbest]
      exact List.mem_cons_self
    rw [keepNearest]
    split
    case isTrue hfarther =>
      rw [least_concat_of_le hcurrent (Nat.le_of_lt hfarther), if_neg (Nat.ne_of_gt hfarther),
        List.append_nil, hbest]
    case isFalse hnear =>
      split
      case isTrue hequal =>
        rw [least_concat_of_le hcurrent (Nat.le_of_eq hequal.symm), if_pos hequal, hbest]
      case isFalse hdifferent =>
        rw [least_concat_of_lt hcurrent (by omega)]

end

/-- The run: the least of what was seen before and of what the candidates add. -/
theorem nearest_eq_least (hr : r.Answers) (candidates : List Method) (seen : List Selection) :
    nearest r name arguments candidates (least seen) =
      .ok (least (seen ++ selections r candidates name arguments)) := by
  induction candidates generalizing seen with
  | nil => rw [nearest, selections, List.filterMap_nil, List.append_nil]
  | cons m rest ih =>
    rw [nearest, select?_eq_selection? hr]
    cases hs : selection? r name arguments m with
    | none =>
      rw [selections, List.filterMap_cons_none hs]
      exact ih seen
    | some s =>
      rw [selections, List.filterMap_cons_some hs, ← List.singleton_append, ← List.append_assoc,
        ← selections, ← ih, ← keepNearest_least]
      rfl

theorem isNearest_iff {candidates : List Method} {m : Method} :
    IsNearest r candidates name arguments m ↔
      ∃ s ∈ selection? r name arguments m,
        ∀ t ∈ selections r candidates name arguments, s.distance ≤ t.distance := by
  simp only [IsNearest, Option.mem_def, selection?_eq_some_iff, mem_selections_iff, and_imp,
    and_assoc]

instance (candidates : List Method) (m : Method) :
    Decidable (IsNearest r candidates name arguments m) :=
  decidable_of_iff _ isNearest_iff.symm

/-- The methods of the least selections are the nearest candidates. -/
theorem map_method_least (candidates : List Method) :
    (least (selections r candidates name arguments)).map (·.method) =
      candidates.filter (IsNearest r candidates name arguments ·) := by
  rw [least, selections, List.filter_filterMap, List.map_filterMap, ← List.filterMap_eq_filter]
  apply List.filterMap_congr
  intro m _
  cases hs : selection? r name arguments m with
  | none =>
    have hnot : ¬IsNearest r candidates name arguments m := by
      simp [isNearest_iff, hs]
    simp [Option.guard, hnot]
  | some s =>
    obtain ⟨rfl, -⟩ := selection?_eq_some_iff.1 hs
    have hiff : IsNearest r candidates name arguments s.method ↔
        ∀ t ∈ selections r candidates name arguments, s.distance ≤ t.distance := by
      simp [isNearest_iff, hs]
    simp only [Option.filter, Option.guard, hiff, selections]
    split <;> rfl

/-- The outcome for the nearest selections. -/
def outcome : List Selection → Resolution
  | [] => .notFound
  | [s] => .found s
  | several => .ambiguous (several.map (·.method))

theorem resolve_eq_outcome (hr : r.Answers) (candidates : List Method) :
    resolve r candidates name arguments =
      .ok (outcome (least (selections r candidates name arguments))) := by
  have hnearest : nearest r name arguments candidates [] =
      .ok (least (selections r candidates name arguments)) :=
    nearest_eq_least hr candidates []
  rw [resolve, hnearest]
  match least (selections r candidates name arguments) with
  | [] | [_] | _ :: _ :: _ => rfl

section

variable {all all' : List Selection}

theorem outcome_eq_notFound_iff : outcome all = .notFound ↔ all = [] := by
  match all with
  | [] | [_] | _ :: _ :: _ => simp [outcome]

theorem outcome_eq_found_iff {s : Selection} : outcome all = .found s ↔ all = [s] := by
  match all with
  | [] | [_] | _ :: _ :: _ => simp [outcome]

theorem outcome_eq_ambiguous_iff {ms : List Method} :
    outcome all = .ambiguous ms ↔ ms = all.map (·.method) ∧ 2 ≤ ms.length := by
  match all with
  | [] | [_] =>
    constructor
    · nofun
    · rintro ⟨rfl, hlength⟩
      simp at hlength
  | _ :: _ :: _ =>
    constructor
    · intro h
      cases h
      exact ⟨rfl, by simp⟩
    · rintro ⟨rfl, -⟩
      rfl

/-- Two outcomes that are the same but for the order of ambiguous methods. -/
inductive Same : Resolution → Resolution → Prop
  | notFound : Same .notFound .notFound
  | found (s : Selection) : Same (.found s) (.found s)
  | ambiguous {ms ms' : List Method} (h : ms.Perm ms') : Same (.ambiguous ms) (.ambiguous ms')

theorem same_outcome (h : all.Perm all') : Same (outcome all) (outcome all') := by
  match all, all', h.length_eq with
  | [], [], _ => exact .notFound
  | [s], [t], _ =>
    obtain rfl := List.singleton_perm_singleton.1 h
    exact .found s
  | _ :: _ :: _, _ :: _ :: _, _ => exact .ambiguous (h.map _)

theorem least_perm (h : all.Perm all') : (least all).Perm (least all') := by
  have hsame : least all' = all'.filter fun s => ∀ t ∈ all, s.distance ≤ t.distance := by
    apply List.filter_congr
    intro s _
    simp only [h.mem_iff]
  rw [hsame]
  exact h.filter _

/-- A selection at distance zero is the only least one, if no other is at that distance. -/
theorem least_eq_singleton {before after : List Selection} {s : Selection} (hs : s.distance = 0)
    (hothers : ∀ t ∈ before ++ after, t.distance ≠ 0) : least (before ++ s :: after) = [s] := by
  have hleast : s ∈ least (before ++ s :: after) := by
    rw [mem_least_iff, hs]
    exact ⟨List.mem_append_right _ List.mem_cons_self, fun t _ => Nat.zero_le _⟩
  have hnone {ts : List Selection} (hts : ∀ t ∈ ts, t.distance ≠ 0) :
      ts.filter (·.distance = 0) = [] := by
    rw [List.filter_eq_nil_iff]
    intro t ht
    rw [decide_eq_true_iff]
    exact hts t ht
  obtain ⟨hbefore, hafter⟩ := List.forall_mem_append.1 hothers
  rw [least_eq_filter hleast, hs, List.filter_append, List.filter_cons_of_pos (by simp [hs]),
    hnone hbefore, hnone hafter, List.nil_append]

end

section

variable {candidates candidates' : List Method} {s : Selection}

theorem resolve_notFound_iff (hr : r.Answers) :
    resolve r candidates name arguments = .ok .notFound ↔
      ∀ s, s.method ∈ candidates → ¬Applicable r name arguments s := by
  rw [resolve_eq_outcome hr, Except.ok.injEq, outcome_eq_notFound_iff, least_eq_nil_iff,
    List.eq_nil_iff_forall_not_mem]
  simp only [mem_selections_iff, not_and]

theorem resolve_found_iff (hr : r.Answers) :
    resolve r candidates name arguments = .ok (.found s) ↔
      Applicable r name arguments s ∧
        candidates.filter (IsNearest r candidates name arguments ·) = [s.method] := by
  rw [resolve_eq_outcome hr, Except.ok.injEq, outcome_eq_found_iff, ← map_method_least]
  constructor
  · intro h
    have hmem : s ∈ least (selections r candidates name arguments) := by
      rw [h]
      exact List.mem_singleton_self s
    rw [h]
    exact ⟨(mem_selections_iff.1 (mem_least_iff.1 hmem).1).2, rfl⟩
  · rintro ⟨happlicable, hmethods⟩
    obtain ⟨t, ht, hmethod⟩ := List.map_eq_singleton_iff.1 hmethods
    have hmem : t ∈ least (selections r candidates name arguments) := by
      rw [ht]
      exact List.mem_singleton_self t
    have htapplicable := (mem_selections_iff.1 (mem_least_iff.1 hmem).1).2
    -- The method determines its selection.
    have hsame : some t = some s := by
      rw [← htapplicable.selection?_eq, ← happlicable.selection?_eq, hmethod]
    rw [ht, Option.some.inj hsame]

theorem resolve_ambiguous_iff (hr : r.Answers) {ms : List Method} :
    resolve r candidates name arguments = .ok (.ambiguous ms) ↔
      ms = candidates.filter (IsNearest r candidates name arguments ·) ∧ 2 ≤ ms.length := by
  rw [resolve_eq_outcome hr, Except.ok.injEq, outcome_eq_ambiguous_iff, map_method_least]

theorem resolve_perm (hr : r.Answers) (h : candidates.Perm candidates') :
    ∃ outcome outcome', resolve r candidates name arguments = .ok outcome ∧
      resolve r candidates' name arguments = .ok outcome' ∧ Same outcome outcome' :=
  ⟨_, _, resolve_eq_outcome hr candidates, resolve_eq_outcome hr candidates',
    same_outcome (least_perm (h.filterMap _))⟩

theorem resolve_of_distance_zero (hr : r.Answers) {before after : List Method}
    (hs : Applicable r name arguments s) (hzero : s.distance = 0)
    (hothers : ∀ t, t.method ∈ before ++ after → Applicable r name arguments t → t.distance ≠ 0) :
    resolve r (before ++ s.method :: after) name arguments = .ok (.found s) := by
  rw [resolve_eq_outcome hr, selections, List.filterMap_append,
    List.filterMap_cons_some hs.selection?_eq, least_eq_singleton hzero]
  · rfl
  · intro t ht
    rw [← List.filterMap_append] at ht
    obtain ⟨hmem, happlicable⟩ := mem_selections_iff.1 ht
    exact hothers t hmem happlicable

/-- A method `sum` of two parameters. -/
def sumOf (id : Nat) (first second : Ty) : Method :=
  .native ⟨id, "sum", [first, second], first, "Rules", .static, none⟩ fun _ _ => .ok .null

end

end Overload

end RuleExpr
