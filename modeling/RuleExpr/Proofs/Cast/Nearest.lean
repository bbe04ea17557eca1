import RuleExpr.Proofs.Cast.Registry

/-!
# The Nearest Common Target

The common type of two types is chosen in one pass over the candidates, which keeps the best score
met so far.  What is left at the end is a candidate that both types convert to, and none that both
convert to is nearer to them.
-/

namespace RuleExpr

variable {a b t : Ty}

namespace Registry

variable {r : Registry} {score other third : Score}

theorem Score.better_iff : score.better other = true ↔
    score.total < other.total ∨ score.total = other.total ∧ score.larger < other.larger := by
  simp [better]

/-- A score is beaten by whatever beats one that is no better. -/
theorem Score.not_better_trans (h : score.better other = false) (h' : other.better third = false) :
    score.better third = false := by
  rw [← Bool.not_eq_true, better_iff] at *
  omega

theorem Score.not_better_of_better (h : score.better other = true) :
    other.better score = false := by
  rw [← Bool.not_eq_true]
  rw [better_iff] at *
  omega

theorem Score.not_better_self (score : Score) : score.better score = false := by
  rw [← Bool.not_eq_true, better_iff]
  omega

/-- A candidate has a score where both types convert to it and the sum of the distances fits. -/
theorem score?_eq_some_iff : r.score? a b t = .ok (some score) ↔
    ∃ f g, r.implicitCast a t = .ok (some f) ∧ r.implicitCast b t = .ok (some g) ∧
      f.distance + g.distance < Distance.limit ∧
      score = ⟨f.distance + g.distance, max f.distance g.distance⟩ := by
  constructor
  · intro h
    rw [score?] at h
    rcases hf : r.implicitCast a t with e | (_ | f)
    case error =>
      rw [hf] at h
      cases h
    all_goals
      rcases hg : r.implicitCast b t with e | (_ | g)
      all_goals
        rw [hf, hg] at h
        try cases h
    cases hsum : Distance.add f.distance g.distance with
    | error e =>
      simp only [Bind.bind, Except.bind, hsum] at h
      cases h
    | ok total =>
      simp only [Bind.bind, Except.bind, hsum] at h
      cases h
      obtain ⟨hfits, rfl⟩ := Distance.add_eq_ok.1 hsum
      exact ⟨f, g, rfl, rfl, hfits, rfl⟩
  · rintro ⟨f, g, hf, hg, hfits, rfl⟩
    rw [score?, hf, hg]
    simp only [Bind.bind, Except.bind, Distance.add_eq_ok.2 ⟨hfits, rfl⟩]
    rfl

/-- The distances from both types to a candidate do not fit together. -/
def Exceeds (r : Registry) (a b t : Ty) : Prop :=
  ∃ f g, r.implicitCast a t = .ok (some f) ∧ r.implicitCast b t = .ok (some g) ∧
    Distance.limit ≤ f.distance + g.distance

/-- Scoring fails where a lookup does, and where the sum does not fit. -/
theorem score?_eq_error_iff {e : CastError} : r.score? a b t = .error e ↔
    r.implicitCast a t = .error e ∨
      (∃ f?, r.implicitCast a t = .ok f?) ∧ r.implicitCast b t = .error e ∨
      e = .overflow ∧ r.Exceeds a b t := by
  unfold Exceeds score?
  rcases r.implicitCast a t with e' | (_ | f)
  all_goals
    rcases r.implicitCast b t with e'' | (_ | g)
    all_goals simp [Bind.bind, Except.bind, pure, Except.pure]
  cases hsum : Distance.add f.distance g.distance with
  | error e' =>
    obtain ⟨hlimit, rfl⟩ := Distance.add_eq_error.1 hsum
    simp [hlimit, eq_comm]
  | ok total =>
    have hfits := (Distance.add_eq_ok.1 hsum).1
    simp [Nat.not_le.2 hfits]

/-- What is kept is one of the two, and neither is better. -/
theorem keepBest_spec (best : Option (Score × Ty)) (score : Score) (candidate : Ty) :
    (∀ kept ∈ keepBest best score candidate, kept ∈ best ∨ kept = (score, candidate)) ∧
      ∀ entry, entry ∈ best ∨ entry = (score, candidate) →
        ∃ kept ∈ keepBest best score candidate, entry.1.better kept.1 = false := by
  cases best with
  | none =>
    refine ⟨fun kept hkept => .inr (Option.some.inj hkept).symm, fun entry hentry => ?_⟩
    rcases hentry with hentry | rfl
    · cases hentry
    · exact ⟨_, rfl, score.not_better_self⟩
  | some current =>
    cases hbetter : score.better current.1 with
    | true =>
      have hkeep : keepBest (some current) score candidate = some (score, candidate) :=
        if_pos hbetter
      rw [hkeep]
      refine ⟨fun kept hkept => .inr (Option.some.inj hkept).symm, fun entry hentry => ?_⟩
      refine ⟨(score, candidate), rfl, ?_⟩
      rcases hentry with hentry | rfl
      · obtain rfl := Option.some.inj hentry
        exact Score.not_better_of_better hbetter
      · exact score.not_better_self
    | false =>
      have hkeep : keepBest (some current) score candidate = some current :=
        if_neg (Bool.eq_false_iff.1 hbetter)
      rw [hkeep]
      refine ⟨fun kept hkept => .inl hkept, fun entry hentry => ⟨current, rfl, ?_⟩⟩
      rcases hentry with hentry | rfl
      · obtain rfl := Option.some.inj hentry
        exact Score.not_better_self _
      · exact hbetter

/-- An earlier choice, or a candidate with its score. -/
def Scored (r : Registry) (a b : Ty) (cands : List Ty) (best : Option (Score × Ty))
    (entry : Score × Ty) : Prop :=
  entry ∈ best ∨ entry.2 ∈ cands ∧ r.score? a b entry.2 = .ok (some entry.1)

theorem scored_cons {candidate : Ty} {rest : List Ty} {best : Option (Score × Ty)}
    {entry : Score × Ty} :
    r.Scored a b (candidate :: rest) best entry ↔
      r.Scored a b rest best entry ∨
        entry.2 = candidate ∧ r.score? a b candidate = .ok (some entry.1) := by
  unfold Scored
  constructor
  · rintro (hearlier | ⟨hmem, hscore⟩)
    · exact .inl (.inl hearlier)
    · rcases List.mem_cons.1 hmem with hcandidate | hmem
      · exact .inr ⟨hcandidate, hcandidate ▸ hscore⟩
      · exact .inl (.inr ⟨hmem, hscore⟩)
  · rintro ((hearlier | ⟨hmem, hscore⟩) | ⟨hcandidate, hscore⟩)
    · exact .inl hearlier
    · exact .inr ⟨List.mem_cons_of_mem _ hmem, hscore⟩
    · exact .inr ⟨hcandidate ▸ List.mem_cons_self, hcandidate ▸ hscore⟩

/-- The choice is one of the candidates with a score, and none of these is better. -/
theorem bestOf_spec {cands : List Ty} {best result : Option (Score × Ty)}
    (h : r.bestOf a b cands best = .ok result) :
    (∀ chosen ∈ result, r.Scored a b cands best chosen) ∧
      ∀ entry, r.Scored a b cands best entry →
        ∃ chosen ∈ result, entry.1.better chosen.1 = false := by
  induction cands generalizing best with
  | nil =>
    cases h
    refine ⟨fun chosen hchosen => .inl hchosen, ?_⟩
    rintro entry (hentry | ⟨hmem, -⟩)
    · exact ⟨entry, hentry, Score.not_better_self _⟩
    · cases hmem
  | cons candidate rest ih =>
    unfold bestOf at h
    rcases hscore : r.score? a b candidate with e | (_ | score)
    case error =>
      rw [hscore] at h
      cases h
    case ok.none =>
      rw [hscore] at h
      obtain ⟨hsource, hleast⟩ := ih h
      refine ⟨fun chosen hchosen => scored_cons.2 (.inl (hsource chosen hchosen)), ?_⟩
      intro entry hentry
      rcases scored_cons.1 hentry with hentry | ⟨-, hentry⟩
      · exact hleast entry hentry
      · rw [hscore] at hentry
        cases hentry
    case ok.some =>
      rw [hscore] at h
      obtain ⟨hsource, hleast⟩ := ih h
      obtain ⟨hkept, hbest⟩ := keepBest_spec best score candidate
      -- What is dropped here loses to what is kept, and that to the choice.
      have hearlier {entry : Score × Ty} (hentry : entry ∈ best ∨ entry = (score, candidate)) :
          ∃ chosen ∈ result, entry.1.better chosen.1 = false := by
        obtain ⟨kept, hmem, hnot⟩ := hbest entry hentry
        obtain ⟨chosen, hchosen, hnot'⟩ := hleast kept (.inl hmem)
        exact ⟨chosen, hchosen, Score.not_better_trans hnot hnot'⟩
      refine ⟨fun chosen hchosen => scored_cons.2 ?_, fun entry hentry => ?_⟩
      · rcases hsource chosen hchosen with hmem | hscored
        · rcases hkept chosen hmem with hmem | rfl
          · exact .inl (.inl hmem)
          · exact .inr ⟨rfl, hscore⟩
        · exact .inl (.inr hscored)
      · rcases scored_cons.1 hentry with (hmem | hscored) | ⟨hcandidate, hentry⟩
        · exact hearlier (.inl hmem)
        · exact hleast entry (.inr hscored)
        · rw [hscore] at hentry
          exact hearlier (.inr (Prod.ext (by simpa using hentry.symm) hcandidate))

/-- A candidate that is looked up without a failure leaves the others to be gone through. -/
theorem bestOf_cons {candidate : Ty} {rest : List Ty} {score? : Option Score}
    (hscore : r.score? a b candidate = .ok score?) (best : Option (Score × Ty)) :
    ∃ kept, r.bestOf a b (candidate :: rest) best = r.bestOf a b rest kept := by
  rw [bestOf, hscore]
  cases score? <;> exact ⟨_, rfl⟩

/-- The pass fails at the first candidate whose score does. -/
theorem bestOf_eq_error {cands : List Ty} {best : Option (Score × Ty)} {e : CastError}
    (h : r.bestOf a b cands best = .error e) : ∃ t ∈ cands, r.score? a b t = .error e := by
  induction cands generalizing best with
  | nil => cases h
  | cons candidate rest ih =>
    rcases hscore : r.score? a b candidate with e' | score?
    case error =>
      rw [bestOf, hscore] at h
      cases h
      exact ⟨candidate, List.mem_cons_self, hscore⟩
    case ok =>
      obtain ⟨kept, hrest⟩ := bestOf_cons hscore best
      obtain ⟨t, ht, hfails⟩ := ih (hrest.symm.trans h)
      exact ⟨t, List.mem_cons_of_mem _ ht, hfails⟩

/-- A pass that ends has looked up every candidate without a failure. -/
theorem exists_score_of_bestOf {cands : List Ty} {best result : Option (Score × Ty)}
    (h : r.bestOf a b cands best = .ok result) (ht : t ∈ cands) :
    ∃ score?, r.score? a b t = .ok score? := by
  induction cands generalizing best with
  | nil => cases ht
  | cons candidate rest ih =>
    rcases hscore : r.score? a b candidate with e | score?
    case error =>
      rw [bestOf, hscore] at h
      cases h
    case ok =>
      rcases List.mem_cons.1 ht with rfl | ht
      · exact ⟨score?, hscore⟩
      · obtain ⟨kept, hrest⟩ := bestOf_cons hscore best
        exact ih (hrest.symm.trans h) ht

/-- A candidate that both types convert to, and none is nearer to them. -/
def Nearest (r : Registry) (a b t : Ty) : Prop :=
  t ∈ r.candidates a b ∧ ∃ score, r.score? a b t = .ok (some score) ∧
    ∀ u ∈ r.candidates a b, ∀ other, r.score? a b u = .ok (some other) → other.better score = false

theorem commonType_of_key_eq (hkey : a.key = b.key) : r.commonType a b = .ok (some a) :=
  if_pos hkey

/-- Types with different keys share the best of the candidates. -/
theorem commonType_eq_ok {t? : Option Ty} (hkey : a.key ≠ b.key)
    (h : r.commonType a b = .ok t?) :
    ∃ best?, r.bestOf a b (r.candidates a b) none = .ok best? ∧ best?.map (·.2) = t? := by
  rw [commonType, if_neg hkey] at h
  match hbest : r.bestOf a b (r.candidates a b) none with
  | .error e =>
    rw [hbest] at h
    cases h
  | .ok best? =>
    rw [hbest] at h
    exact ⟨best?, rfl, Except.ok.inj h⟩

theorem commonType_eq_error {e : CastError} (h : r.commonType a b = .error e) :
    a.key ≠ b.key ∧ ∃ t ∈ r.candidates a b, r.score? a b t = .error e := by
  unfold commonType at h
  split at h
  case isTrue => cases h
  case isFalse hkey =>
    cases hbest : r.bestOf a b (r.candidates a b) none with
    | error e' =>
      rw [hbest] at h
      cases h
      exact ⟨hkey, bestOf_eq_error hbest⟩
    | ok best? =>
      rw [hbest] at h
      cases h

theorem Trusts.commonType {e : CastError} (h : r.Trusts) (hfails : r.commonType a b = .error e) :
    e = .overflow := by
  obtain ⟨-, t, -, hscore⟩ := commonType_eq_error hfails
  rcases score?_eq_error_iff.1 hscore with hcast | ⟨-, hcast⟩ | ⟨hoverflow, -⟩
  · exact h.implicitCast hcast
  · exact h.implicitCast hcast
  · exact hoverflow

/-- Both types share a type or none only where all candidates are looked up without a failure. -/
theorem exists_score_of_commonType {t? : Option Ty} (hkey : a.key ≠ b.key)
    (h : r.commonType a b = .ok t?) (ht : t ∈ r.candidates a b) :
    ∃ score?, r.score? a b t = .ok score? := by
  obtain ⟨best?, hbest, -⟩ := commonType_eq_ok hkey h
  exact exists_score_of_bestOf hbest ht

theorem nearest_of_commonType (hkey : a.key ≠ b.key) (h : r.commonType a b = .ok (some t)) :
    r.Nearest a b t := by
  obtain ⟨best?, hbest, hanswer⟩ := commonType_eq_ok hkey h
  obtain ⟨⟨score, t⟩, rfl, rfl⟩ := Option.map_eq_some_iff.1 hanswer
  obtain ⟨hsource, hleast⟩ := bestOf_spec hbest
  rcases hsource _ rfl with hnone | ⟨hmem, hscore⟩
  · cases hnone
  · refine ⟨hmem, score, hscore, fun u hu other hother => ?_⟩
    obtain ⟨_, ⟨⟩, hnot⟩ := hleast (other, u) (.inr ⟨hu, hother⟩)
    exact hnot

theorem not_nearest_of_commonType (hkey : a.key ≠ b.key) (h : r.commonType a b = .ok none) :
    ¬r.Nearest a b t := by
  rintro ⟨hmem, score, hscore, -⟩
  obtain ⟨best?, hbest, hanswer⟩ := commonType_eq_ok hkey h
  obtain rfl : best? = none := Option.map_eq_none_iff.1 hanswer
  obtain ⟨_, hchosen, -⟩ := (bestOf_spec hbest).2 (score, t) (.inr ⟨hmem, hscore⟩)
  cases hchosen

end Registry

end RuleExpr
