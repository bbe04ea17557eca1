import RuleExpr.Binder.Bind
import RuleExpr.Program
import RuleExpr.Proofs.Binding.Run
import RuleExpr.Proofs.WholeNumbers
import RuleExpr.Syntax.Build
import Mathlib.Data.List.DropRight
import Mathlib.Data.Nat.Digits.Defs

/-!
# Literals of Integers

A literal of a bounded kind is written as blanks, an optional sign, digits, the marks of the kind
and blanks again.  Signs, digits, marks and blanks are four separate sets of characters, so a text
can be taken apart in one way only, and the reader, which takes the blanks from both ends and then
the marks from the right, finds it.  The number that the digits denote then has to fit.
-/

namespace RuleExpr

open Number Text

variable {text before kept tail after : List Char} {drop : Char → Bool}
variable {k : Nat} {n : Int}

namespace Text

theorem dropWhile_append (hbefore : ∀ c ∈ before, drop c) (hkept : ∀ c ∈ kept, drop c = false) :
    (before ++ kept).dropWhile drop = kept := by
  rw [List.dropWhile_append_of_pos hbefore]
  cases kept with
  | nil => rfl
  | cons c rest =>
    have hhead : ¬drop c := Bool.eq_false_iff.1 (hkept c List.mem_cons_self)
    exact List.dropWhile_cons_of_neg hhead

theorem trimEnd_append (hkept : ∀ c ∈ kept, drop c = false) (htail : ∀ c ∈ tail, drop c) :
    trimEnd drop (kept ++ tail) = kept := by
  have hreverse : (tail.reverse ++ kept.reverse).dropWhile drop = kept.reverse :=
    dropWhile_append (fun c hc => htail c (List.mem_reverse.1 hc))
      (fun c hc => hkept c (List.mem_reverse.1 hc))
  rw [trimEnd, List.reverse_append, hreverse, List.reverse_reverse]

theorem exists_trimEnd (drop : Char → Bool) (text : List Char) :
    ∃ tail, (∀ c ∈ tail, drop c) ∧ text = trimEnd drop text ++ tail :=
  ⟨text.rtakeWhile drop, fun _ => List.mem_rtakeWhile_imp,
    List.rdropWhile_append_rtakeWhile.symm⟩

theorem trim_append (hbefore : ∀ c ∈ before, isBlank c) (hkept : ∀ c ∈ kept, isBlank c = false)
    (hafter : ∀ c ∈ after, isBlank c) : trim (before ++ kept ++ after) = kept := by
  rw [trim, List.append_assoc, List.dropWhile_append_of_pos hbefore]
  cases kept with
  | nil =>
    rw [List.nil_append, List.dropWhile_eq_nil_iff.2 hafter]
    rfl
  | cons c rest =>
    have hhead : ¬isBlank c := Bool.eq_false_iff.1 (hkept c List.mem_cons_self)
    rw [List.cons_append, List.dropWhile_cons_of_neg hhead, ← List.cons_append]
    exact trimEnd_append hkept hafter

theorem exists_trim (text : List Char) :
    ∃ before after, (∀ c ∈ before, isBlank c) ∧ (∀ c ∈ after, isBlank c) ∧
      text = before ++ trim text ++ after := by
  obtain ⟨after, hafter, hrest⟩ := exists_trimEnd isBlank (text.dropWhile isBlank)
  refine ⟨text.takeWhile isBlank, after, fun c => List.mem_takeWhile_imp, hafter, ?_⟩
  rw [List.append_assoc, trim, ← hrest, List.takeWhile_append_dropWhile]

end Text

/-- The text consists of ASCII digits, at least one, and `k` is the number that they denote. -/
structure IsDigits (text : List Char) (k : Nat) : Prop where
  ne_nil : text ≠ []
  isDigit : ∀ c ∈ text, c.isDigit
  eq_ofDigits : Nat.ofDigits 10 (text.reverse.map digitValue) = k

/-- The text is a numeral with an optional sign. -/
inductive IsNumeral : List Char → Int → Prop
  | unsigned {text : List Char} {k : Nat} (h : IsDigits text k) : IsNumeral text k
  | plus {text : List Char} {k : Nat} (h : IsDigits text k) : IsNumeral ('+' :: text) k
  | minus {text : List Char} {k : Nat} (h : IsDigits text k) : IsNumeral ('-' :: text) (-k)

theorem ofDigits_eq (text : List Char) :
    Nat.ofDigits 10 (text.reverse.map digitValue) = Number.ofDigits text := by
  rw [Nat.ofDigits_eq_foldr, List.foldr_map, List.foldr_reverse, Number.ofDigits]
  simp only [Nat.cast_id, Nat.add_comm]

theorem readDigits_eq_some_iff : readDigits text = some k ↔ IsDigits text k := by
  rw [readDigits, Option.ite_none_right_eq_some, Option.some_inj, List.all_eq_true]
  constructor
  · rintro ⟨⟨hne, hdigit⟩, hvalue⟩
    exact ⟨hne, hdigit, (ofDigits_eq text).trans hvalue⟩
  · rintro ⟨hne, hdigit, hvalue⟩
    exact ⟨⟨hne, hdigit⟩, (ofDigits_eq text).symm.trans hvalue⟩

/-- Digits are no signs. -/
theorem IsDigits.splitSign_eq (h : IsDigits text k) : splitSign text = (false, text) := by
  unfold splitSign
  split
  · exact absurd (h.isDigit _ List.mem_cons_self) (by decide)
  · exact absurd (h.isDigit _ List.mem_cons_self) (by decide)
  · rfl

theorem isNumeral_iff : IsNumeral text n ↔
    ∃ k, IsDigits (splitSign text).2 k ∧ n = applySign (splitSign text).1 k := by
  constructor
  · intro h
    cases h with
    | unsigned h =>
      rw [h.splitSign_eq]
      exact ⟨_, h, rfl⟩
    | plus h => exact ⟨_, h, rfl⟩
    | minus h => exact ⟨_, h, rfl⟩
  · rintro ⟨k, h, rfl⟩
    revert h
    unfold splitSign
    split
    · exact .minus
    · exact .plus
    · exact .unsigned

theorem readBounded_eq_some_iff {low high : Int} :
    readBounded low high text = some n ↔ IsNumeral text n ∧ low ≤ n ∧ n ≤ high := by
  rw [isNumeral_iff]
  simp only [readBounded, Option.bind_eq_bind, Option.bind_eq_some_iff, readDigits_eq_some_iff,
    Option.ite_none_right_eq_some, Option.some_inj]
  constructor
  · rintro ⟨k, hdigits, hrange, rfl⟩
    exact ⟨⟨k, hdigits, rfl⟩, hrange⟩
  · rintro ⟨⟨k, hdigits, rfl⟩, hrange⟩
    exact ⟨k, hdigits, hrange, rfl⟩

/-- The text of a number is a numeral of it. -/
theorem isDigits_digitsOf (k : Nat) : IsDigits (digitsOf k) k where
  ne_nil := Nat.toDigits_ne_nil
  isDigit c hc := Nat.isDigit_of_mem_toDigits (by decide) (by decide) hc
  eq_ofDigits := by
    rw [ofDigits_eq, Number.ofDigits]
    exact Nat.ofDigitChars_eq_foldl.symm.trans Nat.ofDigitChars_ten_toDigits

theorem isNumeral_renderInt (n : Int) : IsNumeral (renderInt n).toList n := by
  have hdigits := isDigits_digitsOf n.natAbs
  unfold renderInt
  split
  case isTrue hnegative =>
    have hminus := IsNumeral.minus hdigits
    rw [show -(n.natAbs : Int) = n by omega] at hminus
    -- the sign is a text of characters as well
    rw [String.toList_append, String.toList_ofList, String.toList_ofList]
    exact hminus
  case isFalse hpositive =>
    have hunsigned := IsNumeral.unsigned hdigits
    rw [show (n.natAbs : Int) = n by omega] at hunsigned
    rwa [String.toList_ofList]

/-- Characters of numerals. -/
def isNumeralChar (c : Char) : Bool := c.isDigit || c = '+' || c = '-'

theorem isNumeralChar_of_mem {c : Char} (h : IsNumeral text n) (hc : c ∈ text) :
    isNumeralChar c := by
  have hdigit {digits : List Char} {k : Nat} (hdigits : IsDigits digits k) (hc : c ∈ digits) :
      isNumeralChar c := by
    rw [isNumeralChar, hdigits.isDigit c hc]
    rfl
  cases h with
  | unsigned hdigits => exact hdigit hdigits hc
  | plus hdigits | minus hdigits =>
    rcases List.mem_cons.1 hc with rfl | hc
    · rfl
    · exact hdigit hdigits hc

theorem isBlank_of_isNumeralChar {c : Char} (h : isNumeralChar c) : isBlank c = false := by
  simp only [isNumeralChar, Char.isDigit, Bool.or_eq_true, Bool.and_eq_true, decide_eq_true_eq,
    ge_iff_le, UInt32.le_iff_toNat_le] at h
  rcases h with (⟨hlow, hhigh⟩ | rfl) | rfl
  · have hlow : 48 ≤ c.toNat := hlow
    have hhigh : c.toNat ≤ 57 := hhigh
    rw [Bool.eq_false_iff]
    simp only [isBlank, ne_eq, Bool.or_eq_true, Bool.and_eq_true, decide_eq_true_eq]
    omega
  · decide
  · decide

/-- The text is a numeral of `n` between blanks, with marks behind it. -/
def Spells (marks : Char → Bool) (text : List Char) (n : Int) : Prop :=
  ∃ before numeral suffix after, text = before ++ (numeral ++ suffix) ++ after ∧
    (∀ c ∈ before, isBlank c) ∧ (∀ c ∈ after, isBlank c) ∧ (∀ c ∈ suffix, marks c) ∧
    IsNumeral numeral n

/-- Marks are told apart from all that they stand next to. -/
structure Separate (marks : Char → Bool) : Prop where
  isBlank_eq : ∀ c, marks c → isBlank c = false
  marks_eq : ∀ c, isNumeralChar c → marks c = false

/-- Taking off the ends of a text leaves the numeral that it spells. -/
theorem spells_iff {marks : Char → Bool} (hmarks : Separate marks) :
    Spells marks text n ↔ IsNumeral (trimEnd marks (trim text)) n := by
  constructor
  · rintro ⟨before, numeral, suffix, after, rfl, hbefore, hafter, hsuffix, hnumeral⟩
    have hkept : ∀ c ∈ numeral ++ suffix, isBlank c = false := fun c hc => by
      rcases List.mem_append.1 hc with hc | hc
      · exact isBlank_of_isNumeralChar (isNumeralChar_of_mem hnumeral hc)
      · exact hmarks.isBlank_eq c (hsuffix c hc)
    rw [trim_append hbefore hkept hafter]
    rwa [trimEnd_append (fun c hc => hmarks.marks_eq c (isNumeralChar_of_mem hnumeral hc)) hsuffix]
  · intro hnumeral
    obtain ⟨before, after, hbefore, hafter, htext⟩ := exists_trim text
    obtain ⟨suffix, hsuffix, hkept⟩ := exists_trimEnd marks (trim text)
    refine ⟨before, _, suffix, after, ?_, hbefore, hafter, hsuffix, hnumeral⟩
    rw [← hkept, ← htext]

/-- Literals of bounded whole numbers. -/
inductive WordLiteral where
  | integer
  | long

namespace WordLiteral

def literal : WordLiteral → LiteralKind
  | integer => .integer
  | long => .long

def kind : WordLiteral → WholeKind
  | integer => .int
  | long => .long

def ty : WordLiteral → Ty
  | integer => .int
  | long => .primitive .long

/-- Letters that may stand behind the digits, any number of times. -/
def marks : WordLiteral → Char → Bool
  | integer => fun _ => false
  | long => isLongSuffix

theorem separate_marks (word : WordLiteral) : Separate word.marks := by
  cases word with
  | integer => exact ⟨fun _ h => Bool.noConfusion h, fun _ _ => rfl⟩
  | long =>
    refine ⟨fun c h => ?_, fun c h => Bool.eq_false_iff.2 fun hmark => ?_⟩
    · simp only [marks, isLongSuffix, Bool.or_eq_true, decide_eq_true_eq] at h
      rcases h with rfl | rfl <;> decide
    · simp only [marks, isLongSuffix, Bool.or_eq_true, decide_eq_true_eq] at hmark
      rcases hmark with rfl | rfl <;> exact absurd h (by decide)

/-- Characters that cannot be marks are left. -/
theorem trimEnd_of_no_marks (text : List Char) : trimEnd (fun _ => false) text = text := by
  have h : trimEnd (fun _ => false) (text ++ []) = text :=
    trimEnd_append (fun _ _ => rfl) (List.forall_mem_nil _)
  rwa [List.append_nil] at h

/-- A literal is read as a numeral within the bounds of its kind. -/
theorem exists_bounds (word : WordLiteral) : ∃ low high,
    (∀ n, word.kind.Holds n ↔ low ≤ n ∧ n ≤ high) ∧
      ∀ text, readLiteral word.literal text =
        (readBounded low high (trimEnd word.marks (trim text.toList))).map fun n =>
          (word.kind.value n, word.ty) := by
  cases word with
  | integer =>
    refine ⟨-2147483648, 2147483647, fun n => ?_, fun text => ?_⟩
    · rw [kind, WholeKind.holds_iff (by decide)]
      simp only [WholeKind.size, Int32.size]
      omega
    · rw [marks, trimEnd_of_no_marks]
      exact Option.map_map ..
  | long =>
    refine ⟨-9223372036854775808, 9223372036854775807, fun n => ?_, fun text => ?_⟩
    · rw [kind, WholeKind.holds_iff (by decide)]
      simp only [WholeKind.size, Int64.size]
      omega
    · exact Option.map_map ..

/-- What a literal is read as. -/
theorem readLiteral_eq_some_iff {word : WordLiteral} {text : String} {result : Value × Ty} :
    readLiteral word.literal text = some result ↔
      ∃ n, word.kind.Holds n ∧ Spells word.marks text.toList n ∧
        (word.kind.value n, word.ty) = result := by
  obtain ⟨low, high, hbounds, hread⟩ := word.exists_bounds
  simp only [hread, Option.map_eq_some_iff, readBounded_eq_some_iff, hbounds,
    spells_iff word.separate_marks]
  constructor
  · rintro ⟨n, ⟨hnumeral, hrange⟩, hresult⟩
    exact ⟨n, hrange, hnumeral, hresult⟩
  · rintro ⟨n, hrange, hnumeral, hresult⟩
    exact ⟨n, ⟨hnumeral, hrange⟩, hresult⟩

variable {word : WordLiteral} {text? : Option String} {children : List SyntaxNode} {span : Span}
variable {σ : BindSettings} {s : BindState}

/-- What is reported on a text that is no such literal. -/
def complaint (word : WordLiteral) (text : String) : String :=
  "'" ++ text ++ "' is not a valid " ++ word.literal.label ++ " literal"

/-- The node of a literal. -/
def node (word : WordLiteral) (text? : Option String) (children : List SyntaxNode) (span : Span) :
    SyntaxNode :=
  ⟨.literal word.literal, text?, children, span⟩

/-- Within the nesting limit a literal is bound to what its text stands for. -/
theorem bind_eq {r : Except BindError BoundNode} {reports : List Diagnostic}
    (hdepth : s.depth < σ.config.maxBindDepth)
    (h : ∀ s, bindLiteral (word.node text? children span) word.literal σ s =
      (r, { s with diagnostics := s.diagnostics ++ reports })) :
    bind (word.node text? children span) σ s =
      (r, { s with diagnostics := s.diagnostics ++ reports }) := by
  rw [node, bind]
  exact nested_of_lt hdepth (h _)

theorem bind_of_spells (hdepth : s.depth < σ.config.maxBindDepth) (hn : word.kind.Holds n)
    (h : Spells word.marks (word.node text? children span).text.toList n) :
    bind (word.node text? children span) σ s =
      (.ok ⟨.literal (word.kind.value n), word.ty, span⟩, s) := by
  have hread := readLiteral_eq_some_iff.2 ⟨n, hn, h, rfl⟩
  have hbound : bind (word.node text? children span) σ s =
      (.ok ⟨.literal (word.kind.value n), word.ty, span⟩,
        { s with diagnostics := s.diagnostics ++ [] }) :=
    bind_eq hdepth fun s => by
      rw [bindLiteral, hread, List.append_nil]
      rfl
  rwa [List.append_nil] at hbound

theorem bind_of_not_spells (hdepth : s.depth < σ.config.maxBindDepth)
    (h : ∀ n, word.kind.Holds n →
      ¬Spells word.marks (word.node text? children span).text.toList n) :
    bind (word.node text? children span) σ s =
      (.ok (.failure (word.complaint (word.node text? children span).text) span),
        { s with diagnostics := s.diagnostics ++ [.ofError .invalidLiteral
          (word.complaint (word.node text? children span).text) (some span)] }) := by
  refine bind_eq hdepth fun s => ?_
  have hread : readLiteral word.literal (word.node text? children span).text = none :=
    Option.eq_none_iff_forall_ne_some.2 fun result hresult => by
      obtain ⟨n, hn, hspells, -⟩ := readLiteral_eq_some_iff.1 hresult
      exact h n hn hspells
  rw [bindLiteral, hread]
  rfl

/-- A literal is bound to the number that its text spells, and to no other one. -/
theorem bind_iff (hdepth : s.depth < σ.config.maxBindDepth) (hn : word.kind.Holds n) :
    bind (word.node text? children span) σ s =
        (.ok ⟨.literal (word.kind.value n), word.ty, span⟩, s) ↔
      Spells word.marks (word.node text? children span).text.toList n := by
  refine ⟨fun hbound => ?_, bind_of_spells hdepth hn⟩
  by_cases h : ∃ m, word.kind.Holds m ∧
      Spells word.marks (word.node text? children span).text.toList m
  · obtain ⟨m, hm, hspells⟩ := h
    rw [bind_of_spells hdepth hm hspells] at hbound
    have hvalue : word.kind.value m = word.kind.value n := by
      injection congrArg Prod.fst hbound with hnode
      injection hnode with hshape
      injection hshape
    have hnumber : (word.kind.value n).Denotes m := hvalue ▸ WholeKind.denotes_value hm
    rw [WholeKind.denotes_value_iff, WholeKind.bmod_of_holds hn] at hnumber
    rwa [← hnumber]
  · rw [bind_of_not_spells hdepth fun m hm hspells => h ⟨m, hm, hspells⟩] at hbound
    injection congrArg Prod.fst hbound with hnode
    injection hnode with hshape
    cases hshape

/-- A number is spelled by its digits. -/
theorem spells_renderInt (marks : Char → Bool) (n : Int) : Spells marks (renderInt n).toList n := by
  refine ⟨[], _, [], [], ?_, List.forall_mem_nil _, List.forall_mem_nil _, List.forall_mem_nil _,
    isNumeral_renderInt n⟩
  rw [List.append_nil, List.append_nil, List.nil_append]

/-- A number that is written out, bound and evaluated is the number again. -/
theorem bindExpression_renderInt (word : WordLiteral) (hn : word.kind.Holds n) (owner : RuleModule)
    (w : Workspace) (config : Config) :
    ∃ e, (bindExpression (word.node (some (renderInt n)) [] .nowhere) owner w config).1 = .ok e ∧
      e.diagnostics = [] ∧ e.evaluate = .ok (word.kind.value n) := by
  have hdepth : (BindState.start owner w).depth <
      (BindSettings.standard config).config.maxBindDepth :=
    Nat.lt_of_lt_of_le (Nat.zero_lt_succ _) (Nat.le_max_right _ Config.leastBindDepth)
  have hspells : Spells word.marks
      (word.node (some (renderInt n)) [] .nowhere).text.toList n := spells_renderInt word.marks n
  refine ⟨⟨⟨.literal (word.kind.value n), word.ty, .nowhere⟩, 0, []⟩, ?_, rfl, rfl⟩
  rw [bindExpression, bind_of_spells hdepth hn hspells]
  rfl

end WordLiteral

/-- Literals of bounded whole numbers.  Wherever one is bound within the nesting limit, it is bound
to a number of its kind, of the type of the kind and without a report, if and only if the number is
what its text spells: a numeral with an optional sign between blanks, behind which a long literal
may have marks.  A text that spells no number of the kind gives an error node and one report.  A
literal that is built from a number has that number as its value. -/
theorem word_literals_recognised :
    (∀ (word : WordLiteral) (text? : Option String) (children : List SyntaxNode) (span : Span)
      (σ : BindSettings) (s : BindState), s.depth < σ.config.maxBindDepth →
      let node := word.node text? children span
      (∀ n, word.kind.Holds n →
        (bind node σ s = (.ok ⟨.literal (word.kind.value n), word.ty, span⟩, s) ↔
          Spells word.marks node.text.toList n)) ∧
      ((∀ n, word.kind.Holds n → ¬Spells word.marks node.text.toList n) →
        bind node σ s =
          (.ok (.failure (word.complaint node.text) span),
            { s with diagnostics := s.diagnostics ++
              [.ofError .invalidLiteral (word.complaint node.text) (some span)] }))) ∧
    (∀ (v : Int32) (owner : RuleModule) (w : Workspace) (config : Config),
      ∃ e, (bindExpression (.int v) owner w config).1 = .ok e ∧ e.diagnostics = [] ∧
        e.evaluate = .ok (.int v)) ∧
    ∀ (v : Int64) (owner : RuleModule) (w : Workspace) (config : Config),
      ∃ e, (bindExpression (.long v) owner w config).1 = .ok e ∧ e.diagnostics = [] ∧
        e.evaluate = .ok (.long v) := by
  refine ⟨fun word text? children span σ s hdepth => ⟨fun n hn => ?_, fun h => ?_⟩,
    fun v owner w config => ?_, fun v owner w config => ?_⟩
  · exact WordLiteral.bind_iff hdepth hn
  · exact WordLiteral.bind_of_not_spells hdepth h
  · have hv : WholeKind.int.Holds v.toInt := WholeKind.holds_of_bmod v.toInt_bmod_size
    have hvalue : WordLiteral.integer.kind.value v.toInt = .int v :=
      congrArg Value.int v.ofInt_toInt
    exact hvalue ▸ WordLiteral.integer.bindExpression_renderInt hv owner w config
  · have hv : WholeKind.long.Holds v.toInt := WholeKind.holds_of_bmod v.toInt_bmod_size
    have hvalue : WordLiteral.long.kind.value v.toInt = .long v :=
      congrArg Value.long v.ofInt_toInt
    exact hvalue ▸ WordLiteral.long.bindExpression_renderInt hv owner w config

/-- Blanks, leading zeros and repeated marks make no difference. -/
theorem word_literals_recognised_padded :
    let s := BindState.start (.empty "m" "rules" 0) .empty
    s.depth < (BindSettings.standard .standard).config.maxBindDepth ∧
      bind (WordLiteral.long.node (some " -007lL ") [] .nowhere) (.standard .standard) s =
        (.ok ⟨.literal (.long (-7)), .primitive .long, .nowhere⟩, s) := by
  intro s
  have hdepth : s.depth < (BindSettings.standard .standard).config.maxBindDepth := by decide
  have hdigits : IsDigits ['0', '0', '7'] 7 := readDigits_eq_some_iff.1 rfl
  have hspells : Spells WordLiteral.long.marks " -007lL ".toList (-7) :=
    ⟨[' '], _, ['l', 'L'], [' '], rfl, List.forall_mem_singleton.2 rfl,
      List.forall_mem_singleton.2 rfl,
      List.forall_mem_cons.2 ⟨rfl, List.forall_mem_singleton.2 rfl⟩,
      .minus hdigits⟩
  obtain ⟨hrecognised, -⟩ := word_literals_recognised
  obtain ⟨hbound, -⟩ := hrecognised .long (some " -007lL ") [] .nowhere _ s hdepth
  exact ⟨hdepth, (hbound (-7) (by decide)).2 hspells⟩

end RuleExpr
