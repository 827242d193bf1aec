import Eggserve.Primitives.ResponsePlan

/-! Evaluation of the `Range` header. The code reads positions as `u64` and
looks at the file size before the syntax of the range; the reference reads
them as natural numbers and looks at the syntax first. -/
namespace Eggserve.Static
open Rust Eggserve.Primitives

/-- Unlike the standard parser this refuses a sign. -/
def parseU64Digits (s : Str) : Option Nat :=
  if isDigits s then parseU64 s else none

/-- The specifier `-N` of `parse_single_range`, for a nonempty file. -/
def parseSuffixRange (digits : Str) (fileSize : Nat) : MayPanic RangeRequestOutcome :=
  match parseU64Digits digits with
  | none => some .malformedOrUnsupported
  | some suffixLen =>
      if suffixLen = 0 then some .notSatisfiable
      else
        let start := fileSize - suffixLen
        if start ≥ fileSize then some .notSatisfiable
        else (FileRange.new start (fileSize - 1)).map .satisfiable

/-- The specifiers `S-` and `S-E` of `parse_single_range`, for a nonempty file. -/
def parseFirstRange (first last : Str) (fileSize : Nat) : MayPanic RangeRequestOutcome :=
  match parseU64Digits first with
  | none => some .malformedOrUnsupported
  | some start =>
      if last.isEmpty then
        if start ≥ fileSize then some .notSatisfiable
        else (FileRange.new start (fileSize - 1)).map .satisfiable
      else
        match parseU64Digits last with
        | none => some .malformedOrUnsupported
        | some stop =>
            if start > stop then some .malformedOrUnsupported
            else if start ≥ fileSize then some .notSatisfiable
            else (FileRange.new start (min stop (fileSize - 1))).map .satisfiable

/-- One range specifier against a file of the given size. -/
def parseSingleRange (range : Str) (fileSize : Nat) : MayPanic RangeRequestOutcome :=
  if fileSize = 0 then some .notSatisfiable
  else if range.head? = some '-' then parseSuffixRange range.tail fileSize
  else
    match splitn2 '-' range with
    | [first, last] => parseFirstRange first last fileSize
    | _ => some .malformedOrUnsupported

def evaluateRangeHeader (header : Str) (fileSize : Nat) : MayPanic RangeRequestOutcome :=
  let range := trim header
  -- The source compares six bytes; they are ASCII, so they are six characters.
  if !eqIgnoreAsciiCase (range.take 6) "bytes=" then some .malformedOrUnsupported
  else
    let rangeValue := range.drop 6
    if rangeValue.isEmpty then some .malformedOrUnsupported
    else
      match rangeValue.splitOn ',' with
      | [first] => parseSingleRange (trim first) fileSize
      | _ => some .multipleRanges

/-! The reference, over unbounded naturals. -/

/-- A well-formed range specifier, with the values of its digit strings. -/
inductive RangeSpec where
  | bounded (first last : Nat)
  | fromFirst (first : Nat)
  | suffix (length : Nat)
  deriving DecidableEq, Repr

/-- `1*DIGIT "-" *DIGIT` with the first position not after the last, or
`"-" 1*DIGIT`. -/
def referenceSpec (spec : Str) : Option RangeSpec :=
  let first := spec.takeWhile Char.isDigit
  match spec.dropWhile Char.isDigit with
  | '-' :: last =>
      if !last.all Char.isDigit then none
      else if first.isEmpty then
        if last.isEmpty then none else some (.suffix (decimalValue last))
      else if last.isEmpty then some (.fromFirst (decimalValue first))
      else if decimalValue first ≤ decimalValue last then
        some (.bounded (decimalValue first) (decimalValue last))
      else none
  | _ => none

/-- An outcome with the endpoints of the range and nothing else. -/
inductive RangeAnswer where
  | satisfiable (first last : Nat)
  | notSatisfiable
  | malformedOrUnsupported
  | multipleRanges
  deriving DecidableEq, Repr

def answerOf : RangeRequestOutcome → RangeAnswer
  | .satisfiable range => .satisfiable range.start range.endInclusive
  | .notSatisfiable => .notSatisfiable
  | .malformedOrUnsupported => .malformedOrUnsupported
  | .multipleRanges => .multipleRanges

def RangeSpec.answer (size : Nat) : RangeSpec → RangeAnswer
  | .bounded first last =>
      if first ≥ size then .notSatisfiable else .satisfiable first (min last (size - 1))
  | .fromFirst first =>
      if first ≥ size then .notSatisfiable else .satisfiable first (size - 1)
  | .suffix length =>
      if length = 0 ∨ size = 0 then .notSatisfiable else .satisfiable (size - length) (size - 1)

/-- What stands after the unit, if the unit is `bytes`. -/
def rangeSet (header : Str) : Option Str :=
  let range := trim header
  if eqIgnoreAsciiCase (range.take 6) "bytes=" then some (range.drop 6) else none

def referenceAnswer (header : Str) (size : Nat) : RangeAnswer :=
  match rangeSet header with
  | none => .malformedOrUnsupported
  | some set =>
      if ',' ∈ set then .multipleRanges
      else match referenceSpec (trim set) with
        | none => .malformedOrUnsupported
        | some spec => spec.answer size

/-- Every number of the specifier fits the machine word. -/
def RangeSpec.Fits : RangeSpec → Prop
  | .bounded first last => first ≤ u64Max ∧ last ≤ u64Max
  | .fromFirst first => first ≤ u64Max
  | .suffix length => length ≤ u64Max

instance : DecidablePred RangeSpec.Fits
  | .bounded first last => inferInstanceAs (Decidable (first ≤ u64Max ∧ last ≤ u64Max))
  | .fromFirst first => inferInstanceAs (Decidable (first ≤ u64Max))
  | .suffix length => inferInstanceAs (Decidable (length ≤ u64Max))

/-- The specifiers and sizes on which the order of the early returns and the
width of the machine word do not show. -/
def RangeInReach (header : Str) (size : Nat) : Prop :=
  ∀ set, rangeSet header = some set → ',' ∉ set →
    match referenceSpec (trim set) with
    | none => size ≠ 0 ∨ set = []
    | some spec => size = 0 ∨ spec.Fits

theorem parseU64Digits_eq (s : Str) :
    parseU64Digits s =
      if isDigits s ∧ decimalValue s ≤ u64Max then some (decimalValue s) else none := by
  by_cases h : isDigits s = true
  · simp [parseU64Digits, h, parseU64_of_isDigits h]
  · simp [parseU64Digits, h]

/-- The digits before the first dash and what follows it. -/
theorem referenceSpec_append {first : Str} (last : Str) (h : first.all Char.isDigit = true) :
    referenceSpec (first ++ '-' :: last) =
      if !last.all Char.isDigit then none
      else if first.isEmpty then
        if last.isEmpty then none else some (.suffix (decimalValue last))
      else if last.isEmpty then some (.fromFirst (decimalValue first))
      else if decimalValue first ≤ decimalValue last then
        some (.bounded (decimalValue first) (decimalValue last))
      else none := by
  have hTake : (first ++ '-' :: last).takeWhile Char.isDigit = first := by
    rw [List.takeWhile_append_of_pos (by simpa using h)]
    simp
  have hDrop : (first ++ '-' :: last).dropWhile Char.isDigit = '-' :: last := by
    rw [List.dropWhile_append_of_pos (by simpa using h)]
    rfl
  simp only [referenceSpec, hTake, hDrop]

/-- Without a dash right after the leading digits nothing is a specifier. -/
theorem referenceSpec_eq_none {spec : Str}
    (h : (spec.dropWhile Char.isDigit).head? ≠ some '-') : referenceSpec spec = none := by
  rw [referenceSpec]
  split
  · rename_i last hDrop
    simp [hDrop] at h
  · rfl

theorem dropWhile_head_ne {first last : Str} (hDash : '-' ∉ first)
    (hDigits : first.all Char.isDigit = false) :
    ((first ++ '-' :: last).dropWhile Char.isDigit).head? ≠ some '-' := by
  induction first with
  | nil => simp at hDigits
  | cons c rest ih =>
      obtain ⟨hc, hRest⟩ : '-' ≠ c ∧ '-' ∉ rest := by simpa using hDash
      by_cases hDigit : c.isDigit = true
      · have hAll : rest.all Char.isDigit = false := by simpa [hDigit] using hDigits
        simpa [hDigit] using ih hRest hAll
      · simp [hDigit, hc.symm]

/-- What the code answers, in terms of the reference specifier. -/
def machineAnswer (spec : Option RangeSpec) (size : Nat) : RangeAnswer :=
  if size = 0 then .notSatisfiable
  else match spec with
    | none => .malformedOrUnsupported
    | some spec => if spec.Fits then spec.answer size else .malformedOrUnsupported

theorem new_satisfiable {size start stop : Nat} (hSize : size ≤ u64Max) (hStart : start ≤ stop)
    (hStop : stop < size) :
    ((FileRange.new start stop).map .satisfiable).map answerOf = some (.satisfiable start stop) := by
  obtain ⟨range, hNew, hs, he, _⟩ := FileRange.new_of_le hStart (show stop < u64Max by omega)
  simp [hNew, answerOf, hs, he]

theorem suffix_answer {size : Nat} (digits : Str) (hPos : size ≠ 0) (hSize : size ≤ u64Max) :
    (parseSuffixRange digits size).map answerOf =
      some (machineAnswer (referenceSpec ('-' :: digits)) size) := by
  have hSpec := @referenceSpec_append [] digits rfl
  rw [List.nil_append] at hSpec
  simp only [parseSuffixRange, hPos, ↓reduceIte, parseU64Digits_eq, hSpec, machineAnswer]
  by_cases hDigits : isDigits digits = true
  · obtain ⟨hNonempty, hAll⟩ : digits.isEmpty = false ∧ digits.all Char.isDigit = true := by
      simpa [isDigits] using hDigits
    by_cases hFits : decimalValue digits ≤ u64Max
    · by_cases hZero : decimalValue digits = 0
      · simp [hDigits, hAll, hNonempty, hZero, RangeSpec.Fits, RangeSpec.answer, answerOf]
      · have hStart : ¬size - decimalValue digits ≥ size := by omega
        simp only [hDigits, hAll, hNonempty, hFits, hZero, hStart, hPos, RangeSpec.Fits,
          RangeSpec.answer, and_self, or_self, ↓reduceIte, Bool.not_true, Bool.false_eq_true,
          List.isEmpty_nil]
        exact new_satisfiable hSize (by omega) (by omega)
    · simp [hDigits, hAll, hNonempty, hFits, RangeSpec.Fits, answerOf]
  · have hNone : digits.all Char.isDigit = false ∨ digits.isEmpty = true := by
      rw [isDigits, Bool.and_eq_true, not_and_or] at hDigits
      simpa [or_comm] using hDigits
    rcases hNone with hNone | hNone <;> simp [hDigits, hNone, answerOf]

/-- A first position that is not a digit string is malformed for both. -/
theorem nondigit_answer {size : Nat} {first : Str} (last : Str) (hDash : '-' ∉ first)
    (hDigits : first.all Char.isDigit = false) (hPos : size ≠ 0) :
    (parseFirstRange first last size).map answerOf =
      some (machineAnswer (referenceSpec (first ++ '-' :: last)) size) := by
  have hNone : referenceSpec (first ++ '-' :: last) = none :=
    referenceSpec_eq_none (dropWhile_head_ne hDash hDigits)
  have hFirst : isDigits first = false := by simp [isDigits, hDigits]
  simp [parseFirstRange, hPos, parseU64Digits_eq, hFirst, hNone, machineAnswer, answerOf]

theorem first_answer {size : Nat} {first : Str} (last : Str) (hFirst : isDigits first = true)
    (hPos : size ≠ 0) (hSize : size ≤ u64Max) :
    (parseFirstRange first last size).map answerOf =
      some (machineAnswer (referenceSpec (first ++ '-' :: last)) size) := by
  obtain ⟨hNonempty, hAll⟩ : first.isEmpty = false ∧ first.all Char.isDigit = true := by
    simpa [isDigits] using hFirst
  simp only [parseFirstRange, hPos, parseU64Digits_eq, hFirst, referenceSpec_append last hAll,
    hNonempty, machineAnswer, ↓reduceIte, true_and, Bool.false_eq_true]
  cases hLast : last.isEmpty with
  | true =>
      have hNil : last = [] := by simpa using hLast
      by_cases hFits : decimalValue first ≤ u64Max
      · by_cases hIn : decimalValue first ≥ size
        · simp [hNil, hFits, hIn, RangeSpec.Fits, RangeSpec.answer, answerOf]
        · simp only [hNil, hFits, hIn, RangeSpec.Fits, RangeSpec.answer, ↓reduceIte, List.all_nil,
            Bool.not_true, Bool.false_eq_true]
          exact new_satisfiable hSize (by omega) (by omega)
      · simp [hNil, hFits, RangeSpec.Fits, answerOf]
  | false =>
      cases hDigits : last.all Char.isDigit with
      | false =>
          have hNot : isDigits last = false := by simp [isDigits, hDigits]
          by_cases hFits : decimalValue first ≤ u64Max <;> simp [hFits, hNot, answerOf]
      | true =>
          have hIs : isDigits last = true := by simp [isDigits, hLast, hDigits]
          by_cases hFits : decimalValue first ≤ u64Max ∧ decimalValue last ≤ u64Max
          · by_cases hOrder : decimalValue first ≤ decimalValue last
            · by_cases hIn : decimalValue first ≥ size
              · simp [hIs, hFits, hOrder, hIn, Nat.not_lt.mpr hOrder, RangeSpec.Fits, RangeSpec.answer,
                  answerOf]
              · simp only [hIs, hFits, hOrder, hIn, RangeSpec.Fits, RangeSpec.answer, ↓reduceIte,
                  Bool.not_true, Bool.false_eq_true, and_self, gt_iff_lt, Nat.not_lt.mpr hOrder]
                exact new_satisfiable hSize (by omega) (by omega)
            · simp [hIs, hFits, hOrder, Nat.lt_of_not_le hOrder, answerOf]
          · have hUnfit : ¬(RangeSpec.bounded (decimalValue first) (decimalValue last)).Fits := hFits
            by_cases hFirstFits : decimalValue first ≤ u64Max
            · have hLastFits : ¬decimalValue last ≤ u64Max := fun h => hFits ⟨hFirstFits, h⟩
              have hOrder : decimalValue first ≤ decimalValue last := by omega
              simp [hIs, hFirstFits, hLastFits, hOrder, hUnfit, answerOf]
            · by_cases hOrder : decimalValue first ≤ decimalValue last <;>
                simp [hFirstFits, hOrder, hUnfit, answerOf]

/-- The code is the reference cut down to the machine word, except that an
empty file is answered before the specifier is read. -/
theorem parseSingleRange_answer (spec : Str) {size : Nat} (hSize : size ≤ u64Max) :
    (parseSingleRange spec size).map answerOf =
      some (machineAnswer (referenceSpec spec) size) := by
  by_cases hPos : size = 0
  · simp [parseSingleRange, machineAnswer, hPos, answerOf]
  by_cases hDash : '-' ∈ spec
  · obtain ⟨first, last, rfl, hFirst⟩ := List.eq_append_cons_of_mem hDash
    cases first with
    | nil => simpa [parseSingleRange, hPos] using suffix_answer last hPos hSize
    | cons c rest =>
        have hHead : c ≠ '-' := fun hEq => hFirst (hEq ▸ List.mem_cons_self)
        have hSplit := splitn2_append last hFirst
        rw [List.cons_append] at hSplit ⊢
        simp only [parseSingleRange, hPos, hHead, hSplit, ↓reduceIte, List.head?_cons,
          Option.some.injEq]
        cases hDigits : (c :: rest).all Char.isDigit with
        | false => exact nondigit_answer last hFirst hDigits hPos
        | true => exact first_answer last (by simpa [isDigits] using hDigits) hPos hSize
  · have hHead : spec.head? ≠ some '-' := fun h => hDash (List.mem_of_head? h)
    have hNone : referenceSpec spec = none := by
      apply referenceSpec_eq_none
      intro h
      exact hDash ((List.dropWhile_sublist _).subset (List.mem_of_head? h))
    simp [parseSingleRange, hPos, hHead, splitn2_of_not_mem hDash, hNone, machineAnswer, answerOf]

theorem of_new_satisfiable {start stop : Nat} {range : FileRange}
    (h : (FileRange.new start stop).map RangeRequestOutcome.satisfiable =
      some (.satisfiable range)) :
    range.start = start ∧ range.endInclusive = stop := by
  simp only [FileRange.new, FileRange.tryNew] at h
  split at h
  · simp only [Option.map_some, Option.some.injEq, RangeRequestOutcome.satisfiable.injEq] at h
    exact ⟨by rw [← h], by rw [← h]⟩
  · simp at h

/-- A satisfiable range is ordered and lies within the file. -/
theorem parseSingleRange_within {spec : Str} {size : Nat} {range : FileRange}
    (h : parseSingleRange spec size = some (.satisfiable range)) :
    range.start ≤ range.endInclusive ∧ range.endInclusive < size := by
  simp only [parseSingleRange, parseSuffixRange, parseFirstRange] at h
  repeat' split at h
  all_goals first
    | exact absurd (Option.some.inj h) (by simp)
    | obtain ⟨hStart, hStop⟩ := of_new_satisfiable h
      omega

/-- A list has several elements exactly when it has a comma. -/
theorem splitOn_comma {set : Str} {item : Str} {rest : List Str}
    (hSplit : set.splitOn ',' = item :: rest) : ',' ∈ set ↔ rest ≠ [] := by
  constructor
  · intro hMem
    obtain ⟨first, last, rfl, hFirst⟩ := List.eq_append_cons_of_mem hMem
    rw [List.splitOn_append_cons_self_of_not_mem hFirst, List.cons.injEq] at hSplit
    rw [← hSplit.2]
    exact List.splitOn_ne_nil _ _
  · intro hRest
    by_contra hMem
    rw [List.splitOn_eq_singleton hMem, List.cons.injEq] at hSplit
    exact hRest hSplit.2.symm

theorem evaluateRangeHeader_of_unit {header set : Str} (hSet : rangeSet header = some set)
    (hNonempty : set ≠ []) (size : Nat) :
    evaluateRangeHeader header size =
      if ',' ∈ set then some .multipleRanges else parseSingleRange (trim set) size := by
  rw [rangeSet] at hSet
  split at hSet
  · rename_i hUnit
    rw [Option.some.injEq] at hSet
    have hEmpty : set.isEmpty = false := by simpa using hNonempty
    simp only [evaluateRangeHeader, hUnit, hSet, hEmpty, Bool.not_true, Bool.false_eq_true,
      ↓reduceIte]
    by_cases hComma : ',' ∈ set
    · cases hSplit : set.splitOn ',' with
      | nil => exact absurd hSplit (List.splitOn_ne_nil _ _)
      | cons item rest =>
          obtain ⟨second, others, rfl⟩ :=
            List.exists_cons_of_ne_nil ((splitOn_comma hSplit).mp hComma)
          simp [hComma]
    · simp [hComma, List.splitOn_eq_singleton hComma]
  · simp at hSet

theorem evaluateRangeHeader_malformed {header : Str} (size : Nat)
    (hSet : rangeSet header = none ∨ rangeSet header = some []) :
    evaluateRangeHeader header size = some .malformedOrUnsupported := by
  rcases hSet with hSet | hSet <;> rw [rangeSet] at hSet <;> split at hSet
  · simp at hSet
  · rename_i hUnit
    rw [Bool.not_eq_true] at hUnit
    simp only [evaluateRangeHeader, hUnit, Bool.not_false, ↓reduceIte]
  · rw [Option.some.injEq] at hSet
    simp only [evaluateRangeHeader, hSet, List.isEmpty_nil, ↓reduceIte, ite_self]
  · simp at hSet

theorem evaluateRangeHeader_isSome (header : Str) {size : Nat} (hSize : size ≤ u64Max) :
    ∃ outcome, evaluateRangeHeader header size = some outcome := by
  rw [← Option.isSome_iff_exists]
  cases hSet : rangeSet header with
  | none => simp [evaluateRangeHeader_malformed size (.inl hSet)]
  | some set =>
      by_cases hNil : set = []
      · subst hNil
        simp [evaluateRangeHeader_malformed size (.inr hSet)]
      · rw [evaluateRangeHeader_of_unit hSet hNil]
        split
        · rfl
        · rw [← Option.isSome_map (f := answerOf), parseSingleRange_answer _ hSize]
          rfl

theorem evaluateRangeHeader_within {header : Str} {size : Nat} {range : FileRange}
    (h : evaluateRangeHeader header size = some (.satisfiable range)) :
    range.start ≤ range.endInclusive ∧ range.endInclusive < size := by
  simp only [evaluateRangeHeader] at h
  split_ifs at h
  · simp at h
  · simp at h
  · split at h
    · exact parseSingleRange_within h
    · simp at h

/-- The two answers to one specifier differ where an early return fires: on an
empty file the code does not see that the specifier is malformed, and a number
beyond the machine word makes a well-formed specifier malformed. -/
theorem machineAnswer_eq_iff (spec : Option RangeSpec) (size : Nat) :
    machineAnswer spec size = (match spec with
        | none => .malformedOrUnsupported
        | some spec => spec.answer size) ↔
      match spec with
      | none => size ≠ 0
      | some spec => size = 0 ∨ spec.Fits := by
  by_cases hSize : size = 0
  · cases spec with
    | none => simp [machineAnswer, hSize]
    | some spec => cases spec <;> simp [machineAnswer, hSize, RangeSpec.answer]
  · cases spec with
    | none => simp [machineAnswer, hSize]
    | some spec =>
        by_cases hFits : spec.Fits
        · simp [machineAnswer, hSize, hFits]
        · have hAnswer : spec.answer size ≠ .malformedOrUnsupported := by
            cases spec <;> simp only [RangeSpec.answer] <;> split <;> simp
          simpa [machineAnswer, hSize, hFits] using hAnswer.symm

/-- For every header and every size, the evaluation never panics and agrees with
the reference over unbounded naturals exactly within reach. -/
theorem evaluateRangeHeader_reference_iff (header : Str) {size : Nat} (hSize : size ≤ u64Max) :
    (evaluateRangeHeader header size).map answerOf = some (referenceAnswer header size) ↔
      RangeInReach header size := by
  cases hSet : rangeSet header with
  | none =>
      rw [evaluateRangeHeader_malformed size (.inl hSet)]
      simp [referenceAnswer, RangeInReach, hSet, answerOf]
  | some set =>
      by_cases hNil : set = []
      · subst hNil
        rw [evaluateRangeHeader_malformed size (.inr hSet)]
        have hNone : referenceSpec (trim []) = none := rfl
        simp [referenceAnswer, RangeInReach, hSet, answerOf, hNone]
      · rw [evaluateRangeHeader_of_unit hSet hNil]
        by_cases hComma : ',' ∈ set
        · simp [referenceAnswer, RangeInReach, hSet, hComma, answerOf]
        · have hReach : RangeInReach header size ↔
              match referenceSpec (trim set) with
              | none => size ≠ 0
              | some spec => size = 0 ∨ spec.Fits := by
            simp only [RangeInReach, hSet, Option.some.injEq, forall_eq', hComma,
              not_false_eq_true, true_imp_iff, hNil, or_false]
          rw [if_neg hComma, parseSingleRange_answer _ hSize, Option.some.injEq, hReach,
            ← machineAnswer_eq_iff]
          simp only [referenceAnswer, hSet, hComma, ↓reduceIte]

theorem evaluateRangeHeader_reference_suffix_longer_than_file :
    (5 ≤ u64Max ∧ RangeInReach "bytes=-007" 5) ∧
      (evaluateRangeHeader "bytes=-007" 5).map answerOf =
        some (referenceAnswer "bytes=-007" 5) := by
  have hReach : RangeInReach "bytes=-007" 5 := by
    intro set hSet _
    have hEq : set = "-007" := by
      rw [← Option.some.injEq, ← hSet]
      decide +kernel
    subst hEq
    have hSpec : referenceSpec (trim "-007") = some (.suffix 7) := by decide +kernel
    simp only [hSpec]
    exact .inr (by decide +kernel)
  exact ⟨⟨by decide, hReach⟩,
    (evaluateRangeHeader_reference_iff "bytes=-007" (by decide)).mpr hReach⟩

/-- An empty file hides that `bytes=abc` is malformed, and a last position
beyond the machine word hides that the specifier is satisfiable. -/
theorem range_early_returns_differ :
    ((evaluateRangeHeader "bytes=abc" 0).map answerOf = some .notSatisfiable ∧
      referenceAnswer "bytes=abc" 0 = .malformedOrUnsupported) ∧
    ((evaluateRangeHeader "bytes=0-18446744073709551616" 5).map answerOf =
        some .malformedOrUnsupported ∧
      referenceAnswer "bytes=0-18446744073709551616" 5 = .satisfiable 0 4) := by
  decide +kernel

end Eggserve.Static
