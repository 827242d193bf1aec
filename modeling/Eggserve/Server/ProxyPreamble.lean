import Eggserve.Primitives.ProxyProtocol
import Eggserve.Transition.Incremental

/-! The preamble of the PROXY protocol in front of a connection. It is read in
pieces of at most 256 octets, and the decision is taken again after each. -/
namespace Eggserve.Server
open Rust Eggserve.Primitives

inductive ProxyReadError where
  | timeout
  | tooLong
  | invalid
  | io
  deriving DecidableEq, Repr

def ProxyReadError.ofParse : ProxyParseError → ProxyReadError
  | .incomplete => .invalid
  | .tooLong => .tooLong
  | .invalid => .invalid

def maxPreambleBuffer : Nat := proxyV2HeaderLen + proxyV2MaxLen

/-- The size of the array that a read fills. -/
def readSize : Nat := 256

/-- The endpoints and the octets read beyond the preamble. -/
abbrev PreambleResult := Except ProxyReadError (ProxyEndpoints × List UInt8)

def couldBeV2Prefix (buffer : List UInt8) : Bool :=
  let n := min buffer.length proxyV2Signature.length
  buffer.take n = proxyV2Signature.take n

def startsWithV2Prefix (buffer : List UInt8) : Bool :=
  couldBeV2Prefix buffer && !buffer.isEmpty

def couldBeProxyPrefix (buffer : List UInt8) : Bool :=
  let n := min buffer.length proxyV1Start.length
  buffer.take n = proxyV1Start.take n || couldBeV2Prefix buffer

/-- The offset of the first line end. -/
def findCrlf : List UInt8 → Option Nat
  | [] => none
  | byte :: rest =>
      if byte = 0x0d ∧ rest.head? = some 0x0a then some 0 else (findCrlf rest).map (· + 1)

/-- A line of which the end has been found. -/
def takeV1Line (buffer : List UInt8) (crlfPos : Nat) : PreambleResult :=
  let lineLen := crlfPos + 2
  if proxyV1MaxBytes < lineLen then .error .tooLong
  else
    match parseProxyV1Line (buffer.take lineLen) with
    | .ok endpoints => .ok (endpoints, buffer.drop lineLen)
    | .error error => .error (.ofParse error)

/-- A complete header, if there is one in a buffer of at least its fixed part. -/
def takeV2Header (buffer : List UInt8) : Option PreambleResult :=
  let len := v2Length buffer
  if proxyV2MaxLen < len then some (.error .tooLong)
  else
    let total := proxyV2HeaderLen + len
    if total ≤ buffer.length then
      match parseProxyV2Header (buffer.take total) with
      | .ok (endpoints, _) => some (.ok (endpoints, buffer.drop total))
      | .error .incomplete => none
      | .error error => some (.error (.ofParse error))
    else none

def tryParseBuffer (buffer : List UInt8) : Option PreambleResult :=
  if buffer.isEmpty then none
  else if startsWithV2Prefix buffer ∧ proxyV2HeaderLen ≤ buffer.length then takeV2Header buffer
  else if proxyV1Start <+: buffer then
    match findCrlf buffer with
    | some crlfPos => some (takeV1Line buffer crlfPos)
    | none => if proxyV1MaxBytes < buffer.length then some (.error .tooLong) else none
  else if 6 ≤ buffer.length ∧ couldBeProxyPrefix buffer = false ∧
      (12 ≤ buffer.length ∨ couldBeV2Prefix buffer = false) then some (.error .invalid)
  else none

/-- The checks right after a read. -/
def checkBuffer (buffer : List UInt8) : Option PreambleResult :=
  if maxPreambleBuffer + readSize < buffer.length then some (.error .tooLong)
  else if startsWithV2Prefix buffer = false ∧ ¬proxyV1Start <+: buffer ∧ buffer.isEmpty = false ∧
      couldBeProxyPrefix buffer = false then some (.error .invalid)
  else if startsWithV2Prefix buffer = false then
    match findCrlf buffer with
    | some crlfPos => some (takeV1Line buffer crlfPos)
    | none =>
        if proxyV1MaxBytes < buffer.length ∧
            (12 ≤ buffer.length ∨ couldBeV2Prefix buffer = false) then some (.error .tooLong)
        else none
  else none

/-- The loop, on the reads that are still to come; after the last one the stream
has ended. The result comes with the reads that were not made. -/
def readLoop (buffer : List UInt8) (reads : List (List UInt8)) :
    PreambleResult × List (List UInt8) :=
  match tryParseBuffer buffer with
  | some result => (result, reads)
  | none =>
      if maxPreambleBuffer < buffer.length then (.error .tooLong, reads)
      else
        match reads with
        | [] => (.error .invalid, [])
        | bytes :: rest =>
            match checkBuffer (buffer ++ bytes) with
            | some result => (result, rest)
            | none => readLoop (buffer ++ bytes) rest

def readProxyPreamble (reads : List (List UInt8)) : PreambleResult × List (List UInt8) :=
  readLoop [] reads

/-! The verdict on a buffer, free of how it was read: the endpoints with the
length of the preamble, or the error. -/

abbrev PreambleVerdict := Except ProxyReadError (ProxyEndpoints × Nat)

/-- The result of a verdict on a buffer. -/
def PreambleVerdict.leftover (verdict : PreambleVerdict) (buffer : List UInt8) : PreambleResult :=
  verdict.map fun (endpoints, n) => (endpoints, buffer.drop n)

def lineVerdict (buffer : List UInt8) (crlfPos : Nat) : PreambleVerdict :=
  if proxyV1MaxBytes < crlfPos + 2 then .error .tooLong
  else
    ((parseProxyV1Line (buffer.take (crlfPos + 2))).map (·, crlfPos + 2)).mapError .ofParse

def headerVerdict (buffer : List UInt8) : Option PreambleVerdict :=
  let total := proxyV2HeaderLen + v2Length buffer
  if proxyV2MaxLen < v2Length buffer then some (.error .tooLong)
  else if total ≤ buffer.length then
    some (((parseProxyV2Header (buffer.take total)).map fun (endpoints, _) =>
      (endpoints, total)).mapError .ofParse)
  else none

def textVerdict (buffer : List UInt8) : Option PreambleVerdict :=
  match findCrlf buffer with
  | some crlfPos => some (lineVerdict buffer crlfPos)
  | none => if proxyV1MaxBytes < buffer.length then some (.error .tooLong) else none

def preambleVerdict (buffer : List UInt8) : Option PreambleVerdict :=
  if couldBeProxyPrefix buffer = false then some (.error .invalid)
  else if proxyV1Start <+: buffer then textVerdict buffer
  else if proxyV2HeaderLen ≤ buffer.length then headerVerdict buffer
  else none

/-! Prefixes. -/

/-- Two texts agree as far as both go when one continues the other. -/
theorem take_min_eq_iff {first second : List UInt8} :
    first.take (min first.length second.length) = second.take (min first.length second.length) ↔
      first <+: second ∨ second <+: first := by
  rcases Nat.le_total first.length second.length with h | h
  · rw [Nat.min_eq_left h, List.take_length]
    constructor
    · intro hEq
      exact Or.inl (hEq ▸ List.take_prefix _ _)
    · rintro (hFirst | hSecond)
      · exact List.prefix_iff_eq_take.mp hFirst
      · have hSame := hSecond.eq_of_length_le h
        rw [hSame, List.take_length]
  · rw [Nat.min_eq_right h, List.take_length]
    constructor
    · intro hEq
      exact Or.inr (hEq ▸ List.take_prefix _ _)
    · rintro (hFirst | hSecond)
      · have hSame := hFirst.eq_of_length_le h
        rw [hSame, List.take_length]
      · exact (List.prefix_iff_eq_take.mp hSecond).symm

theorem couldBeV2Prefix_iff {buffer : List UInt8} :
    couldBeV2Prefix buffer = true ↔ buffer <+: proxyV2Signature ∨ proxyV2Signature <+: buffer := by
  rw [← take_min_eq_iff, couldBeV2Prefix, decide_eq_true_iff]

theorem couldBeProxyPrefix_iff {buffer : List UInt8} :
    couldBeProxyPrefix buffer = true ↔
      (buffer <+: proxyV1Start ∨ proxyV1Start <+: buffer) ∨
        (buffer <+: proxyV2Signature ∨ proxyV2Signature <+: buffer) := by
  rw [← take_min_eq_iff, ← couldBeV2Prefix_iff, couldBeProxyPrefix, Bool.or_eq_true,
    decide_eq_true_iff]

/-- What a longer buffer could still be, a shorter one could be as well. -/
theorem comparable_of_append {buffer more start : List UInt8}
    (h : buffer ++ more <+: start ∨ start <+: buffer ++ more) :
    buffer <+: start ∨ start <+: buffer := by
  rcases h with h | h
  · exact Or.inl ((List.prefix_append _ _).trans h)
  · exact List.prefix_or_prefix_of_prefix (List.prefix_append _ _) h

theorem couldBeProxyPrefix_of_append {buffer more : List UInt8}
    (h : couldBeProxyPrefix (buffer ++ more) = true) : couldBeProxyPrefix buffer = true := by
  rw [couldBeProxyPrefix_iff] at h ⊢
  exact h.imp comparable_of_append comparable_of_append

/-- A buffer as long as the start of a line either has it or never will. -/
theorem proxyV1Start_prefix_append_iff {buffer more : List UInt8}
    (h : proxyV1Start.length ≤ buffer.length) :
    proxyV1Start <+: buffer ++ more ↔ proxyV1Start <+: buffer := by
  constructor
  · intro hStart
    exact List.prefix_of_prefix_length_le hStart (List.prefix_append _ _) h
  · intro hStart
    exact hStart.trans (List.prefix_append _ _)

/-! Line ends. -/

theorem findCrlf_append {buffer : List UInt8} {pos : Nat} (more : List UInt8)
    (h : findCrlf buffer = some pos) :
    findCrlf (buffer ++ more) = some pos ∧ pos + 2 ≤ buffer.length := by
  induction buffer generalizing pos with
  | nil => cases h
  | cons byte rest ih =>
      rw [findCrlf] at h
      split_ifs at h with hEnd
      · obtain ⟨tail, hTail⟩ := List.head?_eq_some_iff.mp hEnd.2
        cases h
        subst hTail
        simp [findCrlf, hEnd.1]
      · obtain ⟨before, hBefore, rfl⟩ := Option.map_eq_some_iff.mp h
        obtain ⟨hMore, hLength⟩ := ih hBefore
        have hHead : ¬(byte = 0x0d ∧ (rest ++ more).head? = some 0x0a) := by
          cases rest with
          | nil => simp at hLength
          | cons c tail => simpa using hEnd
        constructor
        · rw [List.cons_append, findCrlf, if_neg hHead, hMore]
          rfl
        · simp only [List.length_cons]
          omega

/-- A line end that appears later stands at the end of the buffer or after it. -/
theorem length_le_of_findCrlf_append {buffer more : List UInt8} {pos : Nat}
    (hNone : findCrlf buffer = none) (h : findCrlf (buffer ++ more) = some pos) :
    buffer.length ≤ pos + 1 := by
  induction buffer generalizing pos with
  | nil => simp
  | cons byte rest ih =>
      rw [findCrlf] at hNone
      split_ifs at hNone with hEnd
      rw [List.cons_append, findCrlf] at h
      split_ifs at h with hNow
      · cases h
        cases rest with
        | nil => simp
        | cons c tail => exact absurd (by simpa using hNow) hEnd
      · obtain ⟨before, hBefore, rfl⟩ := Option.map_eq_some_iff.mp h
        have hLength := ih (Option.map_eq_none_iff.mp hNone) hBefore
        simp only [List.length_cons]
        omega

/-- The first line of a stream, terminator included, has `n` octets. -/
structure FirstLine (stream : List UInt8) (n : Nat) : Prop where
  ends : crlf <:+ stream.take n
  within : n ≤ stream.length
  first : ∀ m < n, ¬crlf <:+ stream.take m

theorem FirstLine.unique {stream : List UInt8} {n m : Nat} (hn : FirstLine stream n)
    (hm : FirstLine stream m) : n = m := by
  rcases Nat.lt_trichotomy n m with h | h | h
  · exact absurd hn.ends (hm.first n h)
  · exact h
  · exact absurd hm.ends (hn.first m h)

theorem head?_of_take_eq {line : List UInt8} {byte : UInt8} {k : Nat}
    (h : line.take k = [byte]) : line.head? = some byte := by
  cases line with
  | nil => simp at h
  | cons c tail =>
      cases k with
      | zero => simp at h
      | succ j => simpa using (List.cons.inj h).1

theorem crlf_suffix_cons_iff {byte : UInt8} {line : List UInt8} :
    crlf <:+ byte :: line ↔ byte = 0x0d ∧ line = [0x0a] ∨ crlf <:+ line := by
  rw [List.suffix_cons_iff, crlf, List.cons.injEq]
  exact or_congr_left (and_congr eq_comm eq_comm)

theorem firstLine_of_findCrlf {stream : List UInt8} {pos : Nat} (h : findCrlf stream = some pos) :
    FirstLine stream (pos + 2) := by
  refine ⟨?_, (findCrlf_append [] h).2, ?_⟩
  · induction stream generalizing pos with
    | nil => cases h
    | cons byte rest ih =>
        rw [findCrlf] at h
        split_ifs at h with hEnd
        · obtain ⟨tail, rfl⟩ := List.head?_eq_some_iff.mp hEnd.2
          cases h
          simp [hEnd.1, crlf]
        · obtain ⟨before, hBefore, rfl⟩ := Option.map_eq_some_iff.mp h
          rw [List.take_succ_cons, crlf_suffix_cons_iff]
          exact Or.inr (ih hBefore)
  · induction stream generalizing pos with
    | nil => cases h
    | cons byte rest ih =>
        rw [findCrlf] at h
        intro m hm
        split_ifs at h with hEnd
        · cases h
          intro hSuffix
          have hLength := hSuffix.length_le
          simp only [crlf, List.length_cons, List.length_nil, List.length_take] at hLength
          omega
        · obtain ⟨before, hBefore, rfl⟩ := Option.map_eq_some_iff.mp h
          cases m with
          | zero => simp [crlf]
          | succ k =>
              rw [List.take_succ_cons, crlf_suffix_cons_iff]
              rintro (⟨rfl, hNext⟩ | hLater)
              · exact hEnd ⟨rfl, head?_of_take_eq hNext⟩
              · exact ih hBefore k (by omega) hLater

theorem findCrlf_of_firstLine {stream : List UInt8} {n : Nat} (h : FirstLine stream n) :
    findCrlf stream = some (n - 2) := by
  cases hFind : findCrlf stream with
  | some pos =>
      rw [h.unique (firstLine_of_findCrlf hFind)]
      rfl
  | none =>
      exfalso
      obtain ⟨hEnds, -, -⟩ := h
      induction stream generalizing n with
      | nil => simp [crlf] at hEnds
      | cons byte rest ih =>
          rw [findCrlf] at hFind
          split_ifs at hFind with hEnd
          cases n with
          | zero => simp [crlf] at hEnds
          | succ k =>
              rw [List.take_succ_cons, crlf_suffix_cons_iff] at hEnds
              rcases hEnds with ⟨rfl, hNext⟩ | hLater
              · exact hEnd ⟨rfl, head?_of_take_eq hNext⟩
              · exact ih (Option.map_eq_none_iff.mp hFind) hLater

/-! More input does not change a verdict. -/

theorem v2Length_append {buffer : List UInt8} (more : List UInt8)
    (h : proxyV2HeaderLen ≤ buffer.length) : v2Length (buffer ++ more) = v2Length buffer := by
  have hOctet : ∀ index < 16, (buffer ++ more).getD index 0 = buffer.getD index 0 := by
    intro index hIndex
    rw [List.getD_eq_getElem?_getD, List.getD_eq_getElem?_getD,
      List.getElem?_append_left (Nat.lt_of_lt_of_le hIndex h)]
  rw [v2Length, v2Length, beU16, beU16, hOctet 14 (by decide), hOctet (14 + 1) (by decide)]

theorem v2Length_take {stream : List UInt8} {n : Nat} (hHeader : proxyV2HeaderLen ≤ n)
    (hWithin : n ≤ stream.length) : v2Length (stream.take n) = v2Length stream := by
  conv_rhs => rw [← List.take_append_drop n stream]
  rw [v2Length_append _ (by rw [List.length_take]; omega)]

theorem lineVerdict_append {buffer : List UInt8} {pos : Nat} (more : List UInt8)
    (h : pos + 2 ≤ buffer.length) : lineVerdict (buffer ++ more) pos = lineVerdict buffer pos := by
  rw [lineVerdict, lineVerdict, List.take_append_of_le_length h]

theorem textVerdict_append {buffer : List UInt8} {verdict : PreambleVerdict} (more : List UInt8)
    (h : textVerdict buffer = some verdict) : textVerdict (buffer ++ more) = some verdict := by
  unfold textVerdict at h ⊢
  cases hFind : findCrlf buffer with
  | some pos =>
      obtain ⟨hMore, hWithin⟩ := findCrlf_append more hFind
      rw [hFind] at h
      rw [hMore]
      simp only [lineVerdict_append more hWithin]
      exact h
  | none =>
      simp only [hFind] at h
      obtain ⟨hLong, hVerdict⟩ := Option.ite_none_right_eq_some.mp h
      cases hMore : findCrlf (buffer ++ more) with
      | some pos =>
          have hPos := length_le_of_findCrlf_append hFind hMore
          simp only [lineVerdict]
          rw [if_pos (by omega), hVerdict]
      | none =>
          simp only [List.length_append]
          rw [if_pos (by omega), hVerdict]

theorem headerVerdict_append {buffer : List UInt8} {verdict : PreambleVerdict} (more : List UInt8)
    (hLength : proxyV2HeaderLen ≤ buffer.length) (h : headerVerdict buffer = some verdict) :
    headerVerdict (buffer ++ more) = some verdict := by
  simp only [headerVerdict, v2Length_append more hLength] at h ⊢
  split_ifs at h with hLong hComplete
  · rw [if_pos hLong, h]
  · rw [if_neg hLong, if_pos (by rw [List.length_append]; omega),
      List.take_append_of_le_length hComplete, h]

/-! The three kinds of buffer. -/

theorem preambleVerdict_of_text {buffer : List UInt8} (h : proxyV1Start <+: buffer) :
    preambleVerdict buffer = textVerdict buffer := by
  have hCould : couldBeProxyPrefix buffer = true := couldBeProxyPrefix_iff.mpr (Or.inl (Or.inr h))
  rw [preambleVerdict, if_neg (by simp [hCould]), if_pos h]

theorem not_text_of_signature {buffer : List UInt8} (h : proxyV2Signature <+: buffer) :
    ¬proxyV1Start <+: buffer := by
  intro hText
  have hStart : proxyV1Start <+: proxyV2Signature :=
    List.prefix_of_prefix_length_le hText h (by decide)
  revert hStart
  decide

theorem preambleVerdict_of_signature {buffer : List UInt8} (h : proxyV2Signature <+: buffer) :
    preambleVerdict buffer =
      if proxyV2HeaderLen ≤ buffer.length then headerVerdict buffer else none := by
  have hCould : couldBeProxyPrefix buffer = true := couldBeProxyPrefix_iff.mpr (Or.inr (Or.inr h))
  rw [preambleVerdict, if_neg (by simp [hCould]), if_neg (not_text_of_signature h)]

/-- A buffer that may become a preamble is still short, or of one of two kinds. -/
theorem couldBeProxyPrefix_cases {buffer : List UInt8} (h : couldBeProxyPrefix buffer = true) :
    proxyV1Start <+: buffer ∨ proxyV2Signature <+: buffer ∨
      ¬proxyV1Start <+: buffer ∧ buffer.length < proxyV2Signature.length ∧
        (buffer <+: proxyV1Start ∨ buffer <+: proxyV2Signature) := by
  by_cases hText : proxyV1Start <+: buffer
  · exact Or.inl hText
  by_cases hBinary : proxyV2Signature <+: buffer
  · exact Or.inr (Or.inl hBinary)
  rcases couldBeProxyPrefix_iff.mp h with (hShort | hStart) | (hShort | hStart)
  · have hLength := hShort.length_le
    exact Or.inr (Or.inr ⟨hText, Nat.lt_of_le_of_lt hLength (by decide), Or.inl hShort⟩)
  · exact absurd hStart hText
  · refine Or.inr (Or.inr ⟨hText, Nat.lt_of_le_of_ne hShort.length_le ?_, Or.inr hShort⟩)
    intro hLength
    exact hBinary (hShort.eq_of_length hLength ▸ List.prefix_refl _)
  · exact absurd hStart hBinary

theorem preambleVerdict_of_short {buffer : List UInt8} (hCould : couldBeProxyPrefix buffer = true)
    (hText : ¬proxyV1Start <+: buffer) (hShort : buffer.length < proxyV2Signature.length) :
    preambleVerdict buffer = none := by
  have hHeader : ¬proxyV2HeaderLen ≤ buffer.length :=
    Nat.not_le.mpr (Nat.lt_trans hShort (by decide))
  rw [preambleVerdict, if_neg (by simp [hCould]), if_neg hText, if_neg hHeader]

theorem stable_preambleVerdict : Incremental.Stable preambleVerdict := by
  intro buffer more verdict h
  cases hCould : couldBeProxyPrefix buffer with
  | false =>
      have hStill : couldBeProxyPrefix (buffer ++ more) = false := by
        rw [Bool.eq_false_iff]
        intro hMore
        rw [couldBeProxyPrefix_of_append hMore] at hCould
        cases hCould
      rw [preambleVerdict, if_pos hCould] at h
      rw [preambleVerdict, if_pos hStill, h]
  | true =>
      rcases couldBeProxyPrefix_cases hCould with hText | hBinary | ⟨hText, hShort, -⟩
      · rw [preambleVerdict_of_text hText] at h
        rw [preambleVerdict_of_text (hText.trans (List.prefix_append _ _))]
        exact textVerdict_append more h
      · rw [preambleVerdict_of_signature hBinary] at h
        obtain ⟨hLength, hHeader⟩ := Option.ite_none_right_eq_some.mp h
        rw [preambleVerdict_of_signature (hBinary.trans (List.prefix_append _ _)),
          if_pos (by rw [List.length_append]; omega)]
        exact headerVerdict_append more hLength hHeader
      · rw [preambleVerdict_of_short hCould hText hShort] at h
        cases h

/-- A buffer without a verdict is within the ceiling. -/
theorem length_le_of_preambleVerdict {buffer : List UInt8} (h : preambleVerdict buffer = none) :
    buffer.length ≤ maxPreambleBuffer := by
  have hMax : maxPreambleBuffer = 1040 := by decide
  cases hCould : couldBeProxyPrefix buffer with
  | false => simp [preambleVerdict, hCould] at h
  | true =>
      rcases couldBeProxyPrefix_cases hCould with hText | hBinary | ⟨-, hShort, -⟩
      · rw [preambleVerdict_of_text hText, textVerdict] at h
        cases hFind : findCrlf buffer with
        | some pos => simp [hFind] at h
        | none =>
            have hLine : buffer.length ≤ proxyV1MaxBytes := by simpa [hFind] using h
            exact hLine.trans (by decide)
      · rw [preambleVerdict_of_signature hBinary] at h
        have hHeader : proxyV2HeaderLen = 16 := rfl
        have hLen : proxyV2MaxLen = 1024 := rfl
        by_cases hFixed : proxyV2HeaderLen ≤ buffer.length
        · rw [if_pos hFixed, headerVerdict] at h
          by_cases hLong : proxyV2MaxLen < v2Length buffer
          · simp [hLong] at h
          · by_cases hTotal : proxyV2HeaderLen + v2Length buffer ≤ buffer.length
            · simp [hLong, hTotal] at h
            · omega
        · omega
      · have hSignature : proxyV2Signature.length = 12 := by decide
        omega

/-! The tests of the loop give the verdict. -/

theorem takeV1Line_eq (buffer : List UInt8) (pos : Nat) :
    takeV1Line buffer pos = (lineVerdict buffer pos).leftover buffer := by
  simp only [takeV1Line, lineVerdict, PreambleVerdict.leftover]
  by_cases hLong : proxyV1MaxBytes < pos + 2
  · simp only [if_pos hLong]
    rfl
  · simp only [if_neg hLong]
    cases parseProxyV1Line (buffer.take (pos + 2)) <;> rfl

theorem parseV2Addresses_ne_incomplete (family protocol len : Nat) (body : List UInt8) :
    parseV2Addresses family protocol len body ≠ .error .incomplete := by
  unfold parseV2Addresses
  split <;> try split_ifs
  all_goals simp

/-- A complete header is never reported as incomplete. -/
theorem parseProxyV2Header_ne_incomplete {buf : List UInt8} (hHeader : proxyV2HeaderLen ≤ buf.length)
    (hTotal : proxyV2HeaderLen + v2Length buf ≤ buf.length) :
    parseProxyV2Header buf ≠ .error .incomplete := by
  intro h
  -- Every guard either fails with another error or is excluded by the lengths.
  simp only [parseProxyV2Header, check_bind_eq_error, failIf_eq_error, failIf_eq_ok,
    Nat.not_lt.mpr hHeader, Nat.not_lt.mpr hTotal, reduceCtorEq, false_and, and_false,
    false_or] at h
  obtain ⟨-, -, -, -, -, -, -, -, h⟩ := h
  split_ifs at h
  · cases h
  · rcases bind_eq_error.mp h with hAddresses | ⟨endpoints, -, hPure⟩
    · exact parseV2Addresses_ne_incomplete _ _ _ _ hAddresses
    · cases hPure

theorem takeV2Header_eq (buffer : List UInt8) :
    takeV2Header buffer = (headerVerdict buffer).map (·.leftover buffer) := by
  simp only [takeV2Header, headerVerdict]
  by_cases hLong : proxyV2MaxLen < v2Length buffer
  · simp only [if_pos hLong]
    rfl
  by_cases hTotal : proxyV2HeaderLen + v2Length buffer ≤ buffer.length
  · simp only [if_neg hLong, if_pos hTotal, Option.map_some]
    have hSame := v2Length_take (Nat.le_add_right _ _) hTotal
    have hLength : (buffer.take (proxyV2HeaderLen + v2Length buffer)).length =
        proxyV2HeaderLen + v2Length buffer := by
      rw [List.length_take]
      omega
    have hComplete := parseProxyV2Header_ne_incomplete (by rw [hLength]; omega)
      (by rw [hSame, hLength] : proxyV2HeaderLen +
        v2Length (buffer.take (proxyV2HeaderLen + v2Length buffer)) ≤ _)
    cases hParse : parseProxyV2Header (buffer.take (proxyV2HeaderLen + v2Length buffer)) with
    | ok parsed => rfl
    | error error =>
        cases error with
        | incomplete => exact absurd hParse hComplete
        | tooLong => rfl
        | invalid => rfl
  · simp only [if_neg hLong, if_neg hTotal]
    rfl

theorem startsWithV2Prefix_of_signature {buffer : List UInt8} (h : proxyV2Signature <+: buffer) :
    startsWithV2Prefix buffer = true := by
  have hNonempty : buffer.isEmpty = false := by
    cases buffer with
    | nil => exact absurd h (by decide)
    | cons byte rest => rfl
  rw [startsWithV2Prefix, couldBeV2Prefix_iff.mpr (Or.inr h), hNonempty]
  rfl

theorem not_startsWithV2Prefix_of_text {buffer : List UInt8} (h : proxyV1Start <+: buffer) :
    startsWithV2Prefix buffer = false := by
  rw [Bool.eq_false_iff]
  intro hBinary
  rw [startsWithV2Prefix, Bool.and_eq_true, couldBeV2Prefix_iff] at hBinary
  rcases hBinary.1 with hShort | hStart
  · exact absurd (h.trans hShort) (by decide)
  · exact not_text_of_signature hStart h

theorem textResult_eq (buffer : List UInt8) :
    (match findCrlf buffer with
      | some crlfPos => some (takeV1Line buffer crlfPos)
      | none => if proxyV1MaxBytes < buffer.length then some (.error .tooLong) else none) =
      (textVerdict buffer).map (·.leftover buffer) := by
  unfold textVerdict
  cases findCrlf buffer with
  | some pos => simp [takeV1Line_eq]
  | none =>
      by_cases hLong : proxyV1MaxBytes < buffer.length
      · simp only [if_pos hLong]
        rfl
      · simp only [if_neg hLong]
        rfl

/-- A buffer that can still be a preamble is parsed to its verdict. -/
theorem tryParseBuffer_eq {buffer : List UInt8} (h : couldBeProxyPrefix buffer = true) :
    tryParseBuffer buffer = (preambleVerdict buffer).map (·.leftover buffer) := by
  rcases couldBeProxyPrefix_cases h with hText | hBinary | ⟨hText, hShort, -⟩
  · have hNonempty : ¬buffer.isEmpty = true := by
      rw [List.isEmpty_iff]
      rintro rfl
      exact absurd hText (by decide)
    rw [preambleVerdict_of_text hText, tryParseBuffer, if_neg hNonempty,
      if_neg (by simp [not_startsWithV2Prefix_of_text hText]), if_pos hText]
    exact textResult_eq buffer
  · have hStarts := startsWithV2Prefix_of_signature hBinary
    have hNonempty : ¬buffer.isEmpty = true := by
      rw [startsWithV2Prefix, Bool.and_eq_true, Bool.not_eq_true'] at hStarts
      simp [hStarts.2]
    rw [preambleVerdict_of_signature hBinary, tryParseBuffer, if_neg hNonempty]
    by_cases hHeader : proxyV2HeaderLen ≤ buffer.length
    · rw [if_pos ⟨hStarts, hHeader⟩, if_pos hHeader]
      exact takeV2Header_eq buffer
    · rw [if_neg (fun hBoth => hHeader hBoth.2), if_neg (not_text_of_signature hBinary),
        if_neg (by simp [h]), if_neg hHeader]
      rfl
  · have hHeader : ¬proxyV2HeaderLen ≤ buffer.length :=
      Nat.not_le.mpr (Nat.lt_trans hShort (by decide))
    rw [preambleVerdict_of_short h hText hShort, tryParseBuffer]
    simp [h, hText, hHeader]

theorem mem_of_findCrlf {buffer : List UInt8} {pos : Nat} (h : findCrlf buffer = some pos) :
    0x0d ∈ buffer := by
  obtain ⟨⟨front, hFront⟩, -, -⟩ := firstLine_of_findCrlf h
  apply List.mem_of_mem_take (i := pos + 2)
  rw [← hFront]
  simp [crlf]

/-- A start that is neither text nor binary cannot hold a line end. -/
theorem text_of_findCrlf {buffer : List UInt8} {pos : Nat} (hCould : couldBeProxyPrefix buffer = true)
    (hBinary : startsWithV2Prefix buffer = false) (h : findCrlf buffer = some pos) :
    proxyV1Start <+: buffer := by
  rcases couldBeProxyPrefix_cases hCould with hText | hStart | ⟨-, -, hShort | hShort⟩
  · exact hText
  · rw [startsWithV2Prefix_of_signature hStart] at hBinary
    cases hBinary
  · exact absurd (hShort.subset (mem_of_findCrlf h)) (by decide)
  · have hNonempty : buffer.isEmpty = false := by
      cases buffer with
      | nil => cases h
      | cons byte rest => rfl
    rw [startsWithV2Prefix, couldBeV2Prefix_iff.mpr (Or.inl hShort), hNonempty] at hBinary
    cases hBinary

/-- The test on the start of a buffer says that it can never be a preamble. -/
theorem checkBuffer_start_iff {buffer : List UInt8} :
    (startsWithV2Prefix buffer = false ∧ ¬proxyV1Start <+: buffer ∧ buffer.isEmpty = false ∧
      couldBeProxyPrefix buffer = false) ↔ couldBeProxyPrefix buffer = false := by
  constructor
  · exact fun h => h.2.2.2
  · intro hNever
    have hNot : ¬couldBeProxyPrefix buffer = true := by simp [hNever]
    refine ⟨?_, ?_, ?_, hNever⟩
    · rw [Bool.eq_false_iff]
      intro hStarts
      rw [startsWithV2Prefix, Bool.and_eq_true, couldBeV2Prefix_iff] at hStarts
      exact hNot (couldBeProxyPrefix_iff.mpr (Or.inr hStarts.1))
    · intro hText
      exact hNot (couldBeProxyPrefix_iff.mpr (Or.inl (Or.inr hText)))
    · cases buffer with
      | nil => exact absurd rfl hNot
      | cons byte rest => rfl

/-- A buffer that passes the checks can still be a preamble. -/
theorem couldBeProxyPrefix_of_checkBuffer {buffer : List UInt8}
    (hGuard : ¬maxPreambleBuffer + readSize < buffer.length) (h : checkBuffer buffer = none) :
    couldBeProxyPrefix buffer = true := by
  by_contra hNot
  rw [Bool.not_eq_true] at hNot
  rw [checkBuffer, if_neg hGuard, if_pos (checkBuffer_start_iff.mpr hNot)] at h
  cases h

/-- What the checks after a read reject or accept is the verdict. -/
theorem preambleVerdict_of_checkBuffer {buffer : List UInt8} {result : PreambleResult}
    (hGuard : ¬maxPreambleBuffer + readSize < buffer.length)
    (h : checkBuffer buffer = some result) :
    ∃ verdict, preambleVerdict buffer = some verdict ∧ verdict.leftover buffer = result := by
  rw [checkBuffer, if_neg hGuard] at h
  cases hCould : couldBeProxyPrefix buffer with
  | false =>
      rw [if_pos (checkBuffer_start_iff.mpr hCould)] at h
      exact ⟨.error .invalid, if_pos hCould, Option.some.inj h⟩
  | true =>
      rw [if_neg (by rw [checkBuffer_start_iff, hCould]; decide)] at h
      obtain ⟨hBinary, h⟩ := Option.ite_none_right_eq_some.mp h
      cases hFind : findCrlf buffer with
      | some pos =>
          have hText := text_of_findCrlf hCould hBinary hFind
          simp only [hFind, takeV1Line_eq] at h
          refine ⟨lineVerdict buffer pos, ?_, Option.some.inj h⟩
          rw [preambleVerdict_of_text hText, textVerdict, hFind]
      | none =>
          simp only [hFind] at h
          obtain ⟨⟨hLong, -⟩, hResult⟩ := Option.ite_none_right_eq_some.mp h
          have hText : proxyV1Start <+: buffer := by
            rcases couldBeProxyPrefix_cases hCould with hText | hStart | ⟨-, hShort, -⟩
            · exact hText
            · rw [startsWithV2Prefix_of_signature hStart] at hBinary
              cases hBinary
            · exact absurd (Nat.lt_trans hLong hShort) (by decide)
          refine ⟨.error .tooLong, ?_, Option.some.inj hResult⟩
          rw [preambleVerdict_of_text hText, textVerdict, hFind]
          exact if_pos hLong

/-! The loop. -/

/-- How a read ends: with the verdict on what was buffered, or with the end of
the stream. -/
def conclude : Option PreambleVerdict × List UInt8 × List (List UInt8) →
    PreambleResult × List (List UInt8)
  | (some verdict, buffer, rest) => (verdict.leftover buffer, rest)
  | (none, _, rest) => (.error .invalid, rest)

/-- The loop is a scan for the verdict: no guard on the size ever fires. -/
theorem readLoop_eq (buffer : List UInt8) (reads : List (List UInt8))
    (hReads : ∀ bytes ∈ reads, bytes.length ≤ readSize)
    (hCould : couldBeProxyPrefix buffer = true) :
    readLoop buffer reads = conclude (Incremental.scan preambleVerdict buffer reads) := by
  induction reads generalizing buffer with
  | nil =>
      rw [readLoop, tryParseBuffer_eq hCould]
      cases hVerdict : preambleVerdict buffer with
      | some verdict =>
          rw [Incremental.scan_of_some _ hVerdict]
          rfl
      | none =>
          have hGuard := Nat.not_lt.mpr (length_le_of_preambleVerdict hVerdict)
          simp [Incremental.scan, hVerdict, conclude, hGuard]
  | cons bytes rest ih =>
      rw [readLoop, tryParseBuffer_eq hCould]
      cases hVerdict : preambleVerdict buffer with
      | some verdict =>
          rw [Incremental.scan_of_some _ hVerdict]
          rfl
      | none =>
          have hLength := length_le_of_preambleVerdict hVerdict
          have hBytes := hReads bytes List.mem_cons_self
          have hGuard : ¬maxPreambleBuffer + readSize < (buffer ++ bytes).length := by
            rw [List.length_append]
            omega
          simp only [Option.map_none, Nat.not_lt.mpr hLength, ↓reduceIte, Incremental.scan, hVerdict]
          cases hCheck : checkBuffer (buffer ++ bytes) with
          | some result =>
              obtain ⟨verdict, hNext, rfl⟩ := preambleVerdict_of_checkBuffer hGuard hCheck
              rw [Incremental.scan_of_some _ hNext]
              rfl
          | none =>
              exact ih (buffer ++ bytes) (fun part hPart => hReads part (List.mem_cons_of_mem _ hPart))
                (couldBeProxyPrefix_of_checkBuffer hGuard hCheck)

/-! What a preamble is. -/

/-- The first `n` octets of the stream are a preamble that names the endpoints:
its first line, of at most 107 octets, or a binary header with the length it
states. -/
inductive Preamble (stream : List UInt8) (endpoints : ProxyEndpoints) : Nat → Prop where
  | text {n : Nat} (hLine : FirstLine stream n) (hMax : n ≤ proxyV1MaxBytes)
      (hParse : parseProxyV1Line (stream.take n) = .ok endpoints) : Preamble stream endpoints n
  | binary {n : Nat} (hTotal : n = proxyV2HeaderLen + v2Length stream)
      (hMax : v2Length stream ≤ proxyV2MaxLen) (hWithin : n ≤ stream.length)
      (hParse : parseProxyV2Header (stream.take n) = .ok (endpoints, n)) :
      Preamble stream endpoints n

theorem Preamble.within {stream : List UInt8} {endpoints : ProxyEndpoints} {n : Nat}
    (h : Preamble stream endpoints n) : n ≤ stream.length := by
  cases h with
  | text hLine => exact hLine.within
  | binary _ _ hWithin => exact hWithin

theorem text_of_parseProxyV1Line {line : List UInt8} {endpoints : ProxyEndpoints}
    (h : parseProxyV1Line line = .ok endpoints) : proxyV1Start <+: line := by
  simp only [parseProxyV1Line, check_bind_eq_ok, failIf_eq_ok, not_not] at h
  exact h.2.2.1

/-- A parsed header has the signature and takes what its length field says. -/
theorem parseProxyV2Header_eq_ok {buf : List UInt8} {endpoints : ProxyEndpoints} {consumed : Nat}
    (h : parseProxyV2Header buf = .ok (endpoints, consumed)) :
    proxyV2HeaderLen ≤ buf.length ∧ proxyV2Signature <+: buf ∧
      consumed = proxyV2HeaderLen + v2Length buf := by
  simp only [parseProxyV2Header, check_bind_eq_ok, failIf_eq_ok, not_not, not_lt] at h
  obtain ⟨hLength, hSignature, -, -, -, -, -, -, h⟩ := h
  refine ⟨hLength, hSignature ▸ List.take_prefix _ _, ?_⟩
  split_ifs at h
  · cases h
    rfl
  · obtain ⟨_, -, hPure⟩ := bind_eq_ok.mp h
    cases hPure
    rfl

theorem lineVerdict_eq_ok {buffer : List UInt8} {pos n : Nat} {endpoints : ProxyEndpoints} :
    lineVerdict buffer pos = .ok (endpoints, n) ↔
      n = pos + 2 ∧ n ≤ proxyV1MaxBytes ∧ parseProxyV1Line (buffer.take n) = .ok endpoints := by
  unfold lineVerdict
  split_ifs with hLong
  · simp only [false_iff]
    rintro ⟨rfl, hMax, -⟩
    omega
  · cases hParse : parseProxyV1Line (buffer.take (pos + 2)) with
    | ok parsed =>
        simp only [Except.map, Except.mapError, Except.ok.injEq, Prod.mk.injEq]
        constructor
        · rintro ⟨rfl, rfl⟩
          exact ⟨rfl, Nat.not_lt.mp hLong, hParse⟩
        · rintro ⟨rfl, -, hSame⟩
          rw [hParse] at hSame
          exact ⟨Except.ok.inj hSame, rfl⟩
    | error error =>
        simp only [Except.map, Except.mapError, reduceCtorEq, false_iff]
        rintro ⟨rfl, -, hSame⟩
        rw [hParse] at hSame
        cases hSame

theorem preamble_of_headerVerdict {stream : List UInt8} {endpoints : ProxyEndpoints} {n : Nat}
    (h : headerVerdict stream = some (.ok (endpoints, n))) : Preamble stream endpoints n := by
  simp only [headerVerdict] at h
  split_ifs at h with hLong hWithin
  · cases h
  · cases hParse : parseProxyV2Header (stream.take (proxyV2HeaderLen + v2Length stream)) with
    | error error =>
        rw [hParse] at h
        cases h
    | ok parsed =>
        obtain ⟨found, consumed⟩ := parsed
        rw [hParse] at h
        cases h
        have hConsumed := (parseProxyV2Header_eq_ok hParse).2.2
        rw [v2Length_take (Nat.le_add_right _ _) hWithin] at hConsumed
        subst hConsumed
        exact Preamble.binary rfl (Nat.not_lt.mp hLong) hWithin hParse

/-- The verdict names endpoints exactly where there is a preamble. -/
theorem preambleVerdict_eq_ok {stream : List UInt8} {endpoints : ProxyEndpoints} {n : Nat} :
    preambleVerdict stream = some (.ok (endpoints, n)) ↔ Preamble stream endpoints n := by
  constructor
  · intro h
    cases hCould : couldBeProxyPrefix stream with
    | false =>
        rw [preambleVerdict, if_pos hCould] at h
        cases h
    | true =>
        rcases couldBeProxyPrefix_cases hCould with hText | hBinary | ⟨hText, hShort, -⟩
        · rw [preambleVerdict_of_text hText, textVerdict] at h
          cases hFind : findCrlf stream with
          | none =>
              simp only [hFind] at h
              split_ifs at h
              cases h
          | some pos =>
              simp only [hFind, Option.some.injEq] at h
              obtain ⟨rfl, hMax, hParse⟩ := lineVerdict_eq_ok.mp h
              exact Preamble.text (firstLine_of_findCrlf hFind) hMax hParse
        · rw [preambleVerdict_of_signature hBinary] at h
          exact preamble_of_headerVerdict (Option.ite_none_right_eq_some.mp h).2
        · rw [preambleVerdict_of_short hCould hText hShort] at h
          cases h
  · intro h
    cases h with
    | text hLine hMax hParse =>
        have hText := (text_of_parseProxyV1Line hParse).trans (List.take_prefix _ _)
        have hTwo : 2 ≤ n := by
          have hLength := hLine.ends.length_le
          simp only [crlf, List.length_cons, List.length_nil, List.length_take] at hLength
          omega
        rw [preambleVerdict_of_text hText, textVerdict, findCrlf_of_firstLine hLine]
        exact congrArg some (lineVerdict_eq_ok.mpr ⟨by omega, hMax, hParse⟩)
    | binary hTotal hMax hWithin hParse =>
        subst hTotal
        obtain ⟨hLength, hSignature, -⟩ := parseProxyV2Header_eq_ok hParse
        rw [preambleVerdict_of_signature (hSignature.trans (List.take_prefix _ _)),
          if_pos (Nat.le_trans (Nat.le_add_right _ _) hWithin), headerVerdict]
        simp only [Nat.not_lt.mpr hMax, ↓reduceIte, hWithin, hParse]
        rfl

/-- A way to deliver a stream: reads of 1 to 256 octets, then its end. -/
structure Delivery (stream : List UInt8) where
  reads : List (List UInt8)
  sizes : ∀ bytes ∈ reads, 1 ≤ bytes.length ∧ bytes.length ≤ readSize
  flatten : reads.flatten = stream

namespace Delivery

variable {stream : List UInt8}

def result (delivery : Delivery stream) : PreambleResult := (readProxyPreamble delivery.reads).1

/-- The octets of the stream that were not read. -/
def unread (delivery : Delivery stream) : List UInt8 := (readProxyPreamble delivery.reads).2.flatten

/-- The endpoints or the error. -/
def endpoints (delivery : Delivery stream) : Except ProxyReadError ProxyEndpoints :=
  delivery.result.map Prod.fst

theorem readProxyPreamble_eq (delivery : Delivery stream) :
    readProxyPreamble delivery.reads =
      conclude (Incremental.scan preambleVerdict [] delivery.reads) :=
  readLoop_eq [] delivery.reads (fun bytes hBytes => (delivery.sizes bytes hBytes).2) rfl

/-- The outcome is that of the stream. -/
theorem endpoints_eq (delivery : Delivery stream) :
    delivery.endpoints =
      ((preambleVerdict stream).getD (.error .invalid)).map Prod.fst := by
  have hVerdict := Incremental.verdict_scan stable_preambleVerdict [] delivery.reads
  rw [List.nil_append, delivery.flatten] at hVerdict
  rw [endpoints, result, readProxyPreamble_eq, ← hVerdict]
  rcases Incremental.scan preambleVerdict [] delivery.reads with ⟨_ | verdict, buffer, rest⟩
  · rfl
  · cases verdict <;> rfl

/-- What is read beyond the preamble is returned, and the rest is still to come. -/
theorem split_of_ok (delivery : Delivery stream) {found : ProxyEndpoints} {leftover : List UInt8}
    (h : delivery.result = .ok (found, leftover)) :
    ∃ n, Preamble stream found n ∧ stream.take n ++ leftover ++ delivery.unread = stream := by
  have hVerdict := Incremental.verdict_scan stable_preambleVerdict [] delivery.reads
  have hBuffer := Incremental.verdict_buffer_scan preambleVerdict [] delivery.reads
  have hStream := Incremental.flatten_scan preambleVerdict [] delivery.reads
  rw [List.nil_append, delivery.flatten] at hVerdict hStream
  rw [result, readProxyPreamble_eq] at h
  rw [unread, readProxyPreamble_eq]
  generalize Incremental.scan preambleVerdict [] delivery.reads = outcome at hVerdict hBuffer hStream h ⊢
  obtain ⟨_ | verdict, buffer, rest⟩ := outcome
  · cases h
  · cases verdict with
    | error error => cases h
    | ok named =>
        obtain ⟨named, n⟩ := named
        cases h
        have hWithin := (preambleVerdict_eq_ok.mp hBuffer.symm).within
        refine ⟨n, preambleVerdict_eq_ok.mp hVerdict.symm, ?_⟩
        change stream.take n ++ buffer.drop n ++ rest.flatten = stream
        rw [← hStream, List.take_append_of_le_length hWithin, List.take_append_drop]

end Delivery

/-- The preamble does not depend on how the stream is cut into reads: any two
deliveries name the same endpoints or fail with the same error. On success what
was read is one preamble and the leftover, and a stream with a valid preamble is
accepted in every delivery. -/
theorem proxy_preamble_independent_of_reads {stream : List UInt8} (first second : Delivery stream) :
    first.endpoints = second.endpoints ∧
      (∀ found leftover, first.result = .ok (found, leftover) →
        ∃ n, Preamble stream found n ∧ stream.take n ++ leftover ++ first.unread = stream ∧
          leftover ++ first.unread = stream.drop n) ∧
      ∀ found n, Preamble stream found n →
        ∃ leftover, first.result = .ok (found, leftover) := by
  refine ⟨?_, ?_, ?_⟩
  · rw [first.endpoints_eq, second.endpoints_eq]
  · intro found leftover hOk
    obtain ⟨n, hPreamble, hSplit⟩ := first.split_of_ok hOk
    refine ⟨n, hPreamble, hSplit, ?_⟩
    have hDrop := congrArg (List.drop n) hSplit
    rwa [List.append_assoc, List.drop_append_of_le_length
      (by rw [List.length_take]; have := hPreamble.within; omega), List.drop_take_self,
      List.nil_append] at hDrop
  · intro found n hPreamble
    have hEndpoints := first.endpoints_eq
    rw [preambleVerdict_eq_ok.mpr hPreamble, Delivery.endpoints] at hEndpoints
    cases hResult : first.result with
    | error error =>
        rw [hResult] at hEndpoints
        cases hEndpoints
    | ok pair =>
        obtain ⟨named, leftover⟩ := pair
        rw [hResult] at hEndpoints
        cases hEndpoints
        exact ⟨leftover, rfl⟩

end Eggserve.Server
