import Eggserve.Primitives.RequestTarget
import Eggserve.Static.Path.Components

/-! The confined path. The request-target parser classifies the target, then
the path component is admitted on one of two branches: already normalized text
is kept as it is, anything else is decoded and normalized first. Both branches
end at the component validator. -/
namespace Eggserve.Static
open Rust Eggserve.Primitives

structure ConfinedPath where
  decoded : Str
  components : List Str
  pathPolicy : PathPolicy
  deriving DecidableEq, Repr

namespace ConfinedPath

/-- The branch for text that is already normalized. -/
def fastBranch (path : Str) (policy : PathPolicy) : Except PathRejection ConfinedPath := do
  let components := splitComponents path
  validateComponents components policy
  return { decoded := path, components := components, pathPolicy := policy }

/-- The branch that decodes escapes and collapses slashes. -/
def decodeBranch (path : Str) (policy : PathPolicy) : Except PathRejection ConfinedPath := do
  let decoded ← percentDecode path
  let normalized := normalizePath decoded
  let normalizedPath : Str := if normalized.isEmpty then "/" else '/' :: normalized
  let parts := splitComponents normalized
  validateComponents parts policy
  return { decoded := normalizedPath, components := parts, pathPolicy := policy }

def fromPathComponent (path : Str) (policy : PathPolicy) : Except PathRejection ConfinedPath :=
  if path.head? = some '/' ∧ '%' ∉ path ∧ ¬['/', '/'] <:+: path then fastBranch path policy
  else decodeBranch path policy

def parse (raw : Str) (policy : PathPolicy) : Except PathRejection ConfinedPath := do
  failIf ((utf8 raw).length > 8192) .tooLong
  failIf (0 ∈ utf8 raw) .nulByte
  match RequestTarget.parse raw with
  | .ok target => fromPathComponent target.path policy
  | .error .empty => .error .empty
  | .error .containsWhitespace => .error .unsupportedUriForm
  | .error _ => .error .unsupportedUriForm

/-- The decoded, normalized path. -/
def asStr (path : ConfinedPath) : Str := path.decoded

/-- What a path admitted from a rooted component looks like on either branch. -/
structure Admitted (policy : PathPolicy) (p : ConfinedPath) : Prop where
  rooted : p.decoded.head? = some '/'
  no_doubled : ¬['/', '/'] <:+: p.decoded
  split : splitComponents p.decoded = p.components
  confined : ∀ component ∈ p.components, ConfinedComponent policy component
  policy_eq : p.pathPolicy = policy

theorem fastBranch_eq_ok {path : Str} {policy : PathPolicy} {p : ConfinedPath} :
    fastBranch path policy = .ok p ↔
      (∀ component ∈ splitComponents path, ConfinedComponent policy component) ∧
        p = { decoded := path, components := splitComponents path, pathPolicy := policy } := by
  rw [fastBranch, check_bind_eq_ok, validateComponents_eq_ok]
  exact and_congr_right fun _ => ⟨fun h => (Except.ok.inj h).symm, fun h => congrArg _ h.symm⟩

/-- The root is written the same way whether or not a component follows it. -/
theorem decodeBranch_eq_ok {path : Str} {policy : PathPolicy} {p : ConfinedPath} :
    decodeBranch path policy = .ok p ↔
      ∃ decoded, percentDecode path = .ok decoded ∧
        (∀ component ∈ splitComponents (normalizePath decoded),
          ConfinedComponent policy component) ∧
        p = { decoded := '/' :: normalizePath decoded
              components := splitComponents (normalizePath decoded)
              pathPolicy := policy } := by
  rw [decodeBranch, bind_eq_ok]
  refine exists_congr fun decoded => and_congr_right fun _ => ?_
  rw [check_bind_eq_ok, validateComponents_eq_ok]
  refine and_congr_right fun _ => ?_
  cases hNormalized : normalizePath decoded with
  | nil => exact ⟨fun h => (Except.ok.inj h).symm, fun h => congrArg _ h.symm⟩
  | cons c rest => exact ⟨fun h => (Except.ok.inj h).symm, fun h => congrArg _ h.symm⟩

theorem admitted_of_fastBranch {path : Str} {policy : PathPolicy} {p : ConfinedPath}
    (hRoot : path.head? = some '/') (hDouble : ¬['/', '/'] <:+: path)
    (h : fastBranch path policy = .ok p) : Admitted policy p := by
  obtain ⟨hConfined, rfl⟩ := fastBranch_eq_ok.mp h
  exact ⟨hRoot, hDouble, rfl, hConfined, rfl⟩

theorem admitted_of_decodeBranch {path : Str} {policy : PathPolicy} {p : ConfinedPath}
    (h : decodeBranch path policy = .ok p) : Admitted policy p := by
  obtain ⟨decoded, _, hConfined, rfl⟩ := decodeBranch_eq_ok.mp h
  exact ⟨rfl, not_infix_cons_normalizePath decoded, splitComponents_cons_slash _, hConfined, rfl⟩

theorem admitted_of_fromPathComponent {path : Str} {policy : PathPolicy} {p : ConfinedPath}
    (h : fromPathComponent path policy = .ok p) : Admitted policy p := by
  rw [fromPathComponent] at h
  split_ifs at h with hFast
  · exact admitted_of_fastBranch hFast.1 hFast.2.2 h
  · exact admitted_of_decodeBranch h

/-- A parsed target is short, free of NUL, and admitted from its path. -/
theorem parse_eq_ok {raw : Str} {policy : PathPolicy} {p : ConfinedPath} :
    parse raw policy = .ok p ↔
      (utf8 raw).length ≤ 8192 ∧ 0 ∉ utf8 raw ∧
        ∃ target, RequestTarget.parse raw = .ok target ∧
          fromPathComponent target.path policy = .ok p := by
  rw [parse, check_bind_eq_ok, check_bind_eq_ok, failIf_eq_ok, failIf_eq_ok, Nat.not_lt]
  refine and_congr_right fun _ => and_congr_right fun _ => ?_
  cases hTarget : RequestTarget.parse raw with
  | error e => cases e <;> simp
  | ok target => simp

/-- No encoding, re-encoding or slash pattern lets a forbidden component
through, on either branch, and the text names exactly the components. -/
theorem parse_confines {raw : Str} {policy : PathPolicy} {p : ConfinedPath}
    (h : parse raw policy = .ok p) :
    (∀ component ∈ p.components, ConfinedComponent policy component) ∧
      p.asStr.head? = some '/' ∧
      (p.asStr.splitOn '/').filter (fun segment => !segment.isEmpty) = p.components := by
  obtain ⟨_, _, target, _, hPath⟩ := parse_eq_ok.mp h
  have hAdmitted := admitted_of_fromPathComponent hPath
  exact ⟨hAdmitted.confined, hAdmitted.rooted, hAdmitted.split⟩

theorem parse_confines_escaped_target :
    ∃ p, parse "/%66oo//bar" {} = .ok p ∧ p.components = ["foo".toList, "bar".toList] ∧
      ∀ component ∈ p.components, ConfinedComponent {} component := by
  have h : parse "/%66oo//bar" {} =
      .ok { decoded := "/foo/bar", components := ["foo", "bar"], pathPolicy := {} } := by
    decide +kernel
  exact ⟨_, h, rfl, (parse_confines h).1⟩

/-! The two branches agree on the text that the fast branch is for. -/

theorem exists_mem_splitOn {c sep : Char} {path : Str} (hc : c ≠ sep) (h : c ∈ path) :
    ∃ segment ∈ path.splitOn sep, c ∈ segment := by
  induction path with
  | nil => cases h
  | cons d rest ih =>
      rw [List.splitOn_cons_eq_if_modifyHead]
      cases hs : rest.splitOn sep with
      | nil => exact absurd hs (List.splitOn_ne_nil sep rest)
      | cons first others =>
          rw [hs] at ih
          by_cases hd : d = sep
          · obtain ⟨segment, hSegment, hMem⟩ := ih ((List.mem_cons.mp h).resolve_left (hd ▸ hc))
            exact ⟨segment, by simpa [hd] using Or.inr hSegment, hMem⟩
          · simp only [beq_iff_eq, hd, ↓reduceIte, List.modifyHead_cons, List.mem_cons]
            rcases List.mem_cons.mp h with rfl | hRest
            · exact ⟨_, Or.inl rfl, List.mem_cons_self⟩
            · obtain ⟨segment, hSegment, hMem⟩ := ih hRest
              rcases List.mem_cons.mp hSegment with rfl | hOther
              · exact ⟨_, Or.inl rfl, List.mem_cons_of_mem d hMem⟩
              · exact ⟨segment, Or.inr hOther, hMem⟩

/-- Every character other than a slash lies in some component. -/
theorem exists_component_of_mem {c : Char} {path : Str} (hc : c ≠ '/') (h : c ∈ path) :
    ∃ component ∈ splitComponents path, c ∈ component := by
  obtain ⟨segment, hSegment, hMem⟩ := exists_mem_splitOn hc h
  refine ⟨segment, List.mem_filter.mpr ⟨hSegment, ?_⟩, hMem⟩
  cases segment with
  | nil => cases hMem
  | cons => rfl

theorem no_control_of_confined {policy : PathPolicy} {path : Str}
    (h : ∀ component ∈ splitComponents path, ConfinedComponent policy component) :
    ∀ c ∈ path, asciiControl c.toNat = false := by
  intro c hc
  by_cases hSlash : c = '/'
  · rw [hSlash]
    decide
  · obtain ⟨component, hComponent, hMem⟩ := exists_component_of_mem hSlash hc
    exact (h component hComponent).no_control c hMem

/-- The branches see the same controls: the decoder stops at a control byte
where the validator stops at the component that holds it. -/
theorem fastBranch_eq_decodeBranch {path : Str} {policy : PathPolicy} {p : ConfinedPath}
    (hRoot : path.head? = some '/') (hPercent : '%' ∉ path) (hDouble : ¬['/', '/'] <:+: path) :
    fastBranch path policy = .ok p ↔ decodeBranch path policy = .ok p := by
  obtain ⟨rest, rfl⟩ := List.head?_eq_some_iff.mp hRoot
  rw [fastBranch_eq_ok, decodeBranch_eq_ok]
  simp only [percentDecode_of_no_percent hPercent]
  constructor
  · rintro ⟨hConfined, rfl⟩
    refine ⟨'/' :: rest, ⟨rfl, ?_⟩, ?_, ?_⟩
    · simpa using no_control_of_confined hConfined
    · simpa [normalizePath_cons_slash hDouble] using hConfined
    · simp [normalizePath_cons_slash hDouble]
  · rintro ⟨decoded, ⟨rfl, _⟩, hConfined, rfl⟩
    simpa [normalizePath_cons_slash hDouble] using hConfined

/-! Admitted text is admitted again. -/

theorem length_utf8_le_of_fromPathComponent {path : Str} {policy : PathPolicy} {p : ConfinedPath}
    (hRoot : path.head? = some '/') (h : fromPathComponent path policy = .ok p) :
    (utf8 p.decoded).length ≤ (utf8 path).length := by
  rw [fromPathComponent] at h
  split_ifs at h
  · obtain ⟨_, rfl⟩ := fastBranch_eq_ok.mp h
    exact Nat.le_refl _
  · obtain ⟨decoded, hDecode, _, rfl⟩ := decodeBranch_eq_ok.mp h
    obtain ⟨rest, rfl⟩ := List.head?_eq_some_iff.mp hRoot
    have hBytes := percentDecode_eq_ok.mp hDecode
    have hLength := length_le_of_decodeBytes hBytes
    -- The root slash is not an escape, so it is the first decoded byte as well.
    have hSlash : String.utf8EncodeChar '/' = [0x2f] := by decide
    rw [utf8_cons, hSlash, List.singleton_append, decodeBytes_cons_literal _ (by decide),
      if_neg (by decide)] at hBytes
    obtain ⟨tail, _, hTail⟩ := bind_eq_ok.mp hBytes
    obtain ⟨text, rfl⟩ := utf8_head_ascii (c := '/') (by decide) (Except.ok.inj hTail).symm
    have hSub := (normalizePath_sublist_of_slash text).cons_cons '/'
    exact (length_utf8_le_of_sublist hSub).trans hLength

theorem fromPathComponent_admitted {policy : PathPolicy} {p : ConfinedPath}
    (h : Admitted policy p) (hPercent : '%' ∉ p.decoded) :
    fromPathComponent p.decoded policy = .ok p := by
  rw [fromPathComponent, if_pos ⟨h.rooted, hPercent, h.no_doubled⟩, fastBranch_eq_ok, h.split]
  exact ⟨h.confined, by rw [← h.policy_eq]⟩

/-- The bounds of the raw target carry over to the admitted text. -/
theorem parse_bounds {raw : Str} {policy : PathPolicy} {p : ConfinedPath}
    (h : parse raw policy = .ok p) : Admitted policy p ∧ (utf8 p.decoded).length ≤ 8192 := by
  obtain ⟨hLength, _, target, hTarget, hPath⟩ := parse_eq_ok.mp h
  obtain ⟨_, hRoot, _, rfl⟩ := RequestTarget.parse_eq_ok.mp hTarget
  rw [RequestTarget.path_parseOriginForm] at hPath
  have hPathRoot : (raw.takeWhile (· ≠ '?')).head? = some '/' := by
    obtain ⟨rest, rfl⟩ := List.head?_eq_some_iff.mp hRoot
    rfl
  refine ⟨admitted_of_fromPathComponent hPath, ?_⟩
  calc (utf8 p.decoded).length
      ≤ (utf8 (raw.takeWhile (· ≠ '?'))).length :=
        length_utf8_le_of_fromPathComponent hPathRoot hPath
    _ ≤ (utf8 raw).length := length_utf8_le_of_sublist (List.takeWhile_sublist _)
    _ ≤ 8192 := hLength

/-- Parsing admitted text again reads a literal blank or question mark, which
only an escape can have produced, as target syntax. Nothing else changes. -/
theorem parse_admitted_iff {policy : PathPolicy} {p : ConfinedPath} (h : Admitted policy p)
    (hLength : (utf8 p.decoded).length ≤ 8192) (hPercent : '%' ∉ p.decoded) :
    parse p.decoded policy = .ok p ↔ ' ' ∉ p.decoded ∧ '?' ∉ p.decoded := by
  have hControl : ∀ c ∈ p.decoded, asciiControl c.toNat = false :=
    no_control_of_confined (by rw [h.split]; exact h.confined)
  rw [parse_eq_ok]
  constructor
  · rintro ⟨_, _, target, hTarget, hPath⟩
    obtain ⟨hBlank, _, _, rfl⟩ := RequestTarget.parse_eq_ok.mp hTarget
    rw [RequestTarget.path_parseOriginForm] at hPath
    refine ⟨fun hMem => absurd (hBlank ' ' hMem).2 (by decide), fun hMem => ?_⟩
    have hPrefix := List.takeWhile_prefix (· ≠ '?') (l := p.decoded)
    have hFast : (p.decoded.takeWhile (· ≠ '?')).head? = some '/' ∧
        '%' ∉ p.decoded.takeWhile (· ≠ '?') ∧
        ¬['/', '/'] <:+: p.decoded.takeWhile (· ≠ '?') := by
      refine ⟨?_, fun hm => hPercent (hPrefix.subset hm),
        fun hInfix => h.no_doubled (hInfix.trans hPrefix.isInfix)⟩
      obtain ⟨rest, hRest⟩ := List.head?_eq_some_iff.mp h.rooted
      rw [hRest]
      rfl
    rw [fromPathComponent, if_pos hFast] at hPath
    have hText := congrArg decoded (fastBranch_eq_ok.mp hPath).2
    simp only at hText
    rw [hText] at hMem
    simpa using List.mem_takeWhile_imp hMem
  · rintro ⟨hSpace, hQuery⟩
    refine ⟨hLength, fun hNul => ?_, RequestTarget.parseOriginForm p.decoded, ?_, ?_⟩
    · obtain ⟨c, hc, hCode⟩ := (mem_utf8_ascii (by decide)).mp hNul
      have hFalse := hControl c hc
      rw [hCode] at hFalse
      exact absurd hFalse (by decide)
    · refine RequestTarget.parse_eq_ok.mpr ⟨fun c hc => ⟨hControl c hc, ?_⟩, h.rooted,
        fun hPrefix => h.no_doubled hPrefix.isInfix, rfl⟩
      have hCode : c.toNat ≠ 0x20 := fun hEq => hSpace (char_eq_of_toNat (d := ' ') hEq ▸ hc)
      have hFalse := hControl c hc
      simp only [asciiControl, asciiWhitespace, Bool.or_eq_false_iff, decide_eq_false_iff_not]
        at hFalse ⊢
      omega
    · rw [RequestTarget.path_parseOriginForm, takeWhile_ne_of_not_mem hQuery]
      exact fromPathComponent_admitted h hPercent

/-- The fast branch accepts what the decoding branch accepts, with the same
result, and admitted text without escapes is admitted again unchanged. Through
the request-target parser this holds unless an escape produced a blank or a
question mark, which that parser reads as syntax. -/
theorem fast_decode_agree_and_reparse :
    (∀ (path : Str) (policy : PathPolicy), path.head? = some '/' → '%' ∉ path →
      ¬['/', '/'] <:+: path →
        (∃ p q, fastBranch path policy = .ok p ∧ decodeBranch path policy = .ok q ∧
          p.asStr = q.asStr ∧ p.components = q.components) ∨
        ∃ e f, fastBranch path policy = .error e ∧ decodeBranch path policy = .error f) ∧
    (∀ (path : Str) (policy : PathPolicy) (p : ConfinedPath),
      fromPathComponent path policy = .ok p → '%' ∉ p.asStr →
        fromPathComponent p.asStr policy = .ok p) ∧
    (∀ (raw : Str) (policy : PathPolicy) (p : ConfinedPath), parse raw policy = .ok p →
      '%' ∉ p.asStr →
        (parse p.asStr policy = .ok p ↔ ' ' ∉ p.asStr ∧ '?' ∉ p.asStr)) := by
  refine ⟨?_, ?_, ?_⟩
  · intro path policy hRoot hPercent hDouble
    have hAgree : ∀ p, fastBranch path policy = .ok p ↔ decodeBranch path policy = .ok p :=
      fun p => fastBranch_eq_decodeBranch hRoot hPercent hDouble
    cases hFast : fastBranch path policy with
    | ok p => exact .inl ⟨p, p, rfl, (hAgree p).mp hFast, rfl, rfl⟩
    | error e =>
        cases hDecode : decodeBranch path policy with
        | ok q => exact absurd ((hAgree q).mpr hDecode) (by simp [hFast])
        | error f => exact .inr ⟨e, f, rfl, rfl⟩
  · intro path policy p h hPercent
    exact fromPathComponent_admitted (admitted_of_fromPathComponent h) hPercent
  · intro raw policy p h hPercent
    obtain ⟨hAdmitted, hLength⟩ := parse_bounds h
    exact parse_admitted_iff hAdmitted hLength hPercent

theorem fast_decode_agree_and_reparse_trailing_slash :
    (∃ p q, fastBranch "/a/" {} = .ok p ∧ decodeBranch "/a/" {} = .ok q ∧
        p.asStr = q.asStr ∧ p.components = q.components) ∧
      ∃ p, parse "/%61/" {} = .ok p ∧ fromPathComponent p.asStr {} = .ok p ∧
        parse p.asStr {} = .ok p := by
  have hParse : parse "/%61/" {} =
      .ok { decoded := "/a/", components := ["a"], pathPolicy := {} } := by decide +kernel
  have hPath : fromPathComponent "/%61/" {} =
      .ok { decoded := "/a/", components := ["a"], pathPolicy := {} } := by decide +kernel
  have hFast : fastBranch "/a/" {} =
      .ok { decoded := "/a/", components := ["a"], pathPolicy := {} } := by decide +kernel
  obtain ⟨hBranches, hAgain, hReparse⟩ := fast_decode_agree_and_reparse
  refine ⟨(hBranches "/a/" {} (by decide) (by decide) (by decide)).resolve_right ?_,
    _, hParse, hAgain _ _ _ hPath (by decide), (hReparse _ _ _ hParse (by decide)).mpr (by decide)⟩
  rintro ⟨e, f, he, _⟩
  exact absurd (hFast.symm.trans he) (by simp)

/-- An escaped question mark becomes a literal one, and a second parse takes
it for the start of a query. -/
theorem reparse_reads_decoded_question_mark :
    ¬∀ (raw : Str) (policy : PathPolicy) (p : ConfinedPath), parse raw policy = .ok p →
      '%' ∉ p.asStr → ∃ q, parse p.asStr policy = .ok q ∧
        q.components = p.components ∧ q.asStr = p.asStr := by
  intro h
  have hFirst : parse "/a%3Fb" {} =
      .ok { decoded := "/a?b", components := ["a?b"], pathPolicy := {} } := by decide +kernel
  have hSecond : parse "/a?b" {} =
      .ok { decoded := "/a", components := ["a"], pathPolicy := {} } := by decide +kernel
  obtain ⟨q, hq, hComponents, _⟩ := h _ _ _ hFirst (by decide)
  rw [asStr, hSecond] at hq
  cases hq
  exact absurd hComponents (by decide)

end ConfinedPath
end Eggserve.Static
