import Eggserve.Rust.Lossy
import Eggserve.Static.Fs.Stepwise
import Mathlib.Data.List.Sort

/-! Directory listings. An entry is filtered and encoded by the octets of its
name, while a link is decoded and matched as text, so that the two agree only
through UTF-8. -/
namespace Eggserve.Static
open Rust Posix Eggserve.Primitives

/-- The octets that stand for themselves in a link. -/
def unreserved (byte : UInt8) : Bool :=
  0x41 ≤ byte && byte ≤ 0x5a || 0x61 ≤ byte && byte ≤ 0x7a || 0x30 ≤ byte && byte ≤ 0x39 ||
    byte = 0x2d || byte = 0x5f || byte = 0x2e || byte = 0x7e

def hexUpper (nibble : UInt8) : Char := ("0123456789ABCDEF" : Str).getD nibble.toNat '0'

/-- The body of the loop of `percent_encode_bytes`. -/
def encodeByte (byte : UInt8) : Str :=
  if unreserved byte then [Char.ofNat byte.toNat]
  else ['%', hexUpper (byte >>> 4), hexUpper (byte &&& 0x0f)]

def percentEncodeBytes (bytes : List UInt8) : Str := bytes.flatMap encodeByte

/-- The display name is lossy; the link target keeps every octet. -/
structure ListingEntry where
  name : Str
  href : Str
  isDir : Bool
  deriving DecidableEq, Repr

def ListingEntry.fromRawBytes (raw : List UInt8) (isDir : Bool) : ListingEntry where
  name := fromUtf8Lossy raw
  href := percentEncodeBytes raw
  isDir := isDir

section

variable {ν : Type} (history : History ν Attributes)

/-- The loop of `list_directory_fd` over what is left of the scan. -/
def listEntries (dirFd : ν) (policy : StaticPolicy) (maxEntries : Nat) :
    List (Except Errno Name) → List ListingEntry → Process ν →
      Except Errno (List ListingEntry) × Process ν
  | [], entries, p => (.ok entries, p)
  | .error errno :: _, _, p => (.error errno, p)
  | .ok rawName :: scan, entries, p =>
      if rawName = [0x2e] ∨ rawName = [0x2e, 0x2e] then
        listEntries dirFd policy maxEntries scan entries p
      else if policy.dotfiles = .denied ∧ rawName.head? = some 0x2e then
        listEntries dirFd policy maxEntries scan entries p
      else
        match history.statat dirFd rawName p with
        | (.error _, p) => listEntries dirFd policy maxEntries scan entries p
        | (.ok fileType, p) =>
            if policy.symlinks = .denied ∧ fileType = .symlink then
              listEntries dirFd policy maxEntries scan entries p
            else
              let entries := entries ++ [.fromRawBytes rawName (fileType = .directory)]
              if entries.length ≥ maxEntries then (.ok entries, p)
              else listEntries dirFd policy maxEntries scan entries p

/-- `String::cmp` orders text by its octets. -/
def ListingEntry.NameLe (a b : ListingEntry) : Prop := utf8 a.name ≤ utf8 b.name

instance : DecidableRel ListingEntry.NameLe :=
  fun a b => inferInstanceAs (Decidable (utf8 a.name ≤ utf8 b.name))

/-- List a directory whose scan, if it can be started, yields the given entries
and errors. The sort is stable. -/
def listDirectoryFd (dirFd : ν) (scan : Except Errno (List (Except Errno Name)))
    (policy : StaticPolicy) (maxEntries : Nat) (p : Process ν) :
    Except Errno (List ListingEntry) × Process ν :=
  match scan with
  | .error errno => (.error errno, p)
  | .ok scan =>
      match listEntries history dirFd policy maxEntries scan [] p with
      | (.error errno, p) => (.error errno, p)
      | (.ok entries, p) => (.ok (entries.insertionSort ListingEntry.NameLe), p)

end

/-! The encoding of links. -/

theorem forall_byte {P : UInt8 → Prop} (h : ∀ n : Fin 256, P (UInt8.ofNat n)) (byte : UInt8) :
    P byte := by
  have hByte := h ⟨byte.toNat, byte.toNat_lt⟩
  rwa [UInt8.ofNat_toNat] at hByte

/-- The octets that the decoder refuses to take from an escape. -/
def refusedCode (code : Nat) : Bool := asciiControl code || code = 0x2f || code = 0x5c

/-- The 256 octets: their halves, the text of their escape and the text of those that
stand for themselves. -/
theorem octet_table (byte : UInt8) :
    (hexDigit (UInt8.ofNat (hexUpper (byte >>> 4)).toNat) = some (byte >>> 4) ∧
        hexDigit (UInt8.ofNat (hexUpper (byte &&& 0x0f)).toNat) = some (byte &&& 0x0f) ∧
        (byte >>> 4) <<< 4 ||| (byte &&& 0x0f) = byte) ∧
      (unreserved byte = false → utf8 (encodeByte byte) =
        [0x25, UInt8.ofNat (hexUpper (byte >>> 4)).toNat,
          UInt8.ofNat (hexUpper (byte &&& 0x0f)).toNat]) ∧
      (unreserved byte = true →
        (utf8 (encodeByte byte) = [byte] ∧ byte ≠ 0x25 ∧ refusedCode byte.toNat = false) ∧
          encodeByte byte = [Char.ofNat byte.toNat] ∧ Char.ofNat byte.toNat ≠ '%' ∧
            (Char.ofNat byte.toNat).toNat = byte.toNat) := by
  revert byte
  exact forall_byte (by decide +kernel)

/-- Each half of an octet reads back as its own value. -/
theorem hexDigit_hexUpper (byte : UInt8) :
    hexDigit (UInt8.ofNat (hexUpper (byte >>> 4)).toNat) = some (byte >>> 4) ∧
      hexDigit (UInt8.ofNat (hexUpper (byte &&& 0x0f)).toNat) = some (byte &&& 0x0f) :=
  ⟨(octet_table byte).1.1, (octet_table byte).1.2.1⟩

theorem byte_halves (byte : UInt8) : (byte >>> 4) <<< 4 ||| (byte &&& 0x0f) = byte :=
  (octet_table byte).1.2.2

theorem utf8_encodeByte_reserved (byte : UInt8) (h : unreserved byte = false) :
    utf8 (encodeByte byte) =
      [0x25, UInt8.ofNat (hexUpper (byte >>> 4)).toNat,
        UInt8.ofNat (hexUpper (byte &&& 0x0f)).toNat] :=
  (octet_table byte).2.1 h

/-- An octet that stands for itself is no escape and nothing that is refused. -/
theorem utf8_encodeByte_unreserved (byte : UInt8) (h : unreserved byte = true) :
    utf8 (encodeByte byte) = [byte] ∧ byte ≠ 0x25 ∧ refusedCode byte.toNat = false :=
  ((octet_table byte).2.2 h).1

theorem decodeEscape_hexUpper {byte decoded : UInt8} :
    decodeEscape (UInt8.ofNat (hexUpper (byte >>> 4)).toNat)
        (UInt8.ofNat (hexUpper (byte &&& 0x0f)).toNat) = .ok decoded ↔
      refusedCode byte.toNat = false ∧ byte = decoded := by
  obtain ⟨hHigh, hLow⟩ := hexDigit_hexUpper byte
  rw [decodeEscape, hHigh, hLow]
  simp only [byte_halves, refusedCode, Bool.or_eq_false_iff, decide_eq_false_iff_not]
  split_ifs with hNul hControl hSeparator
  · simp [hNul, asciiControl]
  · simp [hControl]
  · rcases hSeparator with rfl | rfl <;> simp
  · have hSlash : byte.toNat ≠ 0x2f := fun hCode => hSeparator (.inl (UInt8.toNat_inj.mp hCode))
    have hBackslash : byte.toNat ≠ 0x5c :=
      fun hCode => hSeparator (.inr (UInt8.toNat_inj.mp hCode))
    simp [hControl, hSlash, hBackslash]

/-- One encoded octet in front of others is refused or decodes to itself. -/
theorem decodeBytes_encodeByte {byte : UInt8} {rest decoded : List UInt8} :
    decodeBytes (utf8 (encodeByte byte) ++ rest) = .ok decoded ↔
      refusedCode byte.toNat = false ∧ ∃ tail, decodeBytes rest = .ok tail ∧
        byte :: tail = decoded := by
  cases hByte : unreserved byte with
  | true =>
      obtain ⟨hText, hPercent, hAllowed⟩ := utf8_encodeByte_unreserved byte hByte
      have hControl : asciiControl byte.toNat = false := by
        simp only [refusedCode, Bool.or_eq_false_iff] at hAllowed
        exact hAllowed.1.1
      rw [hText, List.singleton_append, decodeBytes_cons_literal rest hPercent, hControl,
        if_neg Bool.false_ne_true, bind_eq_ok]
      simp only [hAllowed, true_and, Except.ok.injEq]
  | false =>
      rw [utf8_encodeByte_reserved byte hByte]
      simp only [List.cons_append, List.nil_append, decodeBytes, ↓reduceIte, bind_eq_ok,
        decodeEscape_hexUpper]
      constructor
      · rintro ⟨_, ⟨hAllowed, rfl⟩, tail, hTail, hDecoded⟩
        exact ⟨hAllowed, tail, hTail, Except.ok.inj hDecoded⟩
      · rintro ⟨hAllowed, tail, hTail, rfl⟩
        exact ⟨byte, ⟨hAllowed, rfl⟩, tail, hTail, rfl⟩

/-- A link decodes to the octets it was made from, or not at all. -/
theorem decodeBytes_percentEncodeBytes {raw decoded : List UInt8} :
    decodeBytes (utf8 (percentEncodeBytes raw)) = .ok decoded ↔
      (∀ byte ∈ raw, refusedCode byte.toNat = false) ∧ raw = decoded := by
  induction raw generalizing decoded with
  | nil => simp [percentEncodeBytes, decodeBytes]
  | cons byte raw ih =>
      have hCons : percentEncodeBytes (byte :: raw) = encodeByte byte ++ percentEncodeBytes raw :=
        rfl
      rw [hCons, utf8_append, decodeBytes_encodeByte, List.forall_mem_cons]
      constructor
      · rintro ⟨hByte, tail, hTail, rfl⟩
        obtain ⟨hRaw, rfl⟩ := ih.mp hTail
        exact ⟨⟨hByte, hRaw⟩, rfl⟩
      · rintro ⟨⟨hByte, hRaw⟩, rfl⟩
        exact ⟨hByte, raw, ih.mpr ⟨hRaw, rfl⟩, rfl⟩

/-- No encoding of an octet is the start of another one's. -/
theorem encodeByte_append_injective {a b : UInt8} {s t : Str}
    (h : encodeByte a ++ s = encodeByte b ++ t) : a = b ∧ s = t := by
  have hLiteral : ∀ byte : UInt8, unreserved byte = true →
      encodeByte byte = [Char.ofNat byte.toNat] ∧ Char.ofNat byte.toNat ≠ '%' ∧
        (Char.ofNat byte.toNat).toNat = byte.toNat :=
    fun byte hByte => ((octet_table byte).2.2 hByte).2
  have hEscape : ∀ byte, unreserved byte = false →
      encodeByte byte = ['%', hexUpper (byte >>> 4), hexUpper (byte &&& 0x0f)] := by
    intro byte hByte
    rw [encodeByte, hByte, if_neg Bool.false_ne_true]
  cases ha : unreserved a with
  | true =>
      obtain ⟨hTextA, hPercentA, hCodeA⟩ := hLiteral a ha
      cases hb : unreserved b with
      | true =>
          obtain ⟨hTextB, -, hCodeB⟩ := hLiteral b hb
          rw [hTextA, hTextB, List.singleton_append, List.singleton_append,
            List.cons.injEq] at h
          refine ⟨UInt8.toNat_inj.mp ?_, h.2⟩
          rw [← hCodeA, ← hCodeB, h.1]
      | false =>
          rw [hTextA, hEscape b hb, List.singleton_append, List.cons_append, List.cons.injEq] at h
          exact absurd h.1 hPercentA
  | false =>
      cases hb : unreserved b with
      | true =>
          obtain ⟨hTextB, hPercentB, -⟩ := hLiteral b hb
          rw [hTextB, hEscape a ha, List.singleton_append, List.cons_append, List.cons.injEq] at h
          exact absurd h.1.symm hPercentB
      | false =>
          rw [hEscape a ha, hEscape b hb] at h
          simp only [List.cons_append, List.nil_append, List.cons.injEq, true_and] at h
          obtain ⟨hHigh, hLow, hRest⟩ := h
          obtain ⟨hHighA, hLowA⟩ := hexDigit_hexUpper a
          obtain ⟨hHighB, hLowB⟩ := hexDigit_hexUpper b
          rw [hHigh, hHighB, Option.some.injEq] at hHighA
          rw [hLow, hLowB, Option.some.injEq] at hLowA
          refine ⟨?_, hRest⟩
          rw [← byte_halves a, ← byte_halves b, hHighA, hLowA]

/-- Distinct names have distinct links. -/
theorem percentEncodeBytes_injective {a b : List UInt8}
    (h : percentEncodeBytes a = percentEncodeBytes b) : a = b := by
  have hNonempty : ∀ byte (bytes : List UInt8), percentEncodeBytes (byte :: bytes) ≠ [] := by
    intro byte bytes hNil
    have hByte := (List.append_eq_nil_iff.mp hNil).1
    unfold encodeByte at hByte
    split_ifs at hByte
  induction a generalizing b with
  | nil =>
      cases b with
      | nil => rfl
      | cons byte bytes => exact absurd h.symm (hNonempty byte bytes)
  | cons first rest ih =>
      cases b with
      | nil => exact absurd h (hNonempty first rest)
      | cons byte bytes =>
          obtain ⟨rfl, hRest⟩ := encodeByte_append_injective h
          rw [ih hRest]

/-! The way back from a link to the name. -/

theorem refusedCode_utf8 {component : Str} :
    (∀ byte ∈ utf8 component, refusedCode byte.toNat = false) ↔
      (∀ c ∈ component, asciiControl c.toNat = false) ∧ '/' ∉ component ∧ '\\' ∉ component := by
  have hAscii : ∀ code, refusedCode code = true → code < 128 := by
    intro code hCode
    simp only [refusedCode, Bool.or_eq_true, decide_eq_true_eq] at hCode
    rcases hCode with (hControl | rfl) | rfl
    · exact lt_of_asciiControl code hControl
    · decide
    · decide
  have hAny := any_utf8_ascii hAscii component
  rw [Bool.eq_iff_iff, ← not_iff_not, Bool.not_eq_true, Bool.not_eq_true, List.any_eq_false,
    List.any_eq_false] at hAny
  simp only [Bool.not_eq_true] at hAny
  rw [hAny]
  simp only [refusedCode, Bool.or_eq_false_iff, decide_eq_false_iff_not]
  constructor
  · intro hAll
    exact ⟨fun c hc => (hAll c hc).1.1, fun hMem => (hAll _ hMem).1.2 rfl,
      fun hMem => (hAll _ hMem).2 rfl⟩
  · rintro ⟨hControl, hSlash, hBackslash⟩ c hc
    refine ⟨⟨hControl c hc, fun hCode => hSlash ?_⟩, fun hCode => hBackslash ?_⟩
    · rwa [← @char_eq_of_toNat c '/' hCode]
    · rwa [← @char_eq_of_toNat c '\\' hCode]

/-- A link without escapes is the name itself. -/
theorem utf8_percentEncodeBytes_literal {raw : List UInt8} (h : '%' ∉ percentEncodeBytes raw) :
    utf8 (percentEncodeBytes raw) = raw ∧ ∀ byte ∈ raw, refusedCode byte.toNat = false := by
  induction raw with
  | nil => exact ⟨rfl, fun _ hMem => absurd hMem List.not_mem_nil⟩
  | cons byte raw ih =>
      have hCons : percentEncodeBytes (byte :: raw) = encodeByte byte ++ percentEncodeBytes raw :=
        rfl
      rw [hCons, List.mem_append, not_or] at h
      obtain ⟨hText, hRaw⟩ := ih h.2
      have hLiteral : unreserved byte = true := by
        by_contra hReserved
        apply h.1
        rw [encodeByte, if_neg hReserved]
        exact List.mem_cons_self
      obtain ⟨hByte, -, hAllowed⟩ := utf8_encodeByte_unreserved byte hLiteral
      refine ⟨?_, List.forall_mem_cons.mpr ⟨hAllowed, hRaw⟩⟩
      rw [hCons, utf8_append, hByte, hText, List.singleton_append]

theorem splitComponents_single {component : Str} (hNonempty : component ≠ [])
    (hSlash : '/' ∉ component) : splitComponents component = [component] := by
  rw [splitComponents, List.splitOn, List.splitOnP_eq_singleton]
  · simp [hNonempty]
  · intro c hc
    rw [beq_eq_false_iff_ne]
    rintro rfl
    exact hSlash hc

theorem not_infix_of_no_slash {component : Str} (hSlash : '/' ∉ component) :
    ¬['/', '/'] <:+: '/' :: component := by
  rw [List.infix_cons_iff, not_or]
  constructor
  · rintro ⟨tail, hTail⟩
    apply hSlash
    rw [← (List.cons.inj hTail).2]
    exact List.mem_cons_self
  · intro hInfix
    exact hSlash (hInfix.subset List.mem_cons_self)

theorem percentDecode_href {raw : List UInt8} {decoded : Str} :
    percentDecode ('/' :: percentEncodeBytes raw) = .ok decoded ↔
      (∀ byte ∈ raw, refusedCode byte.toNat = false) ∧
        ∃ component, utf8 component = raw ∧ decoded = '/' :: component := by
  have hSlash : String.utf8EncodeChar '/' = [0x2f] := by decide
  rw [percentDecode_eq_ok, utf8_cons, hSlash, List.singleton_append,
    decodeBytes_cons_literal _ (by decide), if_neg (by decide), bind_eq_ok]
  simp only [decodeBytes_percentEncodeBytes, Except.ok.injEq]
  constructor
  · rintro ⟨_, ⟨hAllowed, rfl⟩, hText⟩
    obtain ⟨component, rfl⟩ := @utf8_head_ascii decoded '/' raw (by decide) hText.symm
    rw [utf8_cons, hSlash, List.singleton_append, List.cons.injEq] at hText
    exact ⟨hAllowed, component, hText.2.symm, rfl⟩
  · rintro ⟨hAllowed, component, rfl, rfl⟩
    exact ⟨_, ⟨hAllowed, rfl⟩, by rw [utf8_cons, hSlash, List.singleton_append]⟩

/-- A link is admitted exactly when it stands for an admitted component without
a backslash, and then for the octets of the name and nothing else. -/
theorem fromPathComponent_href {raw : List UInt8} {policy : PathPolicy} {p : ConfinedPath}
    (hRaw : raw ≠ []) :
    ConfinedPath.fromPathComponent ('/' :: percentEncodeBytes raw) policy = .ok p ↔
      ∃ component, utf8 component = raw ∧ ConfinedComponent policy component ∧
        '\\' ∉ component ∧
        p = { decoded := '/' :: component, components := [component], pathPolicy := policy } := by
  rw [ConfinedPath.fromPathComponent]
  split_ifs with hFast
  · obtain ⟨-, hPercent, -⟩ := hFast
    rw [List.mem_cons, not_or] at hPercent
    obtain ⟨hText, hAllowed⟩ := utf8_percentEncodeBytes_literal hPercent.2
    have hNonempty : percentEncodeBytes raw ≠ [] := by
      intro hNil
      rw [hNil] at hText
      exact hRaw hText.symm
    rw [← hText, refusedCode_utf8] at hAllowed
    rw [ConfinedPath.fastBranch_eq_ok, splitComponents_cons_slash,
      splitComponents_single hNonempty hAllowed.2.1, List.forall_mem_singleton]
    constructor
    · rintro ⟨hConfined, rfl⟩
      exact ⟨_, hText, hConfined, hAllowed.2.2, rfl⟩
    · rintro ⟨component, hComponent, hConfined, -, rfl⟩
      obtain rfl := utf8_injective (hText.trans hComponent.symm)
      exact ⟨hConfined, rfl⟩
  · rw [ConfinedPath.decodeBranch_eq_ok]
    constructor
    · rintro ⟨decoded, hDecoded, hConfined, rfl⟩
      obtain ⟨hAllowed, component, rfl, rfl⟩ := percentDecode_href.mp hDecoded
      obtain ⟨-, hSlash, hBackslash⟩ := refusedCode_utf8.mp hAllowed
      have hNonempty : component ≠ [] := fun hNil => hRaw (by rw [hNil]; rfl)
      rw [normalizePath_cons_slash (not_infix_of_no_slash hSlash)] at hConfined ⊢
      rw [splitComponents_single hNonempty hSlash] at hConfined ⊢
      exact ⟨component, rfl, List.forall_mem_singleton.mp hConfined, hBackslash, rfl⟩
    · rintro ⟨component, rfl, hConfined, hBackslash, rfl⟩
      have hAllowed := refusedCode_utf8.mpr ⟨hConfined.no_control, hConfined.no_slash, hBackslash⟩
      refine ⟨'/' :: component, percentDecode_href.mpr ⟨hAllowed, component, rfl, rfl⟩, ?_⟩
      rw [normalizePath_cons_slash (not_infix_of_no_slash hConfined.no_slash),
        splitComponents_single hConfined.nonempty hConfined.no_slash]
      exact ⟨List.forall_mem_singleton.mpr hConfined, rfl⟩

/-! Listings of a tree that nobody rewrites. -/

section

variable {ν : Type} {tree : Tree ν Attributes} {policy : StaticPolicy} {dirFd : ν}

/-- What the loop makes of one name. -/
def listed (tree : Tree ν Attributes) (policy : StaticPolicy) (dirFd : ν) (rawName : Name) :
    Option ListingEntry :=
  if rawName = [0x2e] ∨ rawName = [0x2e, 0x2e] then none
  else if policy.dotfiles = .denied ∧ rawName.head? = some 0x2e then none
  else
    match tree.unchanged.lookup 0 dirFd rawName with
    | .error _ => none
    | .ok inode =>
        if policy.symlinks = .denied ∧ tree.fileType inode = .symlink then none
        else some (.fromRawBytes rawName (tree.fileType inode = .directory))

theorem listed_eq_some {rawName : Name} {entry : ListingEntry} :
    listed tree policy dirFd rawName = some entry ↔
      rawName ∉ dotEntries ∧ ¬(policy.dotfiles = .denied ∧ rawName.head? = some 0x2e) ∧
        ∃ inode, tree.unchanged.lookup 0 dirFd rawName = .ok inode ∧
          ¬(policy.symlinks = .denied ∧ tree.fileType inode = .symlink) ∧
          .fromRawBytes rawName (tree.fileType inode = .directory) = entry := by
  have hDots : rawName = [0x2e] ∨ rawName = [0x2e, 0x2e] ↔ rawName ∈ dotEntries := by
    simp [dotEntries]
  unfold listed
  split_ifs with hDot hHidden
  · simp [hDots.mp hDot]
  · simp [hHidden]
  · cases hLookup : tree.unchanged.lookup 0 dirFd rawName with
    | error errno => simp
    | ok inode =>
        by_cases hLink : policy.symlinks = .denied ∧ tree.fileType inode = .symlink
        · simp [hLink]
        · simp only [if_neg hLink, Option.some.injEq, ← hDots, hDot, hHidden, not_false_eq_true,
            true_and, Except.ok.injEq]
          constructor
          · exact fun hEntry => ⟨inode, rfl, hLink, hEntry⟩
          · rintro ⟨_, rfl, -, hEntry⟩
            exact hEntry

/-- The loop lists what the names come to, up to the bound; the bound is looked
at only after an entry. -/
theorem listEntries_unchanged (maxEntries : Nat) (names : List Name)
    (entries : List ListingEntry) (p : Process ν) :
    (listEntries tree.unchanged dirFd policy maxEntries (names.map .ok) entries p).1 =
      .ok (entries ++ (names.filterMap (listed tree policy dirFd)).take
        (max 1 (maxEntries - entries.length))) := by
  induction names generalizing entries p with
  | nil => simp [listEntries]
  | cons rawName names ih =>
      simp only [List.map_cons, listEntries, List.filterMap_cons, listed]
      split_ifs with hDot hHidden
      · exact ih entries p
      · exact ih entries p
      · have hStat : tree.unchanged.statat dirFd rawName p =
            ((tree.unchanged.lookup 0 dirFd rawName).map tree.fileType, p.tick) := rfl
        rw [hStat]
        cases tree.unchanged.lookup 0 dirFd rawName with
        | error errno => exact ih entries p.tick
        | ok inode =>
            dsimp only [Except.map]
            by_cases hLink : policy.symlinks = .denied ∧ tree.fileType inode = .symlink
            · rw [if_pos hLink, if_pos hLink]
              exact ih entries p.tick
            · rw [if_neg hLink, if_neg hLink]
              generalize ListingEntry.fromRawBytes rawName
                (decide (tree.fileType inode = .directory)) = entry
              have hLength : (entries ++ [entry]).length = entries.length + 1 :=
                List.length_append
              by_cases hFull : (entries ++ [entry]).length ≥ maxEntries
              · have hLast : max 1 (maxEntries - entries.length) = 1 := by omega
                rw [if_pos hFull, hLast]
                rfl
              · have hMore : max 1 (maxEntries - entries.length) =
                    max 1 (maxEntries - (entries ++ [entry]).length) + 1 := by omega
                rw [if_neg hFull, ih, hMore, List.take_succ_cons, List.append_assoc,
                  List.singleton_append]

/-- The entries that the names of a directory come to, up to the bound. -/
def listing (tree : Tree ν Attributes) (policy : StaticPolicy) (dirFd : ν) (maxEntries : Nat) :
    List ListingEntry :=
  (((tree.names dirFd).filterMap (listed tree policy dirFd)).take
    (max 1 maxEntries)).insertionSort ListingEntry.NameLe

theorem listDirectoryFd_unchanged (maxEntries : Nat) (p : Process ν) :
    (listDirectoryFd tree.unchanged dirFd (tree.scan dirFd) policy maxEntries p).1 =
      if tree.fileType dirFd = .directory then .ok (listing tree policy dirFd maxEntries)
      else .error .notdir := by
  unfold listDirectoryFd Tree.scan
  split_ifs with hDirectory
  · have hEntries := @listEntries_unchanged ν tree policy dirFd maxEntries (tree.names dirFd) [] p
    dsimp only
    generalize listEntries tree.unchanged dirFd policy maxEntries
      ((tree.names dirFd).map .ok) [] p = result at hEntries ⊢
    obtain ⟨result, q⟩ := result
    obtain rfl : result = _ := hEntries
    rfl
  · rfl

/-- Every entry stands for a name of the directory that is neither hidden nor a link. -/
theorem mem_listing {maxEntries : Nat} {entry : ListingEntry}
    (hEntry : entry ∈ listing tree policy dirFd maxEntries) :
    ∃ rawName ∈ tree.names dirFd, listed tree policy dirFd rawName = some entry := by
  rw [listing, List.mem_insertionSort] at hEntry
  exact List.mem_filterMap.mp (List.mem_of_mem_take hEntry)

/-- Only names other than `.` and `..` are listed. -/
theorem length_filterMap_listed (names : List Name) :
    (names.filterMap (listed tree policy dirFd)).length ≤
      (names.filter (· ∉ dotEntries)).length := by
  induction names with
  | nil => exact Nat.le_refl 0
  | cons rawName names ih =>
      rw [List.filterMap_cons, List.filter_cons]
      cases hListed : listed tree policy dirFd rawName with
      | none =>
          dsimp only
          split_ifs
          · exact Nat.le_succ_of_le ih
          · exact ih
      | some entry =>
          have hDot := (listed_eq_some.mp hListed).1
          rw [if_pos (decide_eq_true hDot)]
          exact Nat.succ_le_succ ih

theorem href_of_listed {rawName : Name} {entry : ListingEntry}
    (hListed : listed tree policy dirFd rawName = some entry) :
    entry.href = percentEncodeBytes rawName := by
  obtain ⟨-, -, inode, -, -, rfl⟩ := listed_eq_some.mp hListed
  rfl

/-- A name that occurs once and is listed has one entry. -/
theorem filter_href_filterMap {names : List Name} {rawName : Name} {entry : ListingEntry}
    (hNodup : names.Nodup) (hMem : rawName ∈ names)
    (hListed : listed tree policy dirFd rawName = some entry) :
    (names.filterMap (listed tree policy dirFd)).filter
      (·.href = percentEncodeBytes rawName) = [entry] := by
  have hOthers : ∀ others : List Name, rawName ∉ others →
      (others.filterMap (listed tree policy dirFd)).filter
        (·.href = percentEncodeBytes rawName) = [] := by
    intro others hOther
    refine List.filter_eq_nil_iff.mpr fun found hFound hHref => ?_
    obtain ⟨name, hName, hSome⟩ := List.mem_filterMap.mp hFound
    rw [href_of_listed hSome, decide_eq_true_eq] at hHref
    exact hOther (percentEncodeBytes_injective hHref ▸ hName)
  obtain ⟨before, after, rfl⟩ := List.append_of_mem hMem
  obtain ⟨hAfter, hBefore⟩ : rawName ∉ after ∧ rawName ∉ before := by
    rw [List.nodup_append] at hNodup
    refine ⟨(List.nodup_cons.mp hNodup.2.1).1, fun hIn => ?_⟩
    exact hNodup.2.2 rawName hIn rawName List.mem_cons_self rfl
  rw [List.filterMap_append, List.filterMap_cons, hListed, List.filter_append,
    hOthers before hBefore, List.filter_cons_of_pos (by simp [href_of_listed hListed]),
    hOthers after hAfter]
  rfl

/-- A bound larger than the number of entries cuts nothing off. -/
theorem filter_href_listing {rawName : Name} {entry : ListingEntry} {maxEntries : Nat}
    (hBound : ((tree.names dirFd).filter (· ∉ dotEntries)).length < maxEntries)
    (hMem : rawName ∈ tree.names dirFd)
    (hListed : listed tree policy dirFd rawName = some entry) :
    (listing tree policy dirFd maxEntries).filter (·.href = percentEncodeBytes rawName) =
      [entry] := by
  have hAll := @length_filterMap_listed ν tree policy dirFd (tree.names dirFd)
  have hPerm := ((tree.names dirFd).filterMap (listed tree policy dirFd)).perm_insertionSort
    ListingEntry.NameLe
  rw [listing, List.take_of_length_le (by omega)]
  have hFilter := hPerm.filter (·.href = percentEncodeBytes rawName)
  rw [filter_href_filterMap (tree.names_nodup dirFd) hMem hListed] at hFilter
  exact List.perm_singleton.mp hFilter

/-! What the resolver serves. -/

/-- The path policy of `SecureRoot::resolve_uri`. -/
def rootPathPolicy (policy : StaticPolicy) : PathPolicy where
  dotfiles :=
    match policy.dotfiles with
    | .denied => ({} : PathPolicy).dotfiles
    | .serve => .allow
  rejectBackslash := true

theorem rootPathPolicy_eq (policy : StaticPolicy) :
    rootPathPolicy policy = childPathPolicy policy true := by
  obtain ⟨symlinks, dotfiles⟩ := policy
  cases dotfiles <;> rfl

/-- Whether a resource is served, and then whether as a directory. -/
def ResolvedResource.served : ResolvedResource ν → Option Bool
  | .file _ => some false
  | .directory _ => some true
  | .notFound | .denied _ | .ioError _ => none

theorem openFailure_served (errno : Errno) :
    (openFailure errno : ResolvedResource ν).served = none := by
  cases errno <;> rfl

theorem precheck_served {fd : ν} {component : Str} {isFinal : Bool} {p : Process ν}
    {resource : ResolvedResource ν}
    (hLook : (precheck tree.unchanged policy fd component isFinal p).1 = some resource) :
    resource.served = none := by
  unfold precheck at hLook
  split_ifs at hLook with hSymlinks
  generalize tree.unchanged.statat fd (utf8 component) p = found at hLook
  obtain ⟨found, q⟩ := found
  cases found with
  | error errno =>
      cases hLook
      rfl
  | ok fileType =>
      dsimp only at hLook
      split_ifs at hLook <;> cases hLook <;> rfl

/-- A component that does not open is not served. -/
theorem openComponent_error_served {fd : ν} {component : Str} {isFinal : Bool} {p : Process ν}
    {resource : ResolvedResource ν}
    (hOpen : (openComponent tree.unchanged policy fd component isFinal p).1 = .error resource) :
    resource.served = none := by
  rw [openComponent_fst] at hOpen
  split at hOpen
  · rename_i refused hLook
    obtain rfl := Except.error.inj hOpen
    exact precheck_served hLook
  · split at hOpen
    · rename_i errno _
      obtain rfl := Except.error.inj hOpen
      exact openFailure_served errno
    · cases hOpen

/-- What is opened is an entry of the directory and no link. -/
theorem openComponent_lookup {fd newFd : ν} {component : Str} {isFinal : Bool} {p : Process ν}
    (hOpen : (openComponent tree.unchanged policy fd component isFinal p).1 = .ok newFd) :
    tree.unchanged.lookup 0 fd (utf8 component) = .ok newFd := by
  rw [openComponent_fst] at hOpen
  split at hOpen
  · cases hOpen
  · split at hOpen
    · cases hOpen
    · rename_i found hEntry
      obtain rfl := Except.ok.inj hOpen
      exact (History.openEntry_eq_ok.mp hEntry).1

theorem classifyOpened_served {canonicalRoot : Str} {components : List Str}
    {rejectBackslash isDir : Bool} {fd : ν} {p : Process ν}
    (hServed : (classifyOpened tree.unchanged canonicalRoot components rejectBackslash fd
      p).1.served = some isDir) :
    tree.fileType fd = if isDir then .directory else .regular := by
  simp only [classifyOpened, History.fstat, Tree.unchanged] at hServed
  cases hType : tree.fileType fd with
  | directory =>
      simp only [hType, ResolvedResource.served, Option.some.injEq] at hServed
      rw [← hServed]
      rfl
  | regular =>
      simp only [hType, ResolvedResource.served, Option.some.injEq] at hServed
      rw [← hServed]
      rfl
  | symlink => simp [hType, ResolvedResource.served] at hServed
  | other => simp [hType, ResolvedResource.served] at hServed

/-- A child that is served is admitted and stands in its directory. -/
theorem resolveChildFd_served {canonicalRoot child : Str} {components : List Str}
    {rejectBackslash isDir : Bool} {fd : ν} {p : Process ν}
    (hServed : (resolveChildFd tree.unchanged fd components canonicalRoot child policy
      rejectBackslash p).1.served = some isDir) :
    ConfinedComponent (childPathPolicy policy rejectBackslash) child ∧
      ∃ inode, tree.unchanged.lookup 0 fd (utf8 child) = .ok inode ∧
        tree.fileType inode = if isDir then .directory else .regular := by
  unfold resolveChildFd at hServed
  cases hValid : validateChildComponentWithPolicy child (policy.dotfiles = .denied)
      rejectBackslash with
  | error rejection => simp [hValid, ResolvedResource.served] at hServed
  | ok _ =>
      rw [hValid] at hServed
      refine ⟨validateChildComponentWithPolicy_eq_ok.mp hValid, ?_⟩
      have hError := fun resource =>
        @openComponent_error_served ν tree policy fd child true p resource
      have hLookup := fun newFd => @openComponent_lookup ν tree policy fd newFd child true p
      generalize openComponent tree.unchanged policy fd child true p = opened
        at hServed hError hLookup
      obtain ⟨opened, q⟩ := opened
      cases opened with
      | error resource =>
          rw [hError resource rfl] at hServed
          cases hServed
      | ok newFd => exact ⟨newFd, hLookup newFd rfl, classifyOpened_served hServed⟩

/-- What a path resolves to as a directory is one. -/
theorem resolveFdRelative_directory {canonicalRoot : Str} {components : List Str} {rootFd : ν}
    {rejectBackslash : Bool} {d : ResolvedDirectory ν} {p : Process ν}
    (hRoot : tree.fileType rootFd = .directory)
    (hDirectory : (resolveFdRelative tree.unchanged rootFd canonicalRoot components policy
      rejectBackslash p).1 = .directory d) : tree.fileType d.dirFd = .directory := by
  cases components with
  | nil =>
      obtain rfl := ResolvedResource.directory.inj hDirectory
      exact hRoot
  | cons component rest =>
      exact (@resolveComponents_append ν tree policy canonicalRoot rejectBackslash
        (component :: rest) [] rest component [] rootFd p d hDirectory p p).2.1

theorem head_utf8_dot {component : Str} (h : (utf8 component).head? = some 0x2e) :
    component.head? = some '.' := by
  obtain ⟨rest, hRest⟩ := List.head?_eq_some_iff.mp h
  obtain ⟨tail, rfl⟩ := @utf8_head_ascii component '.' rest (by decide) hRest
  rfl

/-- A child that is served is listed, and its entry says what it is served as. -/
theorem listed_of_served {child : Str} {pathPolicy : PathPolicy} {inode : ν} {isDir : Bool}
    (hChild : ConfinedComponent pathPolicy child)
    (hDot : ¬(policy.dotfiles = .denied ∧ child.head? = some '.'))
    (hLookup : tree.unchanged.lookup 0 dirFd (utf8 child) = .ok inode)
    (hType : tree.fileType inode = if isDir then .directory else .regular) :
    listed tree policy dirFd (utf8 child) = some { name := child
                                                   href := percentEncodeBytes (utf8 child)
                                                   isDir := isDir } := by
  have hName := hChild.singleSegment
  refine listed_eq_some.mpr ⟨?_, ?_, inode, hLookup, ?_, ?_⟩
  · simp [dotEntries, hName.not_current, hName.not_parent]
  · rintro ⟨hDenied, hHead⟩
    exact hDot ⟨hDenied, head_utf8_dot hHead⟩
  · rintro ⟨-, hLink⟩
    rw [hType] at hLink
    cases isDir <;> cases hLink
  · rw [hType, ListingEntry.fromRawBytes, fromUtf8Lossy_utf8]
    cases isDir <;> rfl

end

/-- Links keep the octets of their names apart. In a tree that nobody rewrites,
a child that is served under its directory has one entry in a listing that is
not cut off, marked as what it is served as, and its link is admitted as that
child. A link that is admitted at all stands for the octets of its name. No
entry is listed for a link, or for a hidden name where these are denied. -/
theorem listing_matches_resolution :
    (∀ a b, percentEncodeBytes a = percentEncodeBytes b → a = b) ∧
    (∀ (ν : Type) (tree : Tree ν Attributes) (fallback : Fallback ν)
      (pinned : PinnedRoot tree.unchanged) (policy : StaticPolicy) (parent whole : ConfinedPath)
      (child : Str) (d : ResolvedDirectory ν) (isDir : Bool) (maxEntries : Nat)
      (p q r : Process ν),
      policy.symlinks = .denied →
      parent.pathPolicy = rootPathPolicy policy → whole.pathPolicy = rootPathPolicy policy →
      whole.components = parent.components ++ [child] →
      validateComponents whole.components whole.pathPolicy = .ok () →
      (RootGuard.resolve fallback pinned parent policy p).1 = .directory d →
      (RootGuard.resolve fallback pinned whole policy q).1.served = some isDir →
      ((tree.names d.dirFd).filter (· ∉ dotEntries)).length < maxEntries →
      ∃ entries entry,
        (listDirectoryFd tree.unchanged d.dirFd (tree.scan d.dirFd) policy maxEntries r).1 =
          .ok entries ∧
        entries.filter (·.href = percentEncodeBytes (utf8 child)) = [entry] ∧
        entry.name = child ∧ entry.isDir = isDir ∧
        ConfinedPath.fromPathComponent ('/' :: entry.href) (rootPathPolicy policy) =
          .ok { decoded := '/' :: child, components := [child]
                pathPolicy := rootPathPolicy policy }) ∧
    (∀ (raw : Name) (isDir : Bool) (pathPolicy : PathPolicy) (path : ConfinedPath), raw ≠ [] →
      ConfinedPath.fromPathComponent ('/' :: (ListingEntry.fromRawBytes raw isDir).href)
        pathPolicy = .ok path →
      ∃ component, path.components = [component] ∧ utf8 component = raw) ∧
    ∀ (ν : Type) (tree : Tree ν Attributes) (policy : StaticPolicy) (dirFd : ν)
      (maxEntries : Nat) (p : Process ν) (entries : List ListingEntry),
      policy.symlinks = .denied →
      (listDirectoryFd tree.unchanged dirFd (tree.scan dirFd) policy maxEntries p).1 =
        .ok entries →
      ∀ entry ∈ entries, ∃ raw ∈ tree.names dirFd,
        entry.href = percentEncodeBytes raw ∧
        (policy.dotfiles = .denied → raw.head? ≠ some 0x2e) ∧
        ∃ inode, tree.entry dirFd raw = some inode ∧ tree.fileType inode ≠ .symlink := by
  refine ⟨fun a b h => percentEncodeBytes_injective h, ?_, ?_, ?_⟩
  · intro ν tree fallback pinned policy parent whole child d isDir maxEntries p q r hSymlinks
      hParent hWhole hComponents hAdmitted hDirectory hServed hBound
    have hChild : ConfinedComponent (rootPathPolicy policy) child := by
      rw [hWhole, hComponents, validateComponents_eq_ok] at hAdmitted
      exact hAdmitted child (List.mem_append_right _ (List.mem_singleton_self child))
    rw [RootGuard.resolve, if_pos hSymlinks, hParent] at hDirectory
    obtain ⟨hAppend, -⟩ := resolveFdRelative_append hChild hDirectory q r
    rw [RootGuard.resolve, if_pos hSymlinks, hComponents, hWhole, hAppend] at hServed
    obtain ⟨hConfined, inode, hLookup, hType⟩ := resolveChildFd_served hServed
    have hDot : ¬(policy.dotfiles = .denied ∧ child.head? = some '.') := by
      rintro ⟨hDenied, hHead⟩
      exact hConfined.no_dotfile (by rw [childPathPolicy, if_pos hDenied]) hHead
    have hFd := resolveFdRelative_directory pinned.is_directory hDirectory
    have hName := hChild.singleSegment
    have hMem : utf8 child ∈ tree.names d.dirFd := by
      rw [tree.mem_names d.dirFd _ hFd hName, (tree.lookup_eq_ok hFd hName).mp hLookup]
      rfl
    refine ⟨_, _, ?_, filter_href_listing hBound hMem
      (listed_of_served hChild hDot hLookup hType), rfl, rfl, ?_⟩
    · rw [listDirectoryFd_unchanged, if_pos hFd]
    · rw [fromPathComponent_href hName.nonempty]
      exact ⟨child, rfl, hChild, hChild.no_backslash rfl, rfl⟩
  · intro raw isDir pathPolicy path hRaw hPath
    obtain ⟨component, hText, -, -, rfl⟩ := (fromPathComponent_href hRaw).mp hPath
    exact ⟨component, rfl, hText⟩
  · intro ν tree policy dirFd maxEntries p entries hSymlinks hList entry hEntry
    rw [listDirectoryFd_unchanged] at hList
    split_ifs at hList with hFd
    obtain rfl := Except.ok.inj hList
    obtain ⟨raw, hRaw, hListed⟩ := mem_listing hEntry
    obtain ⟨hDot, hHidden, inode, hLookup, hLink, -⟩ := listed_eq_some.mp hListed
    have hName := (tree.names_single dirFd raw hRaw).resolve_left hDot
    refine ⟨raw, hRaw, href_of_listed hListed, fun hDenied hHead => hHidden ⟨hDenied, hHead⟩,
      inode, (tree.lookup_eq_ok hFd hName).mp hLookup, fun hType => hLink ⟨hSymlinks, hType⟩⟩

/-- The file `docs/a` has its entry in the listing of `docs`. -/
theorem listing_matches_resolution_docs :
    ∃ entries entry,
      (listDirectoryFd docsTree.unchanged 1 (docsTree.scan 1) {} 2 ⟨0, []⟩).1 = .ok entries ∧
      entries.filter (·.href = percentEncodeBytes (utf8 ("a" : Str))) = [entry] ∧
      entry.name = ("a" : Str) ∧ entry.isDir = false ∧
      ConfinedPath.fromPathComponent ('/' :: entry.href) (rootPathPolicy {}) =
        .ok { decoded := "/a", components := ["a"], pathPolicy := rootPathPolicy {} } :=
  listing_matches_resolution.2.1 Nat docsTree (fun _ _ _ p => (.notFound, p)) docsRoot {}
    { decoded := "/docs", components := ["docs"], pathPolicy := {} }
    { decoded := "/docs/a", components := ["docs", "a"], pathPolicy := {} } "a"
    { dirFd := 1, canonicalPath := "/srv/docs", components := ["docs"], rejectBackslash := true }
    false 2 ⟨0, []⟩ ⟨0, []⟩ ⟨0, []⟩ rfl rfl rfl rfl (by decide +kernel) rfl rfl (by decide +kernel)

end Eggserve.Static
