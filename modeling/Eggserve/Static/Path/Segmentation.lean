import Eggserve.Rust.Split
import Eggserve.Static.Path.Components

/-! Percent decoding and segmentation commute: the decoder may be run on a path or on each of
its segments. -/
namespace Eggserve.Static
open Rust

/-- An octet that no escape stands for and that is no part of one. -/
structure NeverEscaped (octet : UInt8) : Prop where
  notPercent : octet ≠ 0x25
  notDigit : hexDigit octet = none
  notDecoded : ∀ first second, decodeEscape first second ≠ .ok octet

theorem decodeEscape_ne {first second byte : UInt8} (h : decodeEscape first second = .ok byte) :
    byte ≠ 0x2f ∧ byte ≠ 0x5c := by
  unfold decodeEscape at h
  split at h
  · dsimp only at h
    split_ifs at h with hNul hControl hSeparator
    obtain rfl := Except.ok.inj h
    exact not_or.mp hSeparator
  · cases h

theorem neverEscaped_slash : NeverEscaped 0x2f :=
  ⟨by decide, by decide, fun _ _ h => (decodeEscape_ne h).1 rfl⟩

theorem neverEscaped_backslash : NeverEscaped 0x5c :=
  ⟨by decide, by decide, fun _ _ h => (decodeEscape_ne h).2 rfl⟩

theorem decodeEscape_digits {first second byte : UInt8}
    (h : decodeEscape first second = .ok byte) :
    hexDigit first ≠ none ∧ hexDigit second ≠ none := by
  unfold decodeEscape at h
  split at h
  · rename_i hi lo hFirst hSecond
    rw [hFirst, hSecond]
    exact ⟨nofun, nofun⟩
  · cases h

/-- Decoding keeps every occurrence of such an octet. -/
theorem NeverEscaped.count_decodeBytes {octet : UInt8} (hOctet : NeverEscaped octet)
    {bytes decoded : List UInt8} (h : decodeBytes bytes = .ok decoded) :
    decoded.count octet = bytes.count octet := by
  fun_induction decodeBytes bytes generalizing decoded with
  | case1 =>
      cases h
      rfl
  | case2 first second rest ih =>
      obtain ⟨byte, hByte, h⟩ := bind_eq_ok.mp h
      obtain ⟨tail, hTail, h⟩ := bind_eq_ok.mp h
      cases h
      obtain ⟨hFirst, hSecond⟩ := decodeEscape_digits hByte
      have hNot {b : UInt8} (hb : hexDigit b ≠ none) : b ≠ octet := by
        rintro rfl
        exact hb hOctet.notDigit
      have hDecoded : byte ≠ octet := by
        rintro rfl
        exact hOctet.notDecoded _ _ hByte
      rw [List.count_cons_of_ne hDecoded, List.count_cons_of_ne hOctet.notPercent.symm,
        List.count_cons_of_ne (hNot hFirst), List.count_cons_of_ne (hNot hSecond), ih hTail]
  | case3 => cases h
  | case4 => cases h
  | case5 b rest hPercent hControl ih =>
      obtain ⟨tail, hTail, h⟩ := bind_eq_ok.mp h
      cases h
      rw [List.count_cons, List.count_cons, ih hTail]

theorem decodeBytes_escape (first second : UInt8) (rest : List UInt8) :
    decodeBytes (0x25 :: first :: second :: rest) =
      (decodeEscape first second >>= fun byte =>
        decodeBytes rest >>= fun decoded => .ok (byte :: decoded)) := by
  rw [decodeBytes.eq_def]
  rfl

/-- An escape that a slash cuts is malformed. -/
theorem decodeBytes_cut_escape {front : List UInt8} (hShort : front.length < 2)
    (right : List UInt8) (decoded : List UInt8) :
    decodeBytes (0x25 :: (front ++ 0x2f :: right)) ≠ .ok decoded ∧
      decodeBytes (0x25 :: front) ≠ .ok decoded := by
  have hSlash : hexDigit 0x2f = none := by decide
  match front, hShort with
  | [], _ =>
      refine ⟨fun h => ?_, nofun⟩
      cases right with
      | nil => cases h
      | cons b right =>
          rw [List.nil_append, decodeBytes_escape] at h
          obtain ⟨byte, hByte, -⟩ := bind_eq_ok.mp h
          exact (decodeEscape_digits hByte).1 hSlash
  | [b], _ =>
      refine ⟨fun h => ?_, nofun⟩
      rw [List.singleton_append, decodeBytes_escape] at h
      obtain ⟨byte, hByte, -⟩ := bind_eq_ok.mp h
      exact (decodeEscape_digits hByte).2 hSlash

/-- A slash cuts the octets into two parts that are decoded on their own. -/
theorem decodeBytes_at_slash {left right decoded : List UInt8} :
    decodeBytes (left ++ 0x2f :: right) = .ok decoded ↔
      ∃ first second, decodeBytes left = .ok first ∧ decodeBytes right = .ok second ∧
        decoded = first ++ 0x2f :: second := by
  fun_induction decodeBytes left generalizing decoded with
  | case1 =>
      rw [List.nil_append, decodeBytes_cons_literal _ (by decide), if_neg (by decide), bind_eq_ok]
      simp [eq_comm]
  | case2 b₁ b₂ rest ih =>
      rw [List.cons_append, List.cons_append, List.cons_append, decodeBytes_escape]
      simp only [bind_eq_ok, ih]
      constructor
      · rintro ⟨byte, hByte, tail, ⟨first, second, hFirst, hSecond, rfl⟩, hResult⟩
        cases hResult
        exact ⟨byte :: first, second, ⟨byte, hByte, first, hFirst, rfl⟩, hSecond, rfl⟩
      · rintro ⟨-, second, ⟨byte, hByte, first, hFirst, ⟨⟩⟩, hSecond, rfl⟩
        exact ⟨byte, hByte, _, ⟨first, second, hFirst, hSecond, rfl⟩, rfl⟩
  | case3 rest hShort =>
      have hLength : rest.length < 2 := by
        rcases rest with _ | ⟨b₁, _ | ⟨b₂, tail⟩⟩
        · exact Nat.zero_lt_two
        · exact Nat.lt_succ_self 1
        · exact (hShort b₁ b₂ tail rfl).elim
      refine iff_of_false (decodeBytes_cut_escape hLength right decoded).1 ?_
      rintro ⟨first, second, hFirst, -⟩
      cases hFirst
  | case4 b rest hPercent hControl =>
      rw [List.cons_append, decodeBytes_cons_literal _ hPercent, if_pos hControl]
      refine iff_of_false (fun h => by cases h) ?_
      rintro ⟨first, second, hFirst, -⟩
      cases hFirst
  | case5 b rest hPercent hControl ih =>
      rw [List.cons_append, decodeBytes_cons_literal _ hPercent, if_neg hControl]
      simp only [bind_eq_ok, ih]
      constructor
      · rintro ⟨tail, ⟨first, second, hFirst, hSecond, rfl⟩, hResult⟩
        cases hResult
        exact ⟨b :: first, second, ⟨first, hFirst, rfl⟩, hSecond, rfl⟩
      · rintro ⟨-, second, ⟨first, hFirst, ⟨⟩⟩, hSecond, rfl⟩
        exact ⟨_, ⟨first, second, hFirst, hSecond, rfl⟩, rfl⟩

theorem percentDecode_at_slash {left right decoded : Str} :
    percentDecode (left ++ '/' :: right) = .ok decoded ↔
      ∃ first second, percentDecode left = .ok first ∧ percentDecode right = .ok second ∧
        decoded = first ++ '/' :: second := by
  have hSlash : String.utf8EncodeChar '/' = [0x2f] := rfl
  rw [percentDecode_eq_ok, utf8_append, utf8_cons, hSlash, List.singleton_append,
    decodeBytes_at_slash]
  constructor
  · rintro ⟨first, second, hFirst, hSecond, hDecoded⟩
    -- The octets of the whole are valid only if those of each part are.
    obtain ⟨before, after, rfl, rfl, rfl⟩ := @utf8_eq_append_cons '/' (by decide) _ _ _ hDecoded
    exact ⟨before, after, percentDecode_eq_ok.mpr hFirst, percentDecode_eq_ok.mpr hSecond, rfl⟩
  · rintro ⟨first, second, hFirst, hSecond, rfl⟩
    refine ⟨utf8 first, utf8 second, percentDecode_eq_ok.mp hFirst,
      percentDecode_eq_ok.mp hSecond, ?_⟩
    rw [utf8_append, utf8_cons, hSlash, List.singleton_append]

/-! Counting characters. -/

theorem count_utf8_ascii {c : Char} (hc : c.toNat < 128) (s : Str) :
    (utf8 s).count (UInt8.ofNat c.toNat) = s.count c := by
  have hByte := toNat_ofNat_of_ascii hc
  induction s with
  | nil => rfl
  | cons d rest ih =>
      rw [utf8_cons, List.count_append, ih, List.count_cons, Nat.add_comm]
      congr 1
      by_cases hd : d = c
      · subst hd
        rw [utf8EncodeChar_ascii hc]
        simp
      · have hNone : UInt8.ofNat c.toNat ∉ utf8 [d] := by
          rw [mem_utf8_ascii (by omega)]
          rintro ⟨e, he, hNat⟩
          rw [List.mem_singleton] at he
          exact hd (char_eq_of_toNat (he ▸ hNat.trans hByte))
        rw [if_neg (by simpa using hd), List.count_eq_zero]
        simpa using hNone

theorem count_percentDecode {path decoded : Str} (h : percentDecode path = .ok decoded) {c : Char}
    (hc : c.toNat < 128) (hEscaped : NeverEscaped (UInt8.ofNat c.toNat)) :
    decoded.count c = path.count c := by
  rw [← count_utf8_ascii hc, ← count_utf8_ascii hc]
  exact hEscaped.count_decodeBytes (percentDecode_eq_ok.mp h)

theorem count_slash {path decoded : Str} (h : percentDecode path = .ok decoded) :
    decoded.count '/' = path.count '/' := count_percentDecode h (by decide) neverEscaped_slash

theorem slash_free {path decoded : Str} (h : percentDecode path = .ok decoded)
    (hFree : '/' ∉ path) : '/' ∉ decoded := by
  rw [← List.count_eq_zero] at hFree ⊢
  rw [count_slash h, hFree]

/-- Only the empty text is decoded to the empty text. -/
theorem percentDecode_eq_nil_iff {path decoded : Str} (h : percentDecode path = .ok decoded) :
    decoded = [] ↔ path = [] := by
  have hEmpty {s : Str} : utf8 s = [] ↔ s = [] :=
    ⟨fun hNil => utf8_injective (hNil.trans utf8_nil.symm), fun hNil => by rw [hNil, utf8_nil]⟩
  rw [percentDecode_eq_ok] at h
  rw [← hEmpty, ← @hEmpty path]
  generalize utf8 path = bytes at h
  generalize utf8 decoded = result at h
  cases bytes with
  | nil =>
      cases h
      exact iff_of_true rfl rfl
  | cons b rest =>
      refine iff_of_false ?_ (List.cons_ne_nil b rest)
      rintro rfl
      by_cases hb : b = 0x25
      · subst hb
        match rest with
        | [] => cases h
        | [_] => cases h
        | b₁ :: b₂ :: rest =>
            rw [decodeBytes_escape] at h
            obtain ⟨byte, -, hRest⟩ := bind_eq_ok.mp h
            obtain ⟨tail, -, hResult⟩ := bind_eq_ok.mp hRest
            cases hResult
      · rw [decodeBytes_cons_literal _ hb] at h
        split_ifs at h
        obtain ⟨tail, -, hResult⟩ := bind_eq_ok.mp h
        cases hResult

/-! Segments. -/

/-- The segments of the decoded path are the decoded segments. -/
theorem segments_of_percentDecode {path decoded : Str} (h : percentDecode path = .ok decoded) :
    List.Forall₂ (fun segment piece => percentDecode segment = .ok piece) (path.splitOn '/')
      (decoded.splitOn '/') := by
  induction path using @split_induction (· == '/') generalizing decoded with
  | hFree path hFree =>
      have hNone : '/' ∉ path := fun hMem => by simpa using hFree _ hMem
      rw [List.splitOn_eq_singleton hNone, List.splitOn_eq_singleton (slash_free h hNone)]
      exact .cons h .nil
  | hCut first c rest hFree hSep ih =>
      obtain rfl : c = '/' := by simpa using hSep
      have hNone : '/' ∉ first := fun hMem => by simpa using hFree _ hMem
      obtain ⟨before, after, hFirst, hRest, rfl⟩ := percentDecode_at_slash.mp h
      rw [List.splitOn_append_cons_self, List.splitOn_append_cons_self,
        List.splitOn_eq_singleton hNone, List.splitOn_eq_singleton (slash_free hFirst hNone)]
      exact .cons hFirst (ih hRest)

theorem percentDecode_of_segments {path : Str}
    (h : ∀ segment ∈ path.splitOn '/', ∃ piece, percentDecode segment = .ok piece) :
    ∃ decoded, percentDecode path = .ok decoded := by
  induction path using @split_induction (· == '/') with
  | hFree path hFree =>
      have hNone : '/' ∉ path := fun hMem => by simpa using hFree _ hMem
      rw [List.splitOn_eq_singleton hNone] at h
      exact h path (List.mem_singleton_self path)
  | hCut first c rest hFree hSep ih =>
      obtain rfl : c = '/' := by simpa using hSep
      have hNone : '/' ∉ first := fun hMem => by simpa using hFree _ hMem
      rw [List.splitOn_append_cons_self, List.splitOn_eq_singleton hNone] at h
      obtain ⟨before, hFirst⟩ := h first List.mem_cons_self
      obtain ⟨after, hRest⟩ := ih fun segment hMem => h segment (List.mem_cons_of_mem _ hMem)
      exact ⟨_, percentDecode_at_slash.mpr ⟨before, after, hFirst, hRest, rfl⟩⟩

theorem components_of_percentDecode {path decoded : Str} (h : percentDecode path = .ok decoded) :
    List.Forall₂ (fun component piece => percentDecode component = .ok piece)
      (splitComponents path) (splitComponents decoded) := by
  have hSegments := segments_of_percentDecode h
  unfold splitComponents
  generalize path.splitOn '/' = segments at hSegments ⊢
  generalize decoded.splitOn '/' = pieces at hSegments ⊢
  induction hSegments with
  | nil => exact .nil
  | @cons segment piece segments pieces hPiece _ ih =>
      have hSame : piece.isEmpty = segment.isEmpty := by
        rw [Bool.eq_iff_iff, List.isEmpty_iff, List.isEmpty_iff]
        exact percentDecode_eq_nil_iff hPiece
      rw [List.filter_cons, List.filter_cons, hSame]
      split_ifs
      · exact .cons hPiece ih
      · exact ih

/-- Decoding and cutting at slashes commute, so that no escape makes, removes or moves a slash. -/
theorem decoding_commutes_with_segmentation (path : Str) :
    ((∃ decoded, percentDecode path = .ok decoded) ↔
      ∀ segment ∈ path.splitOn '/', ∃ piece, percentDecode segment = .ok piece) ∧
    ∀ decoded, percentDecode path = .ok decoded →
      (path.splitOn '/').mapM percentDecode = .ok (decoded.splitOn '/') ∧
      (splitComponents path).mapM percentDecode = .ok (splitComponents decoded) ∧
      decoded.count '/' = path.count '/' ∧ decoded.count '\\' = path.count '\\' ∧
      ∀ other, percentDecode other = .ok decoded →
        (other.splitOn '/').mapM percentDecode = (path.splitOn '/').mapM percentDecode := by
  have hSegments {p decoded : Str} (h : percentDecode p = .ok decoded) :
      (p.splitOn '/').mapM percentDecode = .ok (decoded.splitOn '/') :=
    mapM_eq_ok.mpr (segments_of_percentDecode h)
  refine ⟨⟨?_, percentDecode_of_segments⟩, fun decoded h => ?_⟩
  · rintro ⟨decoded, h⟩
    exact mapM_item (hSegments h)
  · refine ⟨hSegments h, mapM_eq_ok.mpr (components_of_percentDecode h), count_slash h,
      count_percentDecode h (by decide) neverEscaped_backslash, fun other hOther => ?_⟩
    rw [hSegments hOther, hSegments h]

end Eggserve.Static
