import Eggserve.Rust.Elements
import Eggserve.Rust.Text

/-! Lists in text: what `split` at a character and `trim` leave of it. -/
namespace Rust

theorem mem_of_mem_splitOn {c sep : Char} {s piece : Str} (hPiece : piece ∈ s.splitOn sep)
    (h : c ∈ piece) : c ∈ s := by
  induction s generalizing piece with
  | nil =>
      rw [List.splitOn_nil, List.mem_singleton] at hPiece
      rwa [hPiece] at h
  | cons d rest ih =>
      rw [List.splitOn_cons_eq_if_modifyHead] at hPiece
      split_ifs at hPiece
      · rcases List.mem_cons.mp hPiece with rfl | hPiece
        · cases h
        · exact List.mem_cons_of_mem _ (ih hPiece h)
      · cases hs : rest.splitOn sep with
        | nil => exact absurd hs (List.splitOn_ne_nil sep rest)
        | cons first others =>
            rw [hs, List.modifyHead_cons, List.mem_cons] at hPiece
            rcases hPiece with rfl | hPiece
            · rcases List.mem_cons.mp h with rfl | hFirst
              · exact List.mem_cons_self
              · exact List.mem_cons_of_mem _ (ih (hs ▸ List.mem_cons_self) hFirst)
            · exact List.mem_cons_of_mem _ (ih (hs ▸ List.mem_cons_of_mem _ hPiece) h)

theorem not_mem_of_mem_splitOn {sep : Char} {s piece : Str} (h : piece ∈ s.splitOn sep) :
    sep ∉ piece := by
  induction s generalizing piece with
  | nil =>
      rw [List.splitOn_nil, List.mem_singleton] at h
      simp [h]
  | cons d rest ih =>
      rw [List.splitOn_cons_eq_if_modifyHead] at h
      split_ifs at h with hSep
      · rcases List.mem_cons.mp h with rfl | h
        · simp
        · exact ih h
      · cases hs : rest.splitOn sep with
        | nil => exact absurd hs (List.splitOn_ne_nil sep rest)
        | cons first others =>
            rw [hs, List.modifyHead_cons, List.mem_cons] at h
            rcases h with rfl | h
            · have hFirst := ih (hs ▸ List.mem_cons_self)
              have hNe : sep ≠ d := by
                rintro rfl
                simp at hSep
              simp [hFirst, hNe]
            · exact ih (hs ▸ List.mem_cons_of_mem _ h)

/-- A character that is no separator stands in one of the pieces. -/
theorem exists_mem_splitOn {c sep : Char} {s : Str} (hSep : c ≠ sep) (h : c ∈ s) :
    ∃ piece ∈ s.splitOn sep, c ∈ piece := by
  induction s with
  | nil => cases h
  | cons d rest ih =>
      rw [List.splitOn_cons_eq_if_modifyHead]
      split_ifs with hCut
      · rcases List.mem_cons.mp h with rfl | h
        · exact absurd (by simpa using hCut) hSep
        · obtain ⟨piece, hPiece, hc⟩ := ih h
          exact ⟨piece, List.mem_cons_of_mem _ hPiece, hc⟩
      · cases hs : rest.splitOn sep with
        | nil => exact absurd hs (List.splitOn_ne_nil sep rest)
        | cons first others =>
            rw [List.modifyHead_cons]
            rcases List.mem_cons.mp h with rfl | h
            · exact ⟨_, List.mem_cons_self, List.mem_cons_self⟩
            · obtain ⟨piece, hPiece, hc⟩ := ih h
              rcases List.mem_cons.mp (hs ▸ hPiece) with rfl | hPiece
              · exact ⟨_, List.mem_cons_self, List.mem_cons_of_mem _ hc⟩
              · exact ⟨piece, List.mem_cons_of_mem _ hPiece, hc⟩

theorem mem_trim {c : Char} {s : Str} (hc : isWhitespace c = false) (h : c ∈ s) : c ∈ trim s := by
  rw [← List.count_pos_iff, count_trim s hc]
  exact List.count_pos_iff.mpr h

theorem trim_subset (s : Str) : trim s ⊆ s :=
  fun _ h => (List.dropWhile_sublist _).subset ((List.rdropWhile_prefix isWhitespace _).subset h)

/-- Trimming leaves nothing of whitespace alone. -/
theorem trim_eq_nil_iff {s : Str} : trim s = [] ↔ ∀ c ∈ s, isWhitespace c = true := by
  constructor
  · intro h
    rw [trim, List.rdropWhile_eq_nil_iff] at h
    have hFront : s.dropWhile isWhitespace = [] := by
      by_contra hNonempty
      have hHead := List.head_dropWhile_not isWhitespace hNonempty
      rw [h _ (List.head_mem hNonempty)] at hHead
      cases hHead
    exact List.dropWhile_eq_nil_iff.mp hFront
  · exact trim_of_blank

/-- The last character that trimming leaves is not whitespace. -/
theorem not_isWhitespace_getLast_trim {s : Str} (h : trim s ≠ []) :
    isWhitespace ((trim s).getLast h) = false := by
  have hLast := List.rdropWhile_last_not isWhitespace (s.dropWhile isWhitespace) h
  exact Bool.eq_false_iff.mpr hLast

/-- Nor is the first one. -/
theorem not_isWhitespace_head_trim {s : Str} {c : Char} {rest : Str} (h : trim s = c :: rest) :
    isWhitespace c = false := by
  have hNonempty : s.dropWhile isWhitespace ≠ [] := by
    intro hNil
    rw [trim, hNil] at h
    cases h
  have hHead := List.head_dropWhile_not isWhitespace hNonempty
  have hPrefix := List.rdropWhile_prefix isWhitespace (s.dropWhile isWhitespace)
  rw [← trim, h] at hPrefix
  rw [← List.cons_head_tail hNonempty] at hPrefix
  rw [(List.cons_prefix_cons.mp hPrefix).1]
  exact hHead

theorem trim_trim (s : Str) : trim (trim s) = trim s := trimBlank_trimBlank isWhitespace s

/-- What trimming takes away. -/
theorem exists_blank_trim (s : Str) :
    ∃ front back : Str, s = front ++ (trim s ++ back) ∧ (∀ c ∈ front, isWhitespace c = true) ∧
      ∀ c ∈ back, isWhitespace c = true :=
  exists_blank_trimBlank isWhitespace s

/-- Induction over the pieces between separators. -/
theorem split_induction {p : Char → Bool} {P : Str → Prop}
    (hFree : ∀ s : Str, (∀ c ∈ s, p c = false) → P s)
    (hCut : ∀ (first : Str) (c : Char) (rest : Str), (∀ d ∈ first, p d = false) → p c = true →
      P rest → P (first ++ c :: rest)) (s : Str) : P s := by
  induction hLength : s.length using Nat.strong_induction_on generalizing s with
  | _ length ih =>
      cases hRest : s.dropWhile fun c => !p c with
      | nil =>
          rw [List.dropWhile_eq_nil_iff] at hRest
          exact hFree s fun c hc => by simpa using hRest c hc
      | cons c rest =>
          have hSplit := List.takeWhile_append_dropWhile (p := fun c => !p c) (l := s)
          have hSep : p c = true := by
            have hHead := List.head_dropWhile_not (fun c => !p c) (l := s) (by simp [hRest])
            simpa [hRest] using hHead
          have hFirst : ∀ d ∈ s.takeWhile fun c => !p c, p d = false := by
            intro d hd
            simpa using List.mem_takeWhile_imp hd
          rw [hRest] at hSplit
          have hShorter := congrArg List.length hSplit
          rw [List.length_append, List.length_cons] at hShorter
          rw [← hSplit]
          exact hCut _ c rest hFirst hSep (ih rest.length (by omega) rest rfl)

theorem splitOnP_congr {p q : Char → Bool} {s : Str} (h : ∀ c ∈ s, p c = q c) :
    s.splitOnP p = s.splitOnP q := by
  induction s with
  | nil => rfl
  | cons c rest ih =>
      rw [List.forall_mem_cons] at h
      rw [List.splitOnP_cons_eq_if_modifyHead, List.splitOnP_cons_eq_if_modifyHead, h.1, ih h.2]

/-! Lists in UTF-8. -/

/-- A class of ASCII codes holds of a character and of all its octets alike. -/
theorem encodes_utf8 {kind : Nat → Bool} (hAscii : ∀ n, kind n = true → n < 128) :
    Encodes String.utf8EncodeChar (fun c => kind c.toNat) (fun b => kind b.toNat) where
  nonempty c hNil := by
    have hLength : (String.utf8EncodeChar c).length = 0 := by rw [hNil]; rfl
    have hPos := c.utf8Size_pos
    rw [String.length_utf8EncodeChar] at hLength
    omega
  uniform c b hb := by
    by_cases hc : c.toNat < 128
    · rw [utf8EncodeChar_ascii hc, List.mem_singleton] at hb
      rw [hb, toNat_ofNat_of_ascii hc]
    · have hHigh := le_of_mem_utf8EncodeChar (Nat.not_lt.mp hc) hb
      have hNone : ∀ n, 128 ≤ n → kind n = false := fun n hn =>
        Bool.eq_false_iff.mpr fun h => absurd (hAscii n h) (Nat.not_lt.mpr hn)
      rw [hNone _ hHigh, hNone _ (Nat.not_lt.mp hc)]

/-- An ASCII octet cuts valid UTF-8 into two valid parts. -/
theorem utf8_eq_append_cons {c : Char} (hc : c.toNat < 128) {s : Str} {left right : List UInt8}
    (h : utf8 s = left ++ UInt8.ofNat c.toNat :: right) :
    ∃ before after, s = before ++ c :: after ∧ left = utf8 before ∧ right = utf8 after := by
  induction s generalizing left with
  | nil => simp at h
  | cons d rest ih =>
      rw [utf8_cons, List.append_eq_append_iff] at h
      rcases h with ⟨middle, rfl, hRest⟩ | ⟨middle, hCode, hRight⟩
      · obtain ⟨before, after, rfl, rfl, rfl⟩ := ih hRest
        exact ⟨d :: before, after, rfl, rfl, rfl⟩
      · cases middle with
        | nil =>
            rw [List.nil_append] at hRight
            obtain ⟨before, after, hText, hBefore, rfl⟩ := @ih [] hRight.symm
            refine ⟨d :: before, after, by rw [hText]; rfl, ?_, rfl⟩
            rw [utf8_cons, ← hBefore, hCode, List.append_nil, List.append_nil]
        | cons b middle =>
            obtain ⟨rfl, rfl⟩ := List.cons.inj hRight
            have hByte := toNat_ofNat_of_ascii hc
            have hMem : UInt8.ofNat c.toNat ∈ utf8 [d] := by simp [hCode]
            obtain ⟨e, he, hNat⟩ := (mem_utf8_ascii (by omega)).mp hMem
            rw [List.mem_singleton] at he
            obtain rfl : d = c := char_eq_of_toNat (he ▸ hNat.trans hByte)
            rw [utf8EncodeChar_ascii hc] at hCode
            have hLeft : left = [] := by
              cases left with
              | nil => rfl
              | cons b left => simp at hCode
            rw [hLeft, List.nil_append, List.cons.injEq] at hCode
            exact ⟨[], rest, rfl, hLeft, by rw [← hCode.2]; rfl⟩

/-- Octets below 128 are text. -/
theorem exists_utf8_of_ascii {bytes : List UInt8} (h : ∀ b ∈ bytes, b.toNat < 128) :
    ∃ s, bytes = utf8 s := by
  induction bytes with
  | nil => exact ⟨[], rfl⟩
  | cons b rest ih =>
      rw [List.forall_mem_cons] at h
      obtain ⟨s, rfl⟩ := ih h.2
      have hValid : b.toNat.isValidChar := .inl (by omega)
      have hCode : (Char.ofNat b.toNat).toNat = b.toNat := by
        rw [Char.ofNat, dif_pos hValid]
        rfl
      refine ⟨Char.ofNat b.toNat :: s, ?_⟩
      rw [utf8_cons, utf8EncodeChar_ascii (by omega), hCode]
      simp

theorem splitOnce_eq_some {c : Char} {s label suffix : Str} :
    splitOnce c s = some (label, suffix) ↔ s = label ++ c :: suffix ∧ c ∉ label := by
  constructor
  · intro h
    by_cases hMem : c ∈ s
    · obtain ⟨front, back, rfl, hFront⟩ := List.eq_append_cons_of_mem hMem
      rw [splitOnce_append back hFront] at h
      cases h
      exact ⟨rfl, hFront⟩
    · rw [splitOnce_of_not_mem hMem] at h
      cases h
  · rintro ⟨rfl, hLabel⟩
    exact splitOnce_append suffix hLabel

end Rust
