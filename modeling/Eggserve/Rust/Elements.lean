import Mathlib.Data.List.DropRight
import Mathlib.Data.List.Infix

/-! Lists that are written out: elements between separators, with blanks around
them that do not count. The alphabet is arbitrary. -/
namespace Rust

universe u

variable {α : Type u}

/-- `trim_matches`. -/
def trimBlank (blank : α → Bool) (s : List α) : List α := (s.dropWhile blank).rdropWhile blank

def elements (sep blank : α → Bool) (s : List α) : List (List α) :=
  (s.splitOnP sep).map (trimBlank blank)

section Trimming

variable {blank : α → Bool}

theorem trimBlank_blank_append {front : List α} (s : List α)
    (hFront : ∀ c ∈ front, blank c = true) :
    trimBlank blank (front ++ s) = trimBlank blank s := by
  rw [trimBlank, List.dropWhile_append_of_pos hFront, trimBlank]

theorem trimBlank_concat (s : List α) {c : α} (hBlank : blank c = true) :
    trimBlank blank (s ++ [c]) = trimBlank blank s := by
  rw [trimBlank, trimBlank, List.dropWhile_append]
  cases hDrop : s.dropWhile blank with
  | nil => simp [hBlank]
  | cons d rest => rw [if_neg (by simp), List.rdropWhile_concat_pos _ _ _ hBlank]

theorem trimBlank_append_blank (s : List α) {back : List α}
    (hBack : ∀ c ∈ back, blank c = true) : trimBlank blank (s ++ back) = trimBlank blank s := by
  induction back generalizing s with
  | nil => rw [List.append_nil]
  | cons c back ih =>
      rw [List.forall_mem_cons] at hBack
      rw [List.append_cons, ih _ hBack.2, trimBlank_concat s hBack.1]

/-- What trimming takes away. -/
theorem exists_blank_trimBlank (blank : α → Bool) (s : List α) :
    ∃ front back : List α, s = front ++ (trimBlank blank s ++ back) ∧
      (∀ c ∈ front, blank c = true) ∧ ∀ c ∈ back, blank c = true := by
  refine ⟨s.takeWhile blank, (s.dropWhile blank).rtakeWhile blank, ?_,
    fun c hc => List.mem_takeWhile_imp hc, fun c hc => List.mem_rtakeWhile_imp hc⟩
  rw [trimBlank, List.rdropWhile_append_rtakeWhile, List.takeWhile_append_dropWhile]

theorem trimBlank_trimBlank (blank : α → Bool) (s : List α) :
    trimBlank blank (trimBlank blank s) = trimBlank blank s := by
  have hFront : (trimBlank blank s).dropWhile blank = trimBlank blank s := by
    unfold trimBlank
    cases hDrop : s.dropWhile blank with
    | nil => rfl
    | cons c rest =>
        have hHead : blank c = false := by
          have hNot := @List.head_dropWhile_not _ blank s (by simp [hDrop])
          simpa [hDrop] using hNot
        have hPrefix := List.rdropWhile_prefix blank (c :: rest)
        cases hBack : (c :: rest).rdropWhile blank with
        | nil => rfl
        | cons d tail =>
            rw [hBack] at hPrefix
            obtain rfl : d = c := (List.cons_prefix_cons.mp hPrefix).1
            exact List.dropWhile_cons_of_neg (by simp [hHead])
  rw [trimBlank, hFront, trimBlank, List.rdropWhile_idempotent]

theorem mem_trimBlank {c : α} {s : List α} (hc : blank c = false) (h : c ∈ s) :
    c ∈ trimBlank blank s := by
  obtain ⟨front, back, hSplit, hFront, hBack⟩ := exists_blank_trimBlank blank s
  rw [hSplit, List.mem_append, List.mem_append] at h
  rcases h with hMem | hMem | hMem
  · exact absurd (hFront c hMem) (by simp [hc])
  · exact hMem
  · exact absurd (hBack c hMem) (by simp [hc])

end Trimming

section Elements

variable {sep blank : α → Bool}

/-- Cutting at a separator cuts the list in two. -/
theorem elements_append_cons (left right : List α) {c : α} (hSep : sep c = true) :
    elements sep blank (left ++ c :: right) =
      elements sep blank left ++ elements sep blank right := by
  rw [elements, List.splitOnP_append_cons left right hSep, List.map_append, elements, elements]

theorem elements_of_free {s : List α} (hFree : ∀ c ∈ s, sep c = false) :
    elements sep blank s = [trimBlank blank s] := by
  rw [elements, List.splitOnP_eq_singleton hFree, List.map_singleton]

theorem elements_ne_nil (s : List α) : elements sep blank s ≠ [] := by
  simp [elements]

/-- Either there is no separator, or the text can be cut at the first one. -/
theorem free_or_cut (sep : α → Bool) (s : List α) :
    (∀ c ∈ s, sep c = false) ∨ ∃ left c right, s = left ++ c :: right ∧ sep c = true ∧
      ∀ d ∈ left, sep d = false := by
  induction s with
  | nil => exact .inl fun c hc => absurd hc List.not_mem_nil
  | cons c rest ih =>
      cases hSep : sep c with
      | true => exact .inr ⟨[], c, rest, rfl, hSep, fun d hd => absurd hd List.not_mem_nil⟩
      | false =>
          rcases ih with hFree | ⟨left, d, right, rfl, hCut, hLeft⟩
          · exact .inl (List.forall_mem_cons.mpr ⟨hSep, hFree⟩)
          · exact .inr ⟨c :: left, d, right, rfl, hCut, List.forall_mem_cons.mpr ⟨hSep, hLeft⟩⟩

/-- Only separators and blanks are lost. -/
theorem exists_mem_elements {c : α} {s : List α} (hSep : sep c = false) (hc : blank c = false)
    (h : c ∈ s) : ∃ element ∈ elements sep blank s, c ∈ element := by
  induction hLength : s.length using Nat.strong_induction_on generalizing s with
  | _ length ih =>
      rcases free_or_cut sep s with hFree | ⟨left, d, right, rfl, hCut, hLeft⟩
      · rw [elements_of_free hFree]
        exact ⟨_, List.mem_singleton_self _, mem_trimBlank hc h⟩
      · rw [List.length_append, List.length_cons] at hLength
        rw [elements_append_cons _ _ hCut, elements_of_free hLeft]
        rcases List.mem_append.mp h with hMem | hMem
        · exact ⟨_, List.mem_cons_self, mem_trimBlank hc hMem⟩
        · rcases List.mem_cons.mp hMem with rfl | hMem
          · rw [hSep] at hCut
            cases hCut
          · obtain ⟨element, hElement, hFound⟩ := ih right.length (by omega) hMem rfl
            exact ⟨element, List.mem_append_right _ hElement, hFound⟩

variable (hBlank : ∀ c, blank c = true → sep c = false)
include hBlank

theorem elements_blank_append {front : List α} (s : List α)
    (hFront : ∀ c ∈ front, blank c = true) :
    elements sep blank (front ++ s) = elements sep blank s := by
  have hBoth : ∀ left : List α, (∀ c ∈ left, sep c = false) →
      ∀ c ∈ front ++ left, sep c = false := by
    intro left hLeft c hc
    exact (List.mem_append.mp hc).elim (fun h => hBlank c (hFront c h)) (hLeft c)
  rcases free_or_cut sep s with hFree | ⟨left, c, right, rfl, hCut, hLeft⟩
  · rw [elements_of_free hFree, elements_of_free (hBoth s hFree), trimBlank_blank_append s hFront]
  · rw [← List.append_assoc, elements_append_cons _ _ hCut, elements_append_cons _ _ hCut,
      elements_of_free hLeft, elements_of_free (hBoth left hLeft),
      trimBlank_blank_append left hFront]

theorem elements_append_blank {back : List α} (s : List α) (hBack : ∀ c ∈ back, blank c = true) :
    elements sep blank (s ++ back) = elements sep blank s := by
  induction hLength : s.length using Nat.strong_induction_on generalizing s with
  | _ length ih =>
      rcases free_or_cut sep s with hFree | ⟨left, c, right, rfl, hCut, hLeft⟩
      · have hBoth : ∀ c ∈ s ++ back, sep c = false := by
          intro c hc
          exact (List.mem_append.mp hc).elim (hFree c) fun h => hBlank c (hBack c h)
        rw [elements_of_free hFree, elements_of_free hBoth, trimBlank_append_blank s hBack]
      · rw [List.length_append, List.length_cons] at hLength
        rw [List.append_assoc, List.cons_append, elements_append_cons _ _ hCut,
          elements_append_cons _ _ hCut, ih right.length (by omega) right rfl]

/-- Blanks around the whole list make no difference either. -/
theorem elements_trimBlank {outer : α → Bool} (hOuter : ∀ c, outer c = true → blank c = true)
    (s : List α) : elements sep blank (trimBlank outer s) = elements sep blank s := by
  obtain ⟨front, back, hSplit, hFront, hBack⟩ := exists_blank_trimBlank outer s
  conv_rhs => rw [hSplit, elements_blank_append hBlank _ fun c hc => hOuter c (hFront c hc),
    elements_append_blank hBlank _ fun c hc => hOuter c (hBack c hc)]

end Elements

/-! Lists in an encoded text. -/

section Encoded

universe v

variable {β : Type v} {enc : α → List β}

/-- The code of a symbol is of its kind throughout. -/
structure Encodes (enc : α → List β) (kind : α → Bool) (codeKind : β → Bool) : Prop where
  nonempty : ∀ c, enc c ≠ []
  uniform : ∀ c, ∀ b ∈ enc c, codeKind b = kind c

variable {sep blank : α → Bool} {codeSep codeBlank : β → Bool}

theorem dropWhile_flatMap (hEnc : Encodes enc blank codeBlank) (s : List α) :
    (s.flatMap enc).dropWhile codeBlank = (s.dropWhile blank).flatMap enc := by
  induction s with
  | nil => rfl
  | cons c rest ih =>
      rw [List.flatMap_cons]
      cases hBlank : blank c with
      | true =>
          have hCode : ∀ b ∈ enc c, codeBlank b = true := fun b hb =>
            (hEnc.uniform c b hb).trans hBlank
          rw [List.dropWhile_append_of_pos hCode, ih, List.dropWhile_cons_of_pos hBlank]
      | false =>
          rw [List.dropWhile_cons_of_neg (by simp [hBlank]), List.flatMap_cons]
          obtain ⟨b, code, hCode⟩ := List.exists_cons_of_ne_nil (hEnc.nonempty c)
          have hFirst : codeBlank b = false :=
            (hEnc.uniform c b (hCode ▸ List.mem_cons_self)).trans hBlank
          rw [hCode, List.cons_append, List.dropWhile_cons_of_neg (by simp [hFirst])]

theorem Encodes.reverse (hEnc : Encodes enc blank codeBlank) :
    Encodes (fun c => (enc c).reverse) blank codeBlank :=
  ⟨fun c h => hEnc.nonempty c (List.reverse_eq_nil_iff.mp h),
    fun c b hb => hEnc.uniform c b (List.mem_reverse.mp hb)⟩

theorem trimBlank_flatMap (hEnc : Encodes enc blank codeBlank) (s : List α) :
    trimBlank codeBlank (s.flatMap enc) = (trimBlank blank s).flatMap enc := by
  rw [trimBlank, trimBlank, dropWhile_flatMap hEnc]
  generalize s.dropWhile blank = rest
  rw [List.rdropWhile, List.rdropWhile, List.reverse_flatMap, Function.comp_def,
    dropWhile_flatMap hEnc.reverse, List.reverse_flatMap, Function.comp_def]
  simp only [List.reverse_reverse]

/-- A list is encoded element by element, if a separator has a code of one symbol. -/
theorem elements_flatMap (hBlank : Encodes enc blank codeBlank) (hSep : Encodes enc sep codeSep)
    (hSingle : ∀ c, sep c = true → ∃ b, enc c = [b]) (s : List α) :
    elements codeSep codeBlank (s.flatMap enc) =
      (elements sep blank s).map (·.flatMap enc) := by
  induction hLength : s.length using Nat.strong_induction_on generalizing s with
  | _ length ih =>
      have hCodeFree : ∀ left : List α, (∀ c ∈ left, sep c = false) →
          ∀ b ∈ left.flatMap enc, codeSep b = false := by
        intro left hLeft b hb
        obtain ⟨c, hc, hCode⟩ := List.mem_flatMap.mp hb
        exact (hSep.uniform c b hCode).trans (hLeft c hc)
      rcases free_or_cut sep s with hFree | ⟨left, c, right, rfl, hCut, hLeft⟩
      · rw [elements_of_free hFree, elements_of_free (hCodeFree s hFree),
          trimBlank_flatMap hBlank, List.map_singleton]
      · obtain ⟨b, hCode⟩ := hSingle c hCut
        have hCodeCut : codeSep b = true :=
          (hSep.uniform c b (hCode ▸ List.mem_singleton_self b)).trans hCut
        rw [List.length_append, List.length_cons] at hLength
        rw [List.flatMap_append, List.flatMap_cons, hCode, List.singleton_append,
          elements_append_cons _ _ hCodeCut, elements_append_cons _ _ hCut, List.map_append,
          ih right.length (by omega) right rfl, elements_of_free hLeft,
          elements_of_free (hCodeFree left hLeft), trimBlank_flatMap hBlank, List.map_singleton]

end Encoded

end Rust
