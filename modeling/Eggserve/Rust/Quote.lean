import Eggserve.Rust.Split

/-! Quoted strings in text. A quoted string opens at any quote and closes at the
next one that is not escaped. -/
namespace Rust

inductive QuoteState where
  | outside
  | inside
  | escaped
  deriving DecidableEq, Repr

namespace QuoteState

def next : QuoteState → Char → QuoteState
  | outside, c => if c = '"' then inside else outside
  | inside, c => if c = '\\' then escaped else if c = '"' then outside else inside
  | escaped, _ => inside

def after (state : QuoteState) (s : Str) : QuoteState := s.foldl next state

@[simp]
theorem after_nil (state : QuoteState) : state.after [] = state := rfl

@[simp]
theorem after_cons (state : QuoteState) (c : Char) (rest : Str) :
    state.after (c :: rest) = (state.next c).after rest := rfl

theorem after_append (state : QuoteState) (s t : Str) :
    state.after (s ++ t) = (state.after s).after t := List.foldl_append

theorem next_outside {c : Char} (h : c ≠ '"') : outside.next c = outside := if_neg h

/-- Only a quote opens a quoted string. -/
theorem after_outside {s : Str} (h : '"' ∉ s) : outside.after s = outside := by
  induction s with
  | nil => rfl
  | cons c rest ih =>
      rw [List.mem_cons, not_or] at h
      rw [after_cons, next_outside (Ne.symm h.1), ih h.2]

end QuoteState

/-- The pieces between the separators that stand outside quoted strings. -/
def quoteCut (p : Char → Bool) : QuoteState → Str → List Str
  | _, [] => [[]]
  | state, c :: rest =>
      if state = .outside ∧ p c = true then [] :: quoteCut p (state.next c) rest
      else (quoteCut p (state.next c) rest).modifyHead (c :: ·)

/-- No separator stands in a quoted string. -/
def SeparatorsOutside (p : Char → Bool) : QuoteState → Str → Prop
  | _, [] => True
  | state, c :: rest => (p c = true → state = .outside) ∧ SeparatorsOutside p (state.next c) rest

theorem quoteCut_ne_nil (p : Char → Bool) (state : QuoteState) (s : Str) :
    quoteCut p state s ≠ [] := by
  induction s generalizing state with
  | nil => simp [quoteCut]
  | cons c rest ih =>
      rw [quoteCut]
      split_ifs
      · simp
      · rw [ne_eq, List.modifyHead_eq_nil_iff]
        exact ih _

/-- Then both cuts are the same. -/
theorem quoteCut_eq_splitOnP {p : Char → Bool} {state : QuoteState} {s : Str}
    (h : SeparatorsOutside p state s) : quoteCut p state s = s.splitOnP p := by
  induction s generalizing state with
  | nil => rfl
  | cons c rest ih =>
      rw [quoteCut, List.splitOnP_cons_eq_if_modifyHead, ih h.2]
      by_cases hc : p c = true
      · rw [if_pos ⟨h.1 hc, hc⟩, if_pos hc]
      · rw [if_neg fun hBoth => hc hBoth.2, if_neg hc]

/-- A separator in a quoted string stays in a piece. -/
theorem separatorsOutside_of_free_pieces {p : Char → Bool} {state : QuoteState} {s : Str}
    (h : ∀ piece ∈ quoteCut p state s, ∀ c ∈ piece, p c = false) :
    SeparatorsOutside p state s := by
  induction s generalizing state with
  | nil => trivial
  | cons c rest ih =>
      rw [quoteCut] at h
      split_ifs at h with hCut
      · exact ⟨fun _ => hCut.1, ih fun piece hPiece => h piece (List.mem_cons_of_mem _ hPiece)⟩
      · obtain ⟨first, others, hPieces⟩ :=
          List.exists_cons_of_ne_nil (quoteCut_ne_nil p (state.next c) rest)
        rw [hPieces, List.modifyHead_cons, List.forall_mem_cons] at h
        obtain ⟨hFirst, hOthers⟩ := h
        have hc := hFirst c List.mem_cons_self
        refine ⟨fun hSep => absurd hSep (by simp [hc]), ih ?_⟩
        rw [hPieces, List.forall_mem_cons]
        exact ⟨fun d hd => hFirst d (List.mem_cons_of_mem _ hd), hOthers⟩

theorem separatorsOutside_append {p : Char → Bool} {state : QuoteState} {s t : Str} :
    SeparatorsOutside p state (s ++ t) ↔
      SeparatorsOutside p state s ∧ SeparatorsOutside p (state.after s) t := by
  induction s generalizing state with
  | nil => simp [SeparatorsOutside]
  | cons c rest ih =>
      rw [List.cons_append, SeparatorsOutside, SeparatorsOutside, ih, and_assoc]
      rfl

theorem separatorsOutside_of_free {p : Char → Bool} {state : QuoteState} {s : Str}
    (h : ∀ c ∈ s, p c = false) : SeparatorsOutside p state s := by
  induction s generalizing state with
  | nil => trivial
  | cons c rest ih =>
      rw [List.forall_mem_cons] at h
      exact ⟨fun hSep => absurd hSep (by simp [h.1]), ih h.2⟩

theorem separatorsOutside_or {p q : Char → Bool} {state : QuoteState} {s : Str} :
    SeparatorsOutside (fun c => p c || q c) state s ↔
      SeparatorsOutside p state s ∧ SeparatorsOutside q state s := by
  induction s generalizing state with
  | nil => simp [SeparatorsOutside]
  | cons c rest ih =>
      simp only [SeparatorsOutside, ih, Bool.or_eq_true]
      tauto

section Pieces

variable {p : Char → Bool} (hp : ∀ c, p c = true → c ≠ '"')
include hp

/-- Behind a separator that stands outside, reading starts again. -/
theorem separatorsOutside_cut {q : Char → Bool} {first : Str} {c : Char} {rest : Str}
    (hSep : p c = true) (hFirst : QuoteState.outside.after first = .outside) :
    SeparatorsOutside q .outside (first ++ c :: rest) ↔
      SeparatorsOutside q .outside first ∧ SeparatorsOutside q .outside rest := by
  rw [separatorsOutside_append, hFirst, SeparatorsOutside, QuoteState.next_outside (hp c hSep)]
  simp

/-- The separators stand outside if no piece but the last leaves a quoted string
open. -/
theorem separatorsOutside_iff_pieces (s : Str) :
    SeparatorsOutside p .outside s ↔
      ∀ piece ∈ (s.splitOnP p).dropLast, QuoteState.outside.after piece = .outside := by
  induction s using split_induction (p := p) with
  | hFree s hFree =>
      rw [List.splitOnP_eq_singleton hFree]
      simpa using separatorsOutside_of_free hFree
  | hCut first c rest hFree hSep ih =>
      have hRest := List.splitOnP_ne_nil p rest
      rw [List.splitOnP_append_cons_of_forall_mem hFree c hSep, List.dropLast_cons_of_ne_nil hRest,
        List.forall_mem_cons, ← ih]
      constructor
      · intro h
        have hFirst := (separatorsOutside_append.mp h).2.1 hSep
        exact ⟨hFirst, ((separatorsOutside_cut hp hSep hFirst).mp h).2⟩
      · rintro ⟨hFirst, hOthers⟩
        exact (separatorsOutside_cut hp hSep hFirst).mpr ⟨separatorsOutside_of_free hFree, hOthers⟩

/-- Where one kind of separator stands outside, another one does if it does so in
each piece. -/
theorem separatorsOutside_splitOnP {q : Char → Bool} (s : Str) (h : SeparatorsOutside p .outside s) :
    SeparatorsOutside q .outside s ↔
      ∀ piece ∈ s.splitOnP p, SeparatorsOutside q .outside piece := by
  induction s using split_induction (p := p) with
  | hFree s hFree => rw [List.splitOnP_eq_singleton hFree, List.forall_mem_singleton]
  | hCut first c rest hFree hSep ih =>
      have hFirst := (separatorsOutside_append.mp h).2.1 hSep
      have hRest := ((separatorsOutside_cut hp hSep hFirst).mp h).2
      rw [List.splitOnP_append_cons_of_forall_mem hFree c hSep, List.forall_mem_cons,
        separatorsOutside_cut hp hSep hFirst, ih hRest]

end Pieces

/-- Whitespace has no part in it. -/
theorem separatorsOutside_trim {p : Char → Bool} (hp : ∀ c, isWhitespace c = true → p c = false)
    (s : Str) : SeparatorsOutside p .outside (trim s) ↔ SeparatorsOutside p .outside s := by
  obtain ⟨front, back, hSplit, hFront, hBack⟩ := exists_blank_trim s
  have hQuote : '"' ∉ front := by
    intro hMem
    exact absurd (hFront _ hMem) (by decide)
  have hFree : SeparatorsOutside p .outside front :=
    separatorsOutside_of_free fun c hc => hp c (hFront c hc)
  have hBlank : SeparatorsOutside p (QuoteState.outside.after (trim s)) back :=
    separatorsOutside_of_free fun c hc => hp c (hBack c hc)
  conv_rhs => rw [hSplit, separatorsOutside_append, separatorsOutside_append,
    QuoteState.after_outside hQuote]
  simp [hFree, hBlank]

end Rust
