import Eggserve.Transition.Commuting
import Mathlib.Data.List.Nodup

/-! Runs of steps that take resources for good. A run goes through when nobody needs what
another one has taken. -/
namespace Eggserve.Transition

variable {σ α ρ κ : Type}

/-- A step reads its argument, and takes what it needs if all of that is free. -/
structure Taking (step : σ → α → Option σ) (taken : σ → ρ → Prop) (needs : α → List ρ)
    (readable : α → Prop) (write : α → σ → σ) : Prop where
  once : ∀ a, (needs a).Nodup
  step_eq_some : ∀ s a t, step s a = some t ↔
    readable a ∧ (∀ r ∈ needs a, ¬taken s r) ∧ write a s = t
  taken_write : ∀ s a r, readable a → (taken (write a s) r ↔ taken s r ∨ r ∈ needs a)

namespace Taking

variable {step : σ → α → Option σ} {taken : σ → ρ → Prop} {needs : α → List ρ}
  {readable : α → Prop} {write : α → σ → σ} (h : Taking step taken needs readable write)
include h

theorem taken_foldl {items : List α} (hRead : ∀ a ∈ items, readable a) (s : σ) (r : ρ) :
    taken (items.foldl (fun s a => write a s) s) r ↔ taken s r ∨ r ∈ items.flatMap needs := by
  induction items generalizing s with
  | nil => simp
  | cons a items ih =>
      rw [List.foldl_cons, ih (fun b hb => hRead b (List.mem_cons_of_mem a hb)),
        h.taken_write s a r (hRead a (List.mem_cons_self ..)), List.flatMap_cons,
        List.mem_append, or_assoc]

theorem foldlM_eq_some {items : List α} {s t : σ} :
    items.foldlM step s = some t ↔
      (∀ a ∈ items, readable a) ∧ (items.flatMap needs).Nodup ∧
        (∀ r ∈ items.flatMap needs, ¬taken s r) ∧
        items.foldl (fun s a => write a s) s = t := by
  induction items generalizing s with
  | nil => simp
  | cons a items ih =>
      rw [List.foldlM_cons, List.forall_mem_cons, List.flatMap_cons, List.nodup_append',
        List.foldl_cons]
      show (step s a).bind _ = some t ↔ _
      rw [Option.bind_eq_some_iff]
      constructor
      · rintro ⟨next, hStep, hRun⟩
        obtain ⟨hRead, hFree, rfl⟩ := (h.step_eq_some s a next).mp hStep
        obtain ⟨hReads, hNodup, hRest, hEnd⟩ := ih.mp hRun
        have hTaken (r : ρ) (hr : r ∈ items.flatMap needs) : ¬(taken s r ∨ r ∈ needs a) :=
          fun hOr => hRest r hr ((h.taken_write s a r hRead).mpr hOr)
        refine ⟨⟨hRead, hReads⟩, ⟨h.once a, hNodup, ?_⟩, ?_, hEnd⟩
        · exact fun r hFirst hr => hTaken r hr (.inr hFirst)
        · intro r hr
          rcases List.mem_append.mp hr with hFirst | hr
          · exact hFree r hFirst
          · exact fun hOld => hTaken r hr (.inl hOld)
      · rintro ⟨⟨hRead, hReads⟩, ⟨-, hNodup, hDisjoint⟩, hFree, hEnd⟩
        refine ⟨write a s, (h.step_eq_some s a _).mpr
          ⟨hRead, fun r hr => hFree r (List.mem_append_left _ hr), rfl⟩,
          ih.mpr ⟨hReads, hNodup, fun r hr hTaken => ?_, hEnd⟩⟩
        rcases (h.taken_write s a r hRead).mp hTaken with hOld | hFirst
        · exact hFree r (List.mem_append_right _ hr) hOld
        · exact hDisjoint hFirst hr

/-- Two steps that need nothing in common can be exchanged if their writes can. -/
theorem commutes {a b : α}
    (hWrite : List.Disjoint (needs a) (needs b) → ∀ s, write b (write a s) = write a (write b s)) :
    Commutes step a b := by
  have hBoth (a b : α) (s t : σ) : (step s a).bind (step · b) = some t ↔
      readable a ∧ readable b ∧ List.Disjoint (needs a) (needs b) ∧
        (∀ r, r ∈ needs a ∨ r ∈ needs b → ¬taken s r) ∧ write b (write a s) = t := by
    rw [Option.bind_eq_some_iff]
    constructor
    · rintro ⟨next, hFirst, hSecond⟩
      obtain ⟨hReadA, hFreeA, rfl⟩ := (h.step_eq_some s a next).mp hFirst
      obtain ⟨hReadB, hFreeB, hEnd⟩ := (h.step_eq_some _ b t).mp hSecond
      have hTaken (r : ρ) (hr : r ∈ needs b) : ¬(taken s r ∨ r ∈ needs a) :=
        fun hOr => hFreeB r hr ((h.taken_write s a r hReadA).mpr hOr)
      refine ⟨hReadA, hReadB, fun r hA hB => hTaken r hB (.inr hA), ?_, hEnd⟩
      rintro r (hA | hB)
      · exact hFreeA r hA
      · exact fun hOld => hTaken r hB (.inl hOld)
    · rintro ⟨hReadA, hReadB, hDisjoint, hFree, hEnd⟩
      refine ⟨write a s, (h.step_eq_some s a _).mpr
        ⟨hReadA, fun r hr => hFree r (.inl hr), rfl⟩, (h.step_eq_some _ b t).mpr
        ⟨hReadB, fun r hr hTaken => ?_, hEnd⟩⟩
      rcases (h.taken_write s a r hReadA).mp hTaken with hOld | hA
      · exact hFree r (.inr hr) hOld
      · exact hDisjoint hA hr
  intro s
  apply Option.ext
  intro t
  rw [hBoth a b, hBoth b a]
  constructor
  · rintro ⟨hA, hB, hDisjoint, hFree, hEnd⟩
    exact ⟨hB, hA, (List.disjoint_symm hDisjoint), fun r hr => hFree r hr.symm,
      (hWrite hDisjoint s) ▸ hEnd⟩
  · rintro ⟨hB, hA, hDisjoint, hFree, hEnd⟩
    exact ⟨hA, hB, (List.disjoint_symm hDisjoint), fun r hr => hFree r hr.symm,
      (hWrite (List.disjoint_symm hDisjoint) s).symm ▸ hEnd⟩

end Taking

end Eggserve.Transition
