import Mathlib.Data.List.Basic

/-! Runs of steps that may fail, of which some can be exchanged. Which step a failed run
ends at is not looked at. -/
namespace Eggserve.Transition

variable {σ α κ : Type} {step : σ → α → Option σ}

/-- The two steps do the same in either order, or the run fails in either order. -/
def Commutes (step : σ → α → Option σ) (a b : α) : Prop :=
  ∀ s, (step s a).bind (step · b) = (step s b).bind (step · a)

theorem Commutes.symm {a b : α} (h : Commutes step a b) : Commutes step b a := by
  intro s
  exact (h s).symm

/-- A step goes to the front past the steps that it can be exchanged with. -/
theorem foldlM_move_front {a : α} {front : List α} (h : ∀ b ∈ front, Commutes step a b)
    (back : List α) (s : σ) :
    (front ++ a :: back).foldlM step s = (a :: (front ++ back)).foldlM step s := by
  induction front generalizing s with
  | nil => rfl
  | cons b front ih =>
      have hRest (t : σ) := ih (fun c hc => h c (List.mem_cons_of_mem b hc)) t
      have hSwap := h b (List.mem_cons_self ..) s
      calc (b :: front ++ a :: back).foldlM step s
          = (step s b).bind fun t => (front ++ a :: back).foldlM step t := rfl
        _ = (step s b).bind fun t => (step t a).bind fun u => (front ++ back).foldlM step u := by
            congr 1
            funext t
            exact hRest t
        _ = ((step s b).bind (step · a)).bind fun u => (front ++ back).foldlM step u :=
            (Option.bind_assoc ..).symm
        _ = ((step s a).bind (step · b)).bind fun u => (front ++ back).foldlM step u := by
            rw [hSwap]
        _ = (a :: (b :: front ++ back)).foldlM step s := Option.bind_assoc ..

variable {kind : α → Option κ}

/-- The first element of its kind has none of its kind in front of it. -/
theorem exists_front [DecidableEq κ] {a : α} {rest other : List α} (hPerm : (a :: rest).Perm other)
    (hKinds : ∀ k, (a :: rest).filter (kind · = some k) = other.filter (kind · = some k)) :
    ∃ front back, other = front ++ a :: back ∧ ∀ b ∈ front, kind a = none ∨ kind a ≠ kind b := by
  cases hKind : kind a with
  | none =>
      obtain ⟨front, back, rfl⟩ := List.append_of_mem (hPerm.mem_iff.mp (List.mem_cons_self ..))
      exact ⟨front, back, rfl, fun _ _ => .inl rfl⟩
  | some k =>
      have hFilter := hKinds k
      rw [List.filter_cons_of_pos (by simpa using hKind)] at hFilter
      obtain ⟨front, back, hSplit, hFront, -⟩ := List.filter_eq_cons_iff.mp hFilter.symm
      refine ⟨front, back, hSplit, fun b hb => .inr ?_⟩
      intro hSame
      exact hFront b hb (by simpa using hSame.symm)

/-- Steps of different kinds, and steps of no kind, can be exchanged. Then the order inside
each kind decides all. -/
theorem foldlM_reorder [DecidableEq κ]
    (h : ∀ a b, kind a = none ∨ kind a ≠ kind b → Commutes step a b) {items other : List α}
    (hPerm : items.Perm other)
    (hKinds : ∀ k, items.filter (kind · = some k) = other.filter (kind · = some k)) (s : σ) :
    items.foldlM step s = other.foldlM step s := by
  induction items generalizing other s with
  | nil => rw [hPerm.nil_eq]
  | cons a rest ih =>
      obtain ⟨front, back, rfl, hFront⟩ := exists_front hPerm hKinds
      rw [foldlM_move_front (fun b hb => h a b (hFront b hb)), List.foldlM_cons, List.foldlM_cons]
      have hRest : rest.Perm (front ++ back) :=
        (hPerm.trans List.perm_middle).cons_inv
      have hFilters (k : κ) :
          rest.filter (kind · = some k) = (front ++ back).filter (kind · = some k) := by
        have hFilter := hKinds k
        by_cases hKind : kind a = some k
        · have hNone : front.filter (kind · = some k) = [] := by
            refine List.filter_eq_nil_iff.mpr fun b hb hSame => ?_
            rcases hFront b hb with hFree | hOther
            · rw [hFree] at hKind
              cases hKind
            · exact hOther (hKind.trans (of_decide_eq_true hSame).symm)
          rw [List.filter_append, hNone]
          rw [List.filter_append, hNone, List.filter_cons_of_pos (by simpa using hKind),
            List.filter_cons_of_pos (by simpa using hKind)] at hFilter
          exact (List.cons.inj hFilter).2
        · rwa [List.filter_cons_of_neg (by simpa using hKind), List.filter_append,
            List.filter_cons_of_neg (by simpa using hKind), ← List.filter_append] at hFilter
      congr 1
      funext t
      exact ih hRest hFilters t

end Eggserve.Transition
