import Mathlib.Data.List.Basic

/-! Lists of which the first of all equal elements stay. -/
namespace Rust

variable {α β : Type} {r : α → α → Bool}

/-- The rest of the list is taken without what equals its head. -/
theorem eraseDupsBy_induction {motive : List α → Prop} (hNil : motive [])
    (hCons : ∀ a as, motive (as.filter fun b => r b a = false) → motive (a :: as))
    (as : List α) : motive as := by
  induction hLength : as.length using Nat.strongRecOn generalizing as with
  | ind n ih =>
      cases as with
      | nil => exact hNil
      | cons a as =>
          refine hCons a as (ih _ ?_ _ rfl)
          have hFilter := as.length_filter_le fun b => r b a = false
          rw [List.length_cons] at hLength
          omega

theorem eraseDupsBy_sublist (as : List α) : (as.eraseDupsBy r).Sublist as := by
  induction as using @eraseDupsBy_induction α r with
  | hNil => exact List.Sublist.refl _
  | hCons a as ih =>
      rw [List.eraseDupsBy_cons]
      exact (ih.trans List.filter_sublist).cons_cons a

theorem pairwise_eraseDupsBy (as : List α) :
    (as.eraseDupsBy r).Pairwise fun a b => r b a = false := by
  induction as using @eraseDupsBy_induction α r with
  | hNil => exact List.Pairwise.nil
  | hCons a as ih =>
      rw [List.eraseDupsBy_cons]
      refine List.Pairwise.cons (fun b hb => ?_) ih
      simpa using (List.mem_filter.mp ((eraseDupsBy_sublist _).subset hb)).2

/-- Nothing goes where all elements differ. -/
theorem eraseDupsBy_of_pairwise {as : List α} (h : as.Pairwise fun a b => r b a = false) :
    as.eraseDupsBy r = as := by
  induction h with
  | nil => rfl
  | cons hHead _ ih =>
      rw [List.eraseDupsBy_cons, List.filter_eq_self.mpr (by simpa using hHead), ih]

theorem eraseDupsBy_map (f : β → α) (bs : List β) :
    (bs.map f).eraseDupsBy r = (bs.eraseDupsBy fun a b => r (f a) (f b)).map f := by
  induction bs using @eraseDupsBy_induction β fun a b => r (f a) (f b) with
  | hNil => rfl
  | hCons b bs ih =>
      rw [List.map_cons, List.eraseDupsBy_cons, List.eraseDupsBy_cons, List.map_cons, ← ih,
        List.filter_map]
      rfl

/-- A loop that remembers what it has seen: the head goes, or what is left of the others is
what it would be had the head been seen. -/
theorem eraseDupsBy_filter_cons (seen : α → Bool) (a : α) (as : List α) :
    ((a :: as).filter fun b => seen b = false).eraseDupsBy r =
      if seen a then (as.filter fun b => seen b = false).eraseDupsBy r
      else a :: (as.filter fun b => (seen b || r b a) = false).eraseDupsBy r := by
  cases hSeen : seen a with
  | true => rw [List.filter_cons_of_neg (by simp [hSeen]), if_pos rfl]
  | false =>
      have hBoth : (fun b => decide (r b a = false) && decide (seen b = false)) =
          fun b => decide ((seen b || r b a) = false) := by
        funext b
        cases seen b <;> cases r b a <;> rfl
      rw [List.filter_cons_of_pos (by simp [hSeen]), List.eraseDupsBy_cons, List.filter_filter, hBoth]
      rfl

end Rust
