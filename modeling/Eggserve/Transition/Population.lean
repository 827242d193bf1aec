import Mathlib.Data.List.Basic

/-! Populations of objects that are numbered by the order of their creation.
What a population sums up to changes with one member at a time. -/
namespace Eggserve.Transition

universe u

variable {α : Type u} {members : List α} {i : Nat} {old new : α}

/-- A count before and after one member has changed. -/
theorem countP_set_add (hOld : members[i]? = some old) (p : α → Bool) :
    (members.set i new).countP p + (p old).toNat = members.countP p + (p new).toNat := by
  obtain ⟨hIndex, hGet⟩ := List.getElem?_eq_some_iff.mp hOld
  have hBound := List.boole_getElem_le_countP (p := p) hIndex
  rw [hGet] at hBound
  rw [List.countP_set hIndex, hGet]
  cases hCounted : p old with
  | false => cases p new <;> simp
  | true =>
      rw [hCounted, if_pos rfl] at hBound
      cases p new <;> simp <;> omega

/-- Some member is counted. -/
theorem countP_pos_of_getElem? {p : α → Bool} (hOld : members[i]? = some old)
    (hCounted : p old = true) : 0 < members.countP p :=
  List.countP_pos_iff.mpr ⟨old, List.mem_of_getElem? hOld, hCounted⟩

/-- What holds of all members, after one has changed. -/
theorem forall_mem_set {p : α → Prop} (hAll : ∀ member ∈ members, p member) (hNew : p new) :
    ∀ member ∈ members.set i new, p member := by
  intro member hMember
  rcases List.mem_or_eq_of_mem_set hMember with hMember | rfl
  · exact hAll member hMember
  · exact hNew

end Eggserve.Transition
