import Mathlib.Data.List.Basic
import Mathlib.Data.List.Forall2

/-! Early returns of fallible Rust code. `Except ε α` models `Result<α, ε>`.
A guard `if c { return Err(e); }` is a statement of its own, so a chain of
guards is inverted once and not case by case in every caller. -/
namespace Rust

variable {ε α β : Type}

/-- The statement `if c { return Err(e); }`. -/
def failIf (c : Prop) [Decidable c] (e : ε) : Except ε Unit :=
  if c then .error e else .ok ()

@[simp] theorem failIf_eq_ok {c : Prop} [Decidable c] {e : ε} {u : Unit} :
    failIf c e = .ok u ↔ ¬c := by
  by_cases h : c <;> simp [failIf, h]

/-- `Option::ok_or`. -/
def okOr (x : Option α) (e : ε) : Except ε α :=
  match x with
  | some a => .ok a
  | none => .error e

/-- Peel the `?` operator: a successful computation had a successful first part. -/
theorem bind_eq_ok {x : Except ε α} {f : α → Except ε β} {b : β} :
    (x >>= f) = .ok b ↔ ∃ a, x = .ok a ∧ f a = .ok b := by
  cases x <;> simp [bind, Except.bind]

/-- A check has no value to pass on, so a chain of checks is a conjunction. -/
theorem check_bind_eq_ok {x : Except ε Unit} {f : Unit → Except ε β} {b : β} :
    (x >>= f) = .ok b ↔ x = .ok () ∧ f () = .ok b := by
  rw [bind_eq_ok]
  exact ⟨fun ⟨_, hx, hf⟩ => ⟨hx, hf⟩, fun ⟨hx, hf⟩ => ⟨(), hx, hf⟩⟩

/-- A guard fails with its own error. -/
theorem failIf_eq_error {c : Prop} [Decidable c] {e e' : ε} :
    failIf c e = .error e' ↔ c ∧ e = e' := by
  by_cases h : c <;> simp [failIf, h]

theorem failIf_congr {c d : Prop} [Decidable c] [Decidable d] {e : ε} (h : c ↔ d) :
    failIf c e = failIf d e := by
  by_cases hc : c
  · rw [failIf, failIf, if_pos hc, if_pos (h.mp hc)]
  · rw [failIf, failIf, if_neg hc, if_neg (mt h.mpr hc)]

theorem okOr_eq_ok {x : Option α} {e : ε} {a : α} : okOr x e = .ok a ↔ x = some a := by
  cases x <;> simp [okOr]

/-- A failed computation failed in its first part, or after it. -/
theorem bind_eq_error {x : Except ε α} {f : α → Except ε β} {e : ε} :
    (x >>= f) = .error e ↔ x = .error e ∨ ∃ a, x = .ok a ∧ f a = .error e := by
  cases x <;> simp [bind, Except.bind]

theorem check_bind_eq_error {x : Except ε Unit} {f : Unit → Except ε β} {e : ε} :
    (x >>= f) = .error e ↔ x = .error e ∨ x = .ok () ∧ f () = .error e := by
  rw [bind_eq_error]
  exact or_congr_right ⟨fun ⟨_, hx⟩ => hx, fun hx => ⟨(), hx⟩⟩

theorem mapError_eq_ok {ε' : Type} {x : Except ε α} {f : ε → ε'} {a : α} :
    x.mapError f = .ok a ↔ x = .ok a := by
  cases x <;> simp [Except.mapError]

theorem mapError_eq_error {ε' : Type} {x : Except ε α} {f : ε → ε'} {e : ε'} :
    x.mapError f = .error e ↔ ∃ cause, x = .error cause ∧ f cause = e := by
  cases x <;> simp [Except.mapError]

/-- Mapping the value of a result leaves its error alone. -/
theorem map_eq_error {x : Except ε α} {f : α → β} {e : ε} : x.map f = .error e ↔ x = .error e := by
  cases x <;> simp [Except.map]

/-- A `for` loop that only checks succeeds exactly when every check does. -/
theorem forM_eq_ok {f : α → Except ε Unit} {items : List α} :
    forM items f = .ok () ↔ ∀ item ∈ items, f item = .ok () := by
  induction items with
  | nil => simp [pure, Except.pure]
  | cons head tail ih =>
      rw [List.forM_cons, check_bind_eq_ok, List.forall_mem_cons, ih]

/-- A loop that collects results succeeds with one result for each item. -/
theorem mapM_eq_ok {f : α → Except ε β} {items : List α} {results : List β} :
    items.mapM f = .ok results ↔ List.Forall₂ (fun item result => f item = .ok result) items results := by
  induction items generalizing results with
  | nil =>
      simp only [List.mapM_nil, pure, Except.pure, Except.ok.injEq, List.forall₂_nil_left_iff]
      exact eq_comm
  | cons item rest ih =>
      rw [List.mapM_cons, bind_eq_ok]
      constructor
      · rintro ⟨result, hItem, hRest⟩
        obtain ⟨others, hOthers, hPure⟩ := bind_eq_ok.mp hRest
        cases hPure
        exact List.Forall₂.cons hItem (ih.mp hOthers)
      · intro h
        cases h with
        | cons hItem hRest =>
            exact ⟨_, hItem, bind_eq_ok.mpr ⟨_, ih.mpr hRest, rfl⟩⟩

/-- Errors may be forgotten at each item or at the end. -/
theorem mapM_toOption {f : α → Except ε β} {g : α → Option β} {items : List α}
    (h : ∀ item ∈ items, g item = (f item).toOption) : items.mapM g = (items.mapM f).toOption := by
  induction items with
  | nil => rfl
  | cons item items ih =>
      rw [List.mapM_cons, List.mapM_cons, h item List.mem_cons_self,
        ih fun other hOther => h other (List.mem_cons_of_mem _ hOther)]
      cases f item with
      | error e => rfl
      | ok result => cases items.mapM f <;> rfl

theorem mapM_mem {f : α → Except ε β} {items : List α} {results : List β}
    (h : items.mapM f = .ok results) : ∀ item ∈ items, ∃ result ∈ results, f item = .ok result := by
  rw [mapM_eq_ok] at h
  induction h with
  | nil => simp
  | cons hItem _ ih =>
      refine List.forall_mem_cons.mpr ⟨⟨_, List.mem_cons_self, hItem⟩, fun item hMem => ?_⟩
      obtain ⟨result, hResult, hOk⟩ := ih item hMem
      exact ⟨result, List.mem_cons_of_mem _ hResult, hOk⟩

theorem mapM_item {f : α → Except ε β} {items : List α} {results : List β}
    (h : items.mapM f = .ok results) : ∀ item ∈ items, ∃ result, f item = .ok result := by
  intro item hMem
  obtain ⟨result, -, hOk⟩ := mapM_mem h item hMem
  exact ⟨result, hOk⟩

theorem map_eq_ok {x : Except ε α} {f : α → β} {b : β} :
    x.map f = .ok b ↔ ∃ a, x = .ok a ∧ f a = b := by
  cases x <;> simp [Except.map]

/-- A property that every turn of a loop keeps holds at its end. -/
theorem foldlM_invariant {f : β → α → Except ε β} {P : β → Prop} {items : List α} {first last : β}
    (hStep : ∀ item ∈ items, ∀ before after, P before → f before item = .ok after → P after)
    (hFirst : P first) (h : items.foldlM f first = .ok last) : P last := by
  induction items generalizing first with
  | nil =>
      cases h
      exact hFirst
  | cons item rest ih =>
      rw [List.foldlM_cons] at h
      obtain ⟨next, hNext, hRest⟩ := bind_eq_ok.mp h
      have hKept := hStep item List.mem_cons_self first next hFirst hNext
      exact ih (fun other hOther => hStep other (List.mem_cons_of_mem _ hOther)) hKept hRest

/-- Every turn of a loop that ends well went well. -/
theorem foldlM_turns {f : β → α → Except ε β} {items : List α} {first last : β}
    (h : items.foldlM f first = .ok last) :
    ∀ item ∈ items, ∃ before after, f before item = .ok after := by
  induction items generalizing first with
  | nil => simp
  | cons item rest ih =>
      rw [List.foldlM_cons] at h
      obtain ⟨next, hNext, hRest⟩ := bind_eq_ok.mp h
      exact List.forall_mem_cons.mpr ⟨⟨first, next, hNext⟩, ih hRest⟩

/-! What every error of a computation is. -/

section FailsWith

variable {P : ε → Prop}

end FailsWith

end Rust
