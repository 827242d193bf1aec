import Eggserve.Rust.Integer
import Eggserve.Rust.Result

/-! Code that may return an error and may panic. Indexing and slicing are partial here, so
that a bound that does not hold can be seen. -/
namespace Rust

variable {ε α β : Type}

/-- `none` is the panic. -/
abbrev Panicking (ε α : Type) := ExceptT ε MayPanic α

namespace Panicking

/-- A part that cannot panic. -/
def ofExcept (x : Except ε α) : Panicking ε α := ExceptT.mk (some x)

/-- A part that cannot fail. -/
def ofMayPanic (x : MayPanic α) : Panicking ε α := ExceptT.lift x

/-- `xs[i]`. -/
def index (xs : List α) (i : Nat) : Panicking ε α := ofMayPanic xs[i]?

/-- `xs[start..stop]`. -/
def subslice (xs : List α) (start stop : Nat) : Panicking ε (List α) :=
  ofMayPanic (if start ≤ stop ∧ stop ≤ xs.length then some ((xs.take stop).drop start) else none)

theorem ofMayPanic_some_bind (a : α) (f : α → Panicking ε β) : (ofMayPanic (some a) >>= f) = f a :=
  rfl

theorem ofExcept_ok_bind (a : α) (f : α → Panicking ε β) : (ofExcept (.ok a) >>= f) = f a := rfl

theorem ofExcept_eq_pure {x : Except ε α} {a : α} : ofExcept x = pure a ↔ x = .ok a :=
  ⟨fun h => Option.some.inj h, fun h => congrArg some h⟩

theorem index_bind {xs : List α} {i : Nat} (h : i < xs.length) (f : α → Panicking ε β) :
    (index xs i >>= f) = f xs[i] := by
  rw [index, List.getElem?_eq_getElem h, ofMayPanic_some_bind]

theorem subslice_bind {xs : List α} {start stop : Nat} (hOrder : start ≤ stop)
    (hStop : stop ≤ xs.length) (f : List α → Panicking ε β) :
    (subslice xs start stop >>= f) = f ((xs.take stop).drop start) := by
  rw [subslice, if_pos ⟨hOrder, hStop⟩, ofMayPanic_some_bind]

/-- A loop whose turns all have a result. -/
theorem mapM_eq_pure {f : α → Panicking ε β} {g : α → β} {xs : List α}
    (h : ∀ x ∈ xs, f x = pure (g x)) : xs.mapM f = pure (xs.map g) := by
  induction xs with
  | nil => rfl
  | cons x xs ih =>
      rw [List.mapM_cons, h x List.mem_cons_self, pure_bind,
        ih fun y hy => h y (List.mem_cons_of_mem x hy), pure_bind, List.map_cons]

/-- A loop whose turns each have a result of one kind. -/
theorem mapM_forall {p : β → Prop} {f : α → MayPanic β} (xs : List α)
    (h : ∀ x ∈ xs, ∃ y, f x = some y ∧ p y) :
    ∃ ys, xs.mapM f = some ys ∧ ys.length = xs.length ∧ ∀ y ∈ ys, p y := by
  induction xs with
  | nil => exact ⟨[], rfl, rfl, by simp⟩
  | cons x xs ih =>
      obtain ⟨y, hHead, hKind⟩ := h x List.mem_cons_self
      obtain ⟨ys, hRest, hLength, hKinds⟩ := ih fun z hz => h z (List.mem_cons_of_mem x hz)
      refine ⟨y :: ys, ?_, congrArg (· + 1) hLength, List.forall_mem_cons.mpr ⟨hKind, hKinds⟩⟩
      rw [List.mapM_cons, hHead, hRest]
      rfl

/-- Code behind a part that cannot panic does not panic if it does not for any result of
that part. -/
theorem bind_ofExcept {x : Except ε α} {f : α → Panicking ε β} {g : α → Except ε β}
    (h : ∀ a, x = .ok a → f a = ofExcept (g a)) : (ofExcept x >>= f) = ofExcept (x >>= g) := by
  cases x with
  | error e => rfl
  | ok a => exact h a rfl

end Panicking

end Rust
