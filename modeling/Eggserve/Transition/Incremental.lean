import Mathlib.Data.List.Infix

/-! Decisions on a stream that arrives in parts. A reader keeps what it has read
in a buffer and decides as soon as the buffer allows it; when more input never
changes a decision, the decision is one on the stream and not on its parts. -/
namespace Incremental

variable {α β : Type*} {verdict : List α → Option β}

/-- More input does not change a verdict. -/
def Stable (verdict : List α → Option β) : Prop :=
  ∀ buffer more v, verdict buffer = some v → verdict (buffer ++ more) = some v

/-- Read parts until there is a verdict: the verdict, the buffer it was given
on and the parts that are left. -/
def scan (verdict : List α → Option β) : List α → List (List α) → Option β × List α × List (List α)
  | buffer, [] => (verdict buffer, buffer, [])
  | buffer, part :: rest =>
      match verdict buffer with
      | some v => (some v, buffer, part :: rest)
      | none => scan verdict (buffer ++ part) rest

theorem scan_of_some {buffer : List α} {v : β} (parts : List (List α))
    (h : verdict buffer = some v) : scan verdict buffer parts = (some v, buffer, parts) := by
  cases parts <;> simp [scan, h]

/-- The verdict of a scan is the one on the whole stream. -/
theorem verdict_scan (hStable : Stable verdict) (buffer : List α) (parts : List (List α)) :
    (scan verdict buffer parts).1 = verdict (buffer ++ parts.flatten) := by
  induction parts generalizing buffer with
  | nil => simp [scan]
  | cons part rest ih =>
      cases hVerdict : verdict buffer with
      | some v =>
          rw [scan_of_some _ hVerdict]
          exact (hStable buffer _ v hVerdict).symm
      | none =>
          simp only [scan, hVerdict, ih, List.flatten_cons, List.append_assoc]

/-- A scan gives its verdict on the buffer it stops with. -/
theorem verdict_buffer_scan (verdict : List α → Option β) (buffer : List α) (parts : List (List α)) :
    (scan verdict buffer parts).1 = verdict (scan verdict buffer parts).2.1 := by
  induction parts generalizing buffer with
  | nil => rfl
  | cons part rest ih =>
      cases hVerdict : verdict buffer with
      | some v => rw [scan_of_some _ hVerdict, hVerdict]
      | none =>
          simp only [scan, hVerdict]
          exact ih (buffer ++ part)

/-- What is buffered and what is left is the stream. -/
theorem flatten_scan (verdict : List α → Option β) (buffer : List α) (parts : List (List α)) :
    (scan verdict buffer parts).2.1 ++ (scan verdict buffer parts).2.2.flatten =
      buffer ++ parts.flatten := by
  induction parts generalizing buffer with
  | nil => rfl
  | cons part rest ih =>
      cases hVerdict : verdict buffer with
      | some v => rw [scan_of_some _ hVerdict]
      | none =>
          simp only [scan, hVerdict]
          rw [ih, List.flatten_cons, List.append_assoc]

end Incremental
