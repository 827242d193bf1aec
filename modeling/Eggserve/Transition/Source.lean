import Mathlib.Data.List.Infix

/-! Sources that are read through buffers. A read fills some part of the buffer;
an empty one says that the source has ended. -/

/-- A source of items: a read into a buffer of a given size, and the items that
are still to come. -/
class Source (α : outParam Type) (σ : Type) where
  read : σ → Nat → List α × σ
  ahead : σ → List α

/-- Reads lose nothing, fit their buffer and are empty only at the end. -/
class LawfulSource (α : outParam Type) (σ : Type) [Source α σ] : Prop where
  split (source : σ) (size : Nat) :
    (Source.read source size).1 ++ Source.ahead (Source.read source size).2 = Source.ahead source
  fits (source : σ) (size : Nat) : (Source.read source size).1.length ≤ size
  ends (source : σ) (size : Nat) :
    0 < size → (Source.read source size).1 = [] → Source.ahead source = []

namespace Source

variable {α σ : Type} [Source α σ]

/-- Reads through a sequence of buffers: what each was given. -/
def readMany : σ → List Nat → List (List α) × σ
  | source, [] => ([], source)
  | source, size :: sizes =>
      let rest := readMany (read source size).2 sizes
      ((read source size).1 :: rest.1, rest.2)

/-- The items of a stream arrive in order and each once; a read that reports the
end comes after the last of them, and each read before it brings some. -/
structure Replays (source : σ) (stream : List α) (sizes : List Nat) : Prop where
  inOrder : (readMany source sizes).1.flatten ++ ahead (readMany source sizes).2 = stream
  endsLast : ∀ front back, (readMany source sizes).1 = front ++ [] :: back → front.flatten = stream
  complete : stream.length ≤ sizes.length → (readMany source sizes).1.flatten = stream

/-- Read until a buffer holds `target` items or the source has ended. -/
def fill (source : σ) (target : Nat) (buffer : List α) : List α × σ :=
  if buffer.length < target then
    let out := read source (target - buffer.length)
    if out.1.length = 0 then (buffer, out.2) else fill out.2 target (buffer ++ out.1)
  else (buffer, source)
termination_by target - buffer.length
decreasing_by
  simp only [out, List.length_append] at *
  omega

variable [LawfulSource α σ]

theorem readMany_split (source : σ) (sizes : List Nat) :
    (readMany source sizes).1.flatten ++ ahead (readMany source sizes).2 = ahead source := by
  induction sizes generalizing source with
  | nil => rfl
  | cons size sizes ih =>
      rw [readMany, List.flatten_cons, List.append_assoc, ih, LawfulSource.split]

theorem readMany_endsLast {source : σ} {sizes : List Nat} (hSizes : ∀ size ∈ sizes, 0 < size)
    {front back : List (List α)} (h : (readMany source sizes).1 = front ++ [] :: back) :
    front.flatten = ahead source := by
  induction sizes generalizing source front with
  | nil => simp [readMany] at h
  | cons size sizes ih =>
      have hSize := hSizes size List.mem_cons_self
      cases front with
      | nil =>
          have hRead := (List.cons.inj h).1
          exact (LawfulSource.ends source size hSize hRead).symm
      | cons bytes front =>
          obtain ⟨hRead, hRest⟩ := List.cons.inj h
          have hAhead := ih (fun n hn => hSizes n (List.mem_cons_of_mem _ hn)) hRest
          rw [List.flatten_cons, ← hRead, hAhead, LawfulSource.split]

theorem readMany_complete {source : σ} {sizes : List Nat} (hSizes : ∀ size ∈ sizes, 0 < size)
    (h : (ahead source).length ≤ sizes.length) :
    (readMany source sizes).1.flatten = ahead source := by
  induction sizes generalizing source with
  | nil =>
      rw [List.eq_nil_of_length_eq_zero (Nat.le_zero.mp h)]
      rfl
  | cons size sizes ih =>
      have hSplit := LawfulSource.split source size
      have hRest : (ahead (read source size).2).length ≤ sizes.length := by
        cases hRead : (read source size).1 with
        | nil =>
            have hEnd := LawfulSource.ends source size (hSizes size List.mem_cons_self) hRead
            rw [hRead, hEnd, List.nil_append] at hSplit
            simp [hSplit]
        | cons item items =>
            rw [← hSplit, hRead] at h
            simp only [List.cons_append, List.length_cons, List.length_append] at h
            omega
      rw [readMany, List.flatten_cons,
        ih (fun n hn => hSizes n (List.mem_cons_of_mem _ hn)) hRest, hSplit]

/-- A lawful source replays what is ahead of it. -/
theorem replays_ahead (source : σ) {sizes : List Nat} (hSizes : ∀ size ∈ sizes, 0 < size) :
    Replays source (ahead source) sizes :=
  ⟨readMany_split source sizes, fun _ _ => readMany_endsLast hSizes, readMany_complete hSizes⟩

/-- However the reads are cut, the buffer gets the items that come next. -/
theorem fill_eq {source : σ} {target : Nat} {buffer : List α} (hBuffer : buffer.length ≤ target) :
    (fill source target buffer).1 = buffer ++ (ahead source).take (target - buffer.length) ∧
      ahead (fill source target buffer).2 = (ahead source).drop (target - buffer.length) := by
  fun_induction fill source target buffer with
  | case1 source buffer hRoom out hNone =>
      have hRead : (read source (target - buffer.length)).1 = [] :=
        List.eq_nil_of_length_eq_zero hNone
      have hEnd := LawfulSource.ends source (target - buffer.length) (by omega) hRead
      have hSplit := LawfulSource.split source (target - buffer.length)
      rw [hRead, hEnd, List.nil_append] at hSplit
      rw [hEnd]
      exact ⟨by simp, by simpa using hSplit⟩
  | case2 source buffer hRoom out hSome ih =>
      have hFits := LawfulSource.fits source (target - buffer.length)
      have hSplit := LawfulSource.split source (target - buffer.length)
      obtain ⟨hFill, hAhead⟩ := ih (by simp only [List.length_append, out]; omega)
      rw [hFill, hAhead, ← hSplit]
      have hRest : target - (buffer ++ out.1).length = target - buffer.length - out.1.length := by
        simp only [List.length_append]
        omega
      rw [hRest, List.take_append, List.drop_append, List.take_of_length_le hFits,
        List.drop_of_length_le hFits]
      simp [out]
  | case3 source buffer hFull =>
      rw [Nat.sub_eq_zero_of_le (Nat.not_lt.mp hFull)]
      simp

end Source

/-! Transfers in chunks, of which only whole ones are sent. -/
namespace Chunked

variable {α : Type*} {size : Nat}

/-- Of `len` announced items, with `data` to take them from: all of them, or the
whole chunks that are there. The second component says whether all were sent. -/
def transfer (size len : Nat) (data : List α) : List α × Bool :=
  if len ≤ data.length then (data.take len, true)
  else (data.take (size * (data.length / size)), false)

theorem transfer_zero (size : Nat) (data : List α) : transfer size 0 data = ([], true) := by
  simp [transfer]

/-- A chunk that is not there in full ends the transfer. -/
theorem transfer_of_short {len : Nat} {data : List α} (h : data.length < min size len) :
    transfer size len data = ([], false) := by
  rw [transfer, if_neg (by omega), Nat.div_eq_of_lt (by omega)]
  simp

/-- A chunk that is there goes in front of the rest. -/
theorem transfer_of_chunk {len : Nat} {data : List α} (hSize : 0 < size)
    (h : min size len ≤ data.length) :
    transfer size len data =
      (data.take (min size len) ++
          (transfer size (len - min size len) (data.drop (min size len))).1,
        (transfer size (len - min size len) (data.drop (min size len))).2) := by
  unfold transfer
  by_cases hAll : len ≤ data.length
  · have hSplit : len = min size len + (len - min size len) := by omega
    rw [if_pos hAll, if_pos (by rw [List.length_drop]; omega), ← List.take_add, ← hSplit]
  · have hChunk : min size len = size := by omega
    have hCount : size * (data.length / size) =
        size + size * ((data.length - size) / size) := by
      have hDiv := Nat.div_eq_sub_div hSize (show size ≤ data.length by omega)
      rw [hDiv, Nat.mul_add, Nat.mul_one, Nat.add_comm]
    rw [hChunk, if_neg hAll, if_neg (by rw [List.length_drop]; omega), List.length_drop, hCount,
      List.take_add]

end Chunked
