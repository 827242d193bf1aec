import Eggserve.Rust.Integer

/-! Response planning values for static files. They are independent of the
transport: a plan names a status, headers and a body shape. -/
namespace Eggserve.Primitives
open Rust

structure ResponseStatus where
  code : Nat
  deriving DecidableEq, Repr

namespace ResponseStatus

def ok : ResponseStatus := ⟨200⟩

def partialContent : ResponseStatus := ⟨206⟩

def notModified : ResponseStatus := ⟨304⟩

def preconditionFailed : ResponseStatus := ⟨412⟩

def notRangeSatisfiable : ResponseStatus := ⟨416⟩

end ResponseStatus

structure ResponseHeader where
  name : Str
  value : Str
  deriving DecidableEq

/-- A collection of response headers in insertion order. -/
structure HeaderMapPlan where
  headers : List ResponseHeader
  deriving DecidableEq

namespace HeaderMapPlan

def new : HeaderMapPlan := ⟨[]⟩

def push (plan : HeaderMapPlan) (name value : Str) : HeaderMapPlan :=
  ⟨plan.headers ++ [⟨name, value⟩]⟩

/-- `if let Some(value) = value { headers.push(name, value) }`. -/
def pushSome (plan : HeaderMapPlan) (name : Str) (value : Option Str) : HeaderMapPlan :=
  match value with
  | some value => plan.push name value
  | none => plan

/-- The first value under a name, compared without case. -/
def get (plan : HeaderMapPlan) (name : Str) : Option Str :=
  (plan.headers.find? fun header => eqIgnoreAsciiCase header.name name).map (·.value)

theorem get_push (plan : HeaderMapPlan) (field value name : Str) :
    (plan.push field value).get name =
      (plan.get name).or (if eqIgnoreAsciiCase field name then some value else none) := by
  rw [get, get, push, List.find?_append, Option.map_or]
  cases hName : eqIgnoreAsciiCase field name <;> simp [hName]

/-- A later optional header does not hide an earlier one. -/
theorem get_pushSome {plan : HeaderMapPlan} {name found : Str} (field : Str) (value : Option Str)
    (h : plan.get name = some found) : (plan.pushSome field value).get name = some found := by
  cases value with
  | none => exact h
  | some value => rw [pushSome, get_push, h, Option.some_or]

end HeaderMapPlan

/-- The number of bytes between two inclusive offsets, if it is a `u64`. -/
def checkedLen (start endInclusive : Nat) : Option Nat :=
  if endInclusive < start then some 0
  else (checkedSub endInclusive start).bind (checkedAdd · 1)

/-- A byte range within a file. The length of every range that can be built is
representable, so `len` cannot fail. -/
@[ext]
structure FileRange where
  start : Nat
  endInclusive : Nat
  len_isSome : (checkedLen start endInclusive).isSome
  deriving DecidableEq

namespace FileRange

def tryNew (start endInclusive : Nat) : Option FileRange :=
  if h : (checkedLen start endInclusive).isSome then some ⟨start, endInclusive, h⟩ else none

/-- The asserting constructor: an unrepresentable length panics. -/
def new (start endInclusive : Nat) : MayPanic FileRange := tryNew start endInclusive

def len (range : FileRange) : Nat :=
  (checkedLen range.start range.endInclusive).get range.len_isSome

def isEmpty (range : FileRange) : Bool := range.endInclusive < range.start

end FileRange

theorem checkedLen_of_le {start endInclusive : Nat} (h : start ≤ endInclusive)
    (hEnd : endInclusive < u64Max) :
    checkedLen start endInclusive = some (endInclusive - start + 1) := by
  rw [checkedLen, if_neg (Nat.not_lt.mpr h)]
  exact checkedSub_bind_checkedAdd_one h hEnd

/-- Only a range over the whole `u64` space makes the constructor panic. -/
theorem FileRange.new_of_le {start endInclusive : Nat} (h : start ≤ endInclusive)
    (hEnd : endInclusive < u64Max) :
    ∃ range, FileRange.new start endInclusive = some range ∧ range.start = start ∧
      range.endInclusive = endInclusive ∧ range.len = endInclusive - start + 1 := by
  have hLen := checkedLen_of_le h hEnd
  refine ⟨⟨start, endInclusive, by rw [hLen]; rfl⟩, ?_, rfl, rfl, ?_⟩
  · simp [FileRange.new, FileRange.tryNew, hLen]
  · simp [FileRange.len, hLen]

inductive BodyPlan where
  | empty
  | fullBytes (bytes : List UInt8)
  | fileFull
  | fileRange (start endInclusive : Nat)
  deriving DecidableEq

/-- A complete response plan. -/
structure StaticResponsePlan where
  status : ResponseStatus
  headers : HeaderMapPlan
  body : BodyPlan
  deriving DecidableEq

/-- Outcome of evaluating conditional headers. -/
inductive ConditionalRequestOutcome where
  | notModified (headers : HeaderMapPlan)
  | fullResponse
  | malformed
  deriving DecidableEq

/-- Outcome of evaluating a range header. -/
inductive RangeRequestOutcome where
  | satisfiable (range : FileRange)
  | notSatisfiable
  | malformedOrUnsupported
  | multipleRanges
  deriving DecidableEq

end Eggserve.Primitives
