import Eggserve.Primitives.ResponsePlan
import Eggserve.Static.Planner.EntityTag

/-! Validators derived from file metadata, and the evaluation of the
conditional headers against them. -/
namespace Eggserve.Static
open Rust Eggserve.Primitives

/-- A point in time, in nanoseconds from the epoch. -/
abbrev SystemTime := Int

def nanosPerSec : Nat := 1000000000

/-- Attributes captured when the file was opened. A platform may report no
modification time. -/
structure Metadata where
  len : Nat
  modified : Option SystemTime
  len_le : len ≤ u64Max

structure StaticMetadataPolicy where
  emitEtag : Bool := true
  emitLastModified : Bool := true
  deriving DecidableEq, Repr

inductive ReadOnlyMethod where
  | get
  | head
  deriving DecidableEq, Repr

/-- The date functions of the `httpdate` crate. -/
structure HttpDate where
  fmtHttpDate : SystemTime → MayPanic Str
  parseHttpDate : Str → Option SystemTime

/-- The first second of the year 10000, which `httpdate` cannot print. -/
def year10000 : SystemTime := 253402300800 * nanosPerSec

/-- The documented behaviour of the crate that the planner relies on: a date
is printed to the second and read back, and no form of an HTTP date is empty
or holds a quote or a slash. -/
structure HttpDate.Lawful (dates : HttpDate) : Prop where
  parse_fmt : ∀ time, 0 ≤ time → time < year10000 →
    ∃ text, dates.fmtHttpDate time = some text ∧
      dates.parseHttpDate text = some (time / nanosPerSec * nanosPerSec)
  plain : ∀ text time, dates.parseHttpDate text = some time →
    text ≠ [] ∧ '"' ∉ text ∧ '/' ∉ text

/-- The text between the quotes of the tag: size, seconds and nanoseconds, with
a sign for times before the epoch. -/
def etagText (size : Nat) (mtime : SystemTime) : Str :=
  let elapsed := mtime.natAbs
  let sign : Str := if 0 ≤ mtime then [] else "-"
  decimal size ++ '-' :: (sign ++ decimal (elapsed / nanosPerSec) ++
    '-' :: decimal (elapsed % nanosPerSec))

def generateEtag (metadata : Metadata) : Option Str :=
  metadata.modified.map fun mtime => "W/".toList ++ quoted (etagText metadata.len mtime)

/-- The `Last-Modified` text. Times before the epoch are left out instead of
being formatted. -/
def lastModifiedStr (dates : HttpDate) (metadata : Metadata) (policy : StaticMetadataPolicy) :
    MayPanic (Option Str) :=
  if policy.emitLastModified then
    match metadata.modified.filter (0 ≤ ·) with
    | some mtime => (dates.fmtHttpDate mtime).map some
    | none => some none
  else some none

section Evaluation
variable (dates : HttpDate)

/-- The nested `if let`s around every date comparison: both texts are there and
are dates, and the times compare. -/
def datesCompare (compare : SystemTime → SystemTime → Bool) (lastModified : Option Str)
    (header : Str) : Bool :=
  match dates.parseHttpDate header, lastModified.bind dates.parseHttpDate with
  | some time, some lmTime => compare lmTime time
  | _, _ => false

def evaluateConditionalHeaders (currentEtag : Str) (lastModified : Option Str)
    (ifNoneMatch ifModifiedSince : Option Str) : ConditionalRequestOutcome :=
  match ifNoneMatch with
  | some inm =>
      if evaluateIfNoneMatch inm currentEtag then
        .notModified ((HeaderMapPlan.new.push "etag" currentEtag).pushSome "last-modified"
          lastModified)
      else .fullResponse
  | none =>
      match ifModifiedSince with
      | none => .fullResponse
      | some ims =>
          match dates.parseHttpDate ims with
          | none => .malformed
          | some _ =>
              if datesCompare dates (· ≤ ·) lastModified ims then
                .notModified ((HeaderMapPlan.new.push "etag" currentEtag).pushSome "last-modified"
                  lastModified)
              else .fullResponse

/-- The cache-validation step. Without a tag only the wildcard and the date
comparison are left. -/
def evaluateCacheValidation (etag lastModified ifNoneMatch ifModifiedSince : Option Str) :
    Option HeaderMapPlan :=
  match etag with
  | some etagVal =>
      match evaluateConditionalHeaders dates etagVal lastModified ifNoneMatch ifModifiedSince with
      | .notModified headers => some headers
      | _ => none
  | none =>
      match ifNoneMatch with
      | some inm =>
          if trim inm = "*" then
            some (HeaderMapPlan.new.pushSome "last-modified" lastModified)
          else none
      | none =>
          match ifModifiedSince with
          | some ims =>
              if datesCompare dates (· ≤ ·) lastModified ims then
                some (HeaderMapPlan.new.pushSome "last-modified" lastModified)
              else none
          | none => none

def evaluateIfRange (ifRange : Str) (currentEtag lastModified : Option Str) :
    ConditionalRequestOutcome :=
  let trimmed := trim ifRange
  if trimmed.isEmpty then .malformed
  else if trimmed.head? = some '"' then
    match currentEtag with
    | some current =>
        if ¬"W/".toList <+: current ∧ current = trimmed then .notModified .new else .fullResponse
    | none => .fullResponse
  else if "W/".toList <+: trimmed then .fullResponse
  else if datesCompare dates (· ≤ ·) lastModified trimmed then .notModified .new
  else .fullResponse

def ifRangeAllowsRange (ifRange : Str) (currentEtag lastModified : Option Str) : Bool :=
  match evaluateIfRange dates ifRange currentEtag lastModified with
  | .notModified _ => true
  | _ => false

end Evaluation

end Eggserve.Static
